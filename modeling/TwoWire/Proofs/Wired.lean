import TwoWire.Proofs.Answer
import TwoWire.Proofs.Stage

/-! A probe on the simulated bus. While both sides agree on what we drive, a look, a drive and a
refresh never fail. -/

namespace TwoWire

theorem Simulation.update_same (bus : Simulation) (line : Line) :
    bus.update line (bus.pin line) = bus := by
  unfold update
  rw [if_pos rfl]
  cases line <;> rfl

def Simulation.hold (bus : Simulation) (line : Line) (level : Bool) : Simulation :=
  bus.update line { bus.pin line with weak := level }

theorem Simulation.kin_hold (bus : Simulation) (line : Line) (level : Bool) :
    Kin bus (bus.hold line level) := kin_update bus line rfl

theorem Simulation.hold_weak (bus : Simulation) (line : Line) :
    bus.hold line (bus.pin line).weak = bus := bus.update_same line

theorem Simulation.stage_hold (bus : Simulation) (line : Line) (level : Bool) :
    (bus.hold line level).stage =
      match line with
      | .clock => { bus.stage with weakClock := level }
      | .data => { bus.stage with weakData := level } := by
  refine (stage_update ..).trans ?_
  cases line <;> rfl

theorem ClockStretch.isDue_of_not_pending {stretch : ClockStretch}
    (h : stretch.isPending = false) (now : Nat) : stretch.isDue now = false := by
  unfold isPending isDue at *
  cases deadline : stretch.deadline? with
  | none => rfl
  | some deadline => simp [deadline] at h

theorem Lines.level_eq (lines : Lines) (sight : Sight) (line : Line) :
    lines.level sight line = (sight.peer line).getD (lines.weak line) := by
  unfold level reading
  cases sight.peer line <;> rfl

def Stage.held (stage : Stage) (weakClock weakData : Bool) : Stage :=
  { stage with weakClock, weakData }

namespace Probe

/-- The probe watches the two lines of the bus, and both sides know what we drive. -/
structure Wired (probe : Probe Simulation) : Prop where
  clock : probe.lines.clock = probe.bus.clock.id
  data : probe.lines.data = probe.bus.data.id
  distinct : probe.bus.clock.id ≠ probe.bus.data.id
  weakClock : probe.bus.clock.weak = probe.lines.weakClock
  weakData : probe.bus.data.weak = probe.lines.weakData

/-- What drives of ours do to a wired probe and its bus. -/
structure Steered (before after : Probe Simulation) : Prop where
  wired : after.Wired
  kin : Simulation.Kin before.bus after.bus
  stage : after.bus.stage =
    before.bus.stage.held after.lines.weakClock after.lines.weakData

variable {probe : Probe Simulation}

theorem Wired.steered (wired : probe.Wired) : Steered probe probe where
  wired := wired
  kin := .refl _
  stage := by
    unfold Stage.held
    rw [← wired.weakClock, ← wired.weakData]
    rfl

theorem Steered.trans {a b c : Probe Simulation} (first : Steered a b) (second : Steered b c) :
    Steered a c where
  wired := second.wired
  kin := first.kin.trans second.kin
  stage := by
    rw [second.stage, first.stage]
    rfl

theorem Steered.congr {before after same : Probe Simulation} (steered : Steered before after)
    (bus : same.bus = after.bus) (lines : same.lines = after.lines) : Steered before same := by
  obtain ⟨⟨clock, data, distinct, weakClock, weakData⟩, kin, stage⟩ := steered
  rw [← bus, ← lines] at *
  exact ⟨⟨clock, data, distinct, weakClock, weakData⟩, kin, stage⟩

theorem Wired.pin? (wired : probe.Wired) (line : Line) :
    LineBus.pin? probe.bus (probe.lines.id line) = some (probe.bus.pin line) := by
  change (probe.bus.line? _).map _ = _
  unfold Simulation.line?
  cases line with
  | clock => simp [Lines.id, wired.clock]
  | data => simp [Lines.id, wired.data, wired.distinct.symm]

theorem Wired.line? (wired : probe.Wired) (line : Line) :
    probe.bus.line? (probe.lines.id line) = some line := by
  unfold Simulation.line?
  cases line with
  | clock => simp [Lines.id, wired.clock]
  | data => simp [Lines.id, wired.data, wired.distinct.symm]

def sight (probe : Probe Simulation) : Sight :=
  ⟨probe.bus.now, probe.bus.clock.peer, probe.bus.data.peer⟩

theorem Wired.look (wired : probe.Wired) : probe.look = .ok probe.sight := by
  unfold Probe.look Lines.look LineBus.peer?
  rw [wired.pin?, wired.pin?]
  rfl

theorem level_sight (wired : probe.Wired) :
    probe.lines.level probe.sight .clock = probe.bus.stage.clock ∧
      probe.lines.level probe.sight .data = probe.bus.stage.data := by
  rw [Lines.level_eq, Lines.level_eq]
  refine ⟨?_, ?_⟩
  · exact congrArg probe.bus.clock.peer.getD wired.weakClock.symm
  · exact congrArg probe.bus.data.peer.getD wired.weakData.symm

theorem Wired.drive (wired : probe.Wired) (line : Line) (level : Bool) :
    ∃ after, probe.drive line level = .ok () after ∧ Steered probe after ∧
      after.bus = probe.bus.hold line level := by
  have through : LineBus.drive probe.bus (probe.lines.id line) level =
      .ok () (probe.bus.hold line level) := by
    change probe.bus.drive _ _ = _
    unfold Simulation.drive
    rw [wired.line? line]
    rfl
  have kin := probe.bus.kin_hold line level
  have stage := probe.bus.stage_hold line level
  obtain ⟨clock, data, distinct, weakClock, weakData⟩ := wired
  refine ⟨({ probe with lines := probe.lines.setWeak line level }.called
    (.drove line level) (probe.bus.hold line level)), ?_, ⟨⟨?_, ?_, ?_, ?_, ?_⟩, kin, ?_⟩, rfl⟩
  · unfold Probe.drive
    dsimp only
    rw [Lines.id_setWeak, through]
    rfl
  · exact ((probe.lines.id_setWeak line level .clock).trans clock).trans kin.clock.symm
  · exact ((probe.lines.id_setWeak line level .data).trans data).trans kin.data.symm
  · exact fun same => distinct (kin.clock.symm.trans (same.trans kin.data))
  · refine (congrArg Stage.weakClock stage).trans ?_
    cases line <;> first | rfl | exact weakClock
  · refine (congrArg Stage.weakData stage).trans ?_
    cases line <;> first | rfl | exact weakData
  · refine stage.trans ?_
    cases line with
    | clock => exact congrArg (fun weak => probe.bus.stage.held level weak) weakData
    | data => exact congrArg (fun weak => probe.bus.stage.held weak level) weakClock

theorem Wired.weak (wired : probe.Wired) (line : Line) :
    probe.lines.weak line = (probe.bus.pin line).weak := by
  cases line with
  | clock => exact wired.weakClock.symm
  | data => exact wired.weakData.symm

theorem Wired.refreshLine (wired : probe.Wired) (line : Line) :
    ∃ after, probe.refreshLine line = .ok () after ∧ Steered probe after ∧
      after.bus = probe.bus := by
  have driven : LineBus.isDriven probe.bus (probe.lines.id line) =
      .ok (probe.bus.pin line).isDriven := by
    unfold LineBus.isDriven
    rw [wired.pin? line]
  cases strong : (probe.bus.pin line).isDriven with
  | true =>
    refine ⟨probe, ?_, wired.steered, rfl⟩
    unfold Probe.refreshLine
    rw [driven, strong]
  | false =>
    obtain ⟨after, through, steered, bus⟩ := wired.drive line (probe.lines.weak line)
    refine ⟨after, ?_, steered, ?_⟩
    · unfold Probe.refreshLine
      rw [driven, strong]
      exact through
    · rw [bus, wired.weak, Simulation.hold_weak]

theorem Wired.refresh (wired : probe.Wired) :
    ∃ after, probe.refresh = .ok () after ∧ after.Wired ∧ after.bus = probe.bus := by
  obtain ⟨middle, first, steered, bus⟩ := wired.refreshLine .clock
  obtain ⟨after, second, steered', bus'⟩ := steered.wired.refreshLine .data
  refine ⟨after, ?_, steered'.wired, bus'.trans bus⟩
  unfold Probe.refresh
  rw [first]
  exact second

theorem Wired.called (wired : probe.Wired) {bus : Simulation} (entry : Entry)
    (kin : Simulation.Kin probe.bus bus)
    (weak : bus.clock.weak = probe.bus.clock.weak ∧ bus.data.weak = probe.bus.data.weak) :
    (probe.called entry bus).Wired where
  clock := wired.clock.trans kin.clock.symm
  data := wired.data.trans kin.data.symm
  distinct := fun same => wired.distinct (kin.clock.symm.trans (same.trans kin.data))
  weakClock := weak.1.trans wired.weakClock
  weakData := weak.2.trans wired.weakData

structure Woken (before : Probe Simulation) (bus : Simulation) (after : Probe Simulation) :
    Prop where
  wired : after.Wired
  kin : Simulation.Kin before.bus after.bus
  detector : after.detector = before.detector
  weakData : after.lines.weakData = before.lines.weakData
  findings : after.findings = before.findings
  /-- The clock is let go if that is due. -/
  let_go : if before.stretch.isDue bus.now then
      after.stretch = before.stretch.release ∧ after.bus = bus.hold .clock true
    else after.stretch = before.stretch ∧ after.bus = bus

theorem Wired.releaseWhenDue (wired : probe.Wired) :
    ∃ after, probe.releaseWhenDue = .ok () after ∧ Woken probe probe.bus after := by
  unfold Probe.releaseWhenDue
  cases due : probe.stretch.isDue probe.now with
  | false => exact ⟨probe, rfl, wired, .refl _, rfl, rfl, rfl, by
      rw [show probe.bus.now = probe.now from rfl, due]; exact ⟨rfl, rfl⟩⟩
  | true =>
    obtain ⟨free, through, steered, bus⟩ := wired.drive .clock true
    have still := probe.still_drive .clock true
    have lines := probe.lines_drive .clock true
    have stretch := probe.stretch_drive .clock true
    have told := (probe.silent_drive .clock true).findings
    rw [through] at still lines stretch told
    refine ⟨{ free with stretch := free.stretch.release }.note (.stretchEnded free.now), ?_, ?_⟩
    · rw [if_pos rfl, through]
      rfl
    · have let_go : Steered probe ({ free with stretch := free.stretch.release }.note
          (.stretchEnded free.now)) := steered.congr rfl rfl
      have weakData := congrArg Lines.weakData lines
      refine ⟨let_go.wired, let_go.kin, still.detector, weakData, ?_, ?_⟩
      · exact (Journal.findings_cons_of_none rfl _).trans told
      · rw [show probe.bus.now = probe.now from rfl, due]
        exact ⟨congrArg ClockStretch.release stretch, bus⟩

theorem Woken.refresh {before woken : Probe Simulation} {bus : Simulation}
    (h : Woken before bus woken) :
    ∃ after, woken.refresh = .ok () after ∧ Woken before bus after := by
  obtain ⟨after, through, wired, same⟩ := h.wired.refresh
  have refreshed := woken.refreshed_refresh
  have told := woken.silent_refresh.findings
  rw [through] at refreshed told
  refine ⟨after, through, wired, same ▸ h.kin, ?_, ?_, told.trans h.findings, ?_⟩
  · exact refreshed.still.detector.trans h.detector
  · exact (congrArg Lines.weakData refreshed.lines).trans h.weakData
  · have stretch : after.stretch = woken.stretch := refreshed.stretch
    rw [stretch, same]
    exact h.let_go

def waitKind (probe : Probe Simulation) : WaitKind :=
  if probe.stretch.isPending then .cycle else .change

theorem Wired.pause (wired : probe.Wired) {bus : Simulation}
    (waited : LineBus.wait probe.bus probe.waitKind = .ok () bus)
    (kin : Simulation.Kin probe.bus bus)
    (weak : bus.clock.weak = probe.bus.clock.weak ∧ bus.data.weak = probe.bus.data.weak) :
    ∃ after, probe.pause = .ok () after ∧ Woken probe bus after := by
  have called := wired.called (.waited probe.waitKind) kin weak
  have told := (probe.silent_called (.waited probe.waitKind) rfl rfl bus).findings
  have reached : probe.wait probe.waitKind =
      .ok () (probe.called (.waited probe.waitKind) bus) := by
    unfold Probe.wait
    rw [waited]
    rfl
  unfold Probe.pause
  cases pending : probe.stretch.isPending with
  | false =>
    have kind : probe.waitKind = .change := by simp [waitKind, pending]
    have early := ClockStretch.isDue_of_not_pending pending bus.now
    have woken : Woken probe bus (probe.called (.waited .change) bus) := by
      rw [kind] at called told
      refine ⟨called, kin, rfl, rfl, told, ?_⟩
      rw [early]
      exact ⟨rfl, rfl⟩
    rw [kind] at reached
    simp only [Bool.false_eq_true, if_false, reached, Outcome.andThen_ok]
    exact woken.refresh
  | true =>
    have kind : probe.waitKind = .cycle := by simp [waitKind, pending]
    rw [kind] at reached called told
    obtain ⟨free, through, released⟩ := called.releaseWhenDue
    have woken : Woken probe bus free := ⟨released.wired, kin.trans released.kin,
      released.detector, released.weakData, released.findings.trans told, released.let_go⟩
    simp only [if_true, reached, Outcome.andThen_ok, through]
    exact woken.refresh

end Probe

namespace Checker

variable {checker : Checker Simulation}

theorem driveData_of_wired (wired : checker.probe.Wired) (drive? : Option Bool) :
    ∃ after, checker.driveData drive? = .ok () after ∧
      Probe.Steered checker.probe after.probe := by
  cases drive? with
  | none => exact ⟨checker, rfl, wired.steered⟩
  | some level =>
    obtain ⟨probe, through, steered, -⟩ := wired.drive .data level
    refine ⟨{ checker with probe }, ?_, steered⟩
    unfold driveData drive
    dsimp only
    rw [through]
    rfl

theorem report_of_wired (wired : checker.probe.Wired) {notes : List Note}
    (sound : Note.Sound notes) :
    ∃ after, checker.report notes = .ok () after ∧
      Probe.Steered checker.probe after.probe := by
  obtain ⟨after, reported⟩ := checker.report_of_sound sound
  refine ⟨after, reported, ?_⟩
  rw [report_ok reported]
  exact wired.steered.congr rfl rfl

theorem enter_of_wired (wired : checker.probe.Wired) {sight : Sight} {phase : Phase}
    (sound : Note.Sound (checker.protocol.enter (checker.view sight) phase).notes) :
    ∃ after, checker.enter sight phase =
        .ok (checker.protocol.enter (checker.view sight) phase).forced? after ∧
      Probe.Steered checker.probe after.probe := by
  unfold enter
  dsimp only
  generalize checker.protocol.enter (checker.view sight) phase = arrival at sound ⊢
  generalize start : ({ checker.note (.entered checker.protocol.phase phase checker.now) with
    protocol := arrival.protocol } : Checker Simulation) = noted
  have steered : Probe.Steered checker.probe noted.probe := by
    rw [← start]
    exact wired.steered.congr rfl rfl
  obtain ⟨told, reported, steered'⟩ := report_of_wired steered.wired sound
  obtain ⟨after, driven, steered''⟩ := driveData_of_wired steered'.wired arrival.drive?
  refine ⟨after, ?_, steered.trans (steered'.trans steered'')⟩
  rw [reported, Outcome.andThen_ok, driven, Outcome.andThen_ok]

theorem follow_of_wired (wired : checker.probe.Wired) {sight : Sight} {phase : Phase}
    (sound : Note.Sound (checker.protocol.follow (checker.view sight) phase).notes) :
    ∃ after, checker.follow sight phase = .ok () after ∧
      Probe.Steered checker.probe after.probe := by
  unfold Protocol.follow at sound
  dsimp only at sound
  cases forced : (checker.protocol.enter (checker.view sight) phase).forced? with
  | none =>
    rw [forced] at sound
    obtain ⟨after, entered, steered⟩ := enter_of_wired wired sound
    refine ⟨after, ?_, steered⟩
    unfold follow
    rw [entered, forced]
    rfl
  | some next =>
    rw [forced] at sound
    obtain ⟨sound, sound'⟩ := Note.sound_of_append sound
    obtain ⟨middle, entered, steered⟩ := enter_of_wired wired sound
    obtain ⟨first, -⟩ := arrived_enter entered
    rw [← first.protocol, ← view_of_arrived first] at sound'
    obtain ⟨after, again, steered'⟩ := enter_of_wired steered.wired sound'
    refine ⟨after, ?_, steered.trans steered'⟩
    unfold follow
    rw [entered, forced, Outcome.andThen_ok]
    dsimp only
    rw [again]
    rfl

theorem clockEdge_of_wired (wired : checker.probe.Wired) (change : Change) :
    ∃ after, checker.clockEdge change = .ok () after ∧
      Probe.Steered checker.probe after.probe := by
  unfold clockEdge
  split
  case isFalse => exact ⟨checker, rfl, wired.steered⟩
  case isTrue =>
    unfold clockFell
    dsimp only
    generalize start : ({ checker with
      protocol := { checker.protocol with
        meter := checker.protocol.meter.clockFell change.time }
      probe := { checker.probe with stretch := checker.probe.stretch.begin change.time } } :
        Checker Simulation) = begun
    have steered : Probe.Steered checker.probe begun.probe := by
      rw [← start]
      exact wired.steered.congr rfl rfl
    split
    case isFalse => exact ⟨begun, rfl, steered⟩
    case isTrue =>
      obtain ⟨probe, through, steered', -⟩ := steered.wired.drive .clock false
      refine ⟨({ begun with probe } : Checker Simulation).note (.stretchBegan change.time), ?_,
        (steered.trans steered').congr rfl rfl⟩
      unfold drive
      rw [through]
      rfl

/-- A wired checker answers every edge whose intervals can all be measured. -/
theorem react_of_wired (wired : checker.probe.Wired) {change : Change}
    (sound : Note.Sound (checker.protocol.answer checker.probe.stretch.isEnabled
      (checker.view change.sight) change.edge).notes) :
    ∃ after, checker.react change = .ok () after ∧
      Probe.Steered checker.probe after.probe := by
  unfold Protocol.answer at sound
  dsimp only at sound
  obtain ⟨first, followed⟩ := Note.sound_of_append sound
  obtain ⟨judged, simultaneous⟩ := Note.sound_of_append first
  obtain ⟨told, reported, steered⟩ := report_of_wired wired judged
  have same := report_ok reported
  obtain ⟨clocked, edged, steered'⟩ := clockEdge_of_wired steered.wired change
  have clocking := clocking_clockEdge edged
  obtain ⟨noted, reported', steered''⟩ := report_of_wired steered'.wired simultaneous
  have same' := report_ok reported'
  have unmoved : told.view change.sight = checker.view change.sight := by rw [same]; rfl
  have kept : told.protocol = checker.protocol := by rw [same]
  have stretch : told.probe.stretch = checker.probe.stretch := by rw [same]
  have view : noted.view change.sight =
      (checker.view change.sight).held change.edge checker.probe.stretch.isEnabled := by
    rw [← unmoved, ← stretch, ← clocking.view, same']
    rfl
  have protocol : noted.protocol =
      checker.protocol.measured (checker.view change.sight) change.edge := by
    rw [← unmoved, ← kept, ← clocking.protocol, same']
  have detector : noted.probe.detector = (checker.view change.sight).detector := by
    rw [← unmoved, same']
    exact clocking.still.detector
  rw [← Protocol.successor_measured checker.protocol (checker.view change.sight) change.edge,
    ← protocol, ← view, ← detector] at followed
  obtain ⟨after, through, steered'''⟩ := follow_of_wired steered''.wired followed
  refine ⟨after, ?_, steered.trans (steered'.trans (steered''.trans steered'''))⟩
  unfold react
  rw [reported, Outcome.andThen_ok, edged, Outcome.andThen_ok, reported', Outcome.andThen_ok]
  exact through

end Checker
end TwoWire
