import TwoWire.Checker.Reaction

/-! Why a run ends: each step makes one of four quantities smaller and leaves those before it as
they are (`step_lt`). -/

namespace TwoWire

namespace Probe

variable {β : Type} [LineBus β]

def level? (probe : Probe β) (line : Line) : Option Bool :=
  (LineBus.peer? probe.bus (probe.lines.id line)).map fun peer =>
    (probe.lines.reading line peer).level

def differs (probe : Probe β) (line : Line) : Bool :=
  probe.level? line == some (!(probe.detector.sample line).level)

def falls (probe : Probe β) : Nat :=
  if probe.differs .clock && probe.detector.clock.level then 1 else 0

theorem level?_of_look {probe : Probe β} {sight : Sight} (h : probe.look = .ok sight)
    (line : Line) : probe.level? line = some (probe.lines.level sight line) := by
  unfold look Lines.look at h
  split at h
  · cases h
  · cases h
  case h_3 clock data hclock hdata =>
    cases h
    unfold level?
    cases line
    · rw [hclock]; rfl
    · rw [hdata]; rfl

theorem level?_congr {before after : Probe β} {line : Line}
    (peer : ∀ id, LineBus.peer? after.bus id = LineBus.peer? before.bus id)
    (id : after.lines.id line = before.lines.id line)
    (weak : after.lines.weak line = before.lines.weak line) :
    after.level? line = before.level? line := by
  unfold level?
  rw [id, peer]
  congr 1
  funext drive
  cases drive <;> simp [Lines.reading, weak]

theorem differs_of_look {probe : Probe β} {sight : Sight} (h : probe.look = .ok sight)
    (line : Line) :
    probe.differs line =
      (probe.lines.level sight line != (probe.detector.sample line).level) := by
  unfold differs
  rw [level?_of_look h]
  cases probe.lines.level sight line <;> cases (probe.detector.sample line).level <;> rfl

theorem differs_of_edge {probe : Probe β} {sight : Sight} {edge : Edge}
    (look : probe.look = .ok sight)
    (h : probe.detector.edge? probe.lines sight = some edge) :
    probe.differs edge.line = true ∧ (edge.line = .data → probe.differs .clock = false) := by
  rw [differs_of_look look, differs_of_look look]
  unfold EdgeDetector.edge? at h
  dsimp only at h
  split at h
  case isTrue clock =>
    split at h <;> cases h <;> exact ⟨clock, nofun⟩
  case isFalse clock =>
    split at h
    case isTrue data =>
      cases h
      exact ⟨data, fun _ => by simpa [EdgeDetector.sample] using clock⟩
    case isFalse => cases h

theorem not_differs_of_no_edge {probe : Probe β} {sight : Sight} (look : probe.look = .ok sight)
    (h : probe.detector.edge? probe.lines sight = none) (line : Line) :
    probe.differs line = false := by
  rw [differs_of_look look]
  unfold EdgeDetector.edge? at h
  dsimp only at h
  split at h
  case isTrue => cases h
  case isFalse clock =>
    split at h
    case isTrue => cases h
    case isFalse data =>
      cases line
      · simpa [EdgeDetector.sample] using clock
      · simpa [EdgeDetector.sample] using data

theorem Idled.rise {before after : Probe β} (idled : Idled before after)
    (quiet : ∀ line, before.differs line = false) {line : Line}
    (h : after.differs line = true) : line = .clock ∧ after.level? .clock = some true := by
  have same : ∀ line, after.lines.weak line = before.lines.weak line →
      after.differs line = before.differs line := fun line weak => by
    unfold differs
    rw [level?_congr idled.peer (idled.id line) weak, idled.detector]
  rcases idled.lines with lines | lines
  · rw [same line (by rw [lines]), quiet] at h
    cases h
  · cases line with
    | data =>
      rw [same .data (by rw [lines]; rfl), quiet] at h
      cases h
    | clock =>
      refine ⟨rfl, ?_⟩
      have calm := quiet .clock
      unfold differs at h calm
      unfold level? at h calm ⊢
      rw [idled.id, idled.peer, idled.detector] at h
      rw [idled.id, idled.peer]
      rw [lines] at h ⊢
      cases peer : LineBus.peer? before.bus (before.lines.id .clock) with
      | none =>
        rw [peer] at h
        cases h
      | some drive =>
        rw [peer] at h calm
        cases drive with
        | none => rfl
        | some level =>
          simp only [Option.map_some, Lines.reading] at h calm
          rw [h] at calm
          cases calm

theorem Commits.level? {probe after : Probe β} {change : Change}
    (commits : Commits probe change after) :
    after.level? change.line = some (after.detector.sample change.line).level := by
  have seen := level?_of_look commits.look change.line
  rw [commits.after]
  refine Eq.trans seen ?_
  unfold commit note Change.line
  cases change.edge.line <;> rfl

theorem Commits.sample_clock {probe after : Probe β} {change : Change}
    (commits : Commits probe change after) (data : change.line = .data) :
    after.detector.clock = probe.detector.clock := by
  rw [commits.after]
  unfold Change.line at data
  unfold commit
  rw [data]
  rfl

theorem Commits.differs_clock {probe after : Probe β} {change : Change}
    (commits : Commits probe change after) (data : change.line = .data) :
    after.differs .clock = false := by
  have apart := (differs_of_edge commits.look commits.edge).2 data
  have same := commits.sample_clock data
  rw [← apart]
  unfold differs
  have level : after.level? .clock = probe.level? .clock := by rw [commits.after]; rfl
  rw [level]
  unfold EdgeDetector.sample
  rw [same]

end Probe

namespace Protocol

/-- Entering the phase once more would leave the data line as we hold it. -/
def holds (protocol : Protocol) (weakData : Bool) : Bool :=
  match protocol.phase with
  | .driveBit => weakData == protocol.shifter.outgoingLevel
  | .driveAck => !protocol.acknowledging && weakData
  | _ => true

theorem holds_of_not_drives {protocol : Protocol} (h : ¬Drives protocol.phase) (weakData : Bool) :
    protocol.holds weakData = true := by
  unfold holds
  split
  case h_1 phase => exact absurd (.inl phase) h
  case h_2 phase => exact absurd (.inr phase) h
  case h_3 => rfl

theorem phase_of_drives_successor {protocol : Protocol} {detector : EdgeDetector}
    (h : Drives (protocol.successor detector .data)) :
    protocol.successor detector .data = protocol.phase := by
  unfold successor at h ⊢
  split
  case isTrue recovery =>
    rw [if_pos recovery] at h
    split at h <;> exact absurd h (by decide)
  case isFalse other =>
    rw [if_neg other] at h
    revert h
    cases protocol.phase <;> decide

end Protocol

namespace Checker

variable {β : Type} [LineBus β]

def weakData (checker : Checker β) : Bool := checker.probe.lines.weakData

/-- How far the lines are from their committed levels. A move of the data line can bring one more
about, when we drive the line in answer to it. -/
def unrest (checker : Checker β) : Nat :=
  (if checker.probe.differs .clock then 3 else 0) +
    if checker.probe.differs .data then
      if checker.protocol.holds checker.weakData then 1 else 2
    else 0

theorem unrest_le {checker : Checker β} (h : checker.probe.differs .clock = false) :
    checker.unrest ≤ 2 := by
  unfold unrest
  rw [h]
  simp only [Bool.false_eq_true, if_false]
  split
  · split <;> decide
  · decide

theorem holds_of_followed {before after : Checker β} {sight : Sight}
    (h : Followed before sight
      (before.protocol.successor before.probe.detector .data) after) :
    after.protocol.holds after.weakData = true ∧
      (before.protocol.holds before.weakData = true → after.weakData = before.weakData) := by
  obtain ⟨-, -, lines, protocol⟩ := h
  generalize successor : before.protocol.successor before.probe.detector .data = phase
    at lines protocol
  by_cases drives : Protocol.Drives phase
  case neg =>
    rw [Protocol.drive?_enter _ _ drives] at lines
    refine ⟨Protocol.holds_of_not_drives ?_ _, fun _ => congrArg Lines.weakData lines⟩
    cases forced : (before.protocol.enter (before.view sight) phase).forced? with
    | none =>
      rw [forced] at protocol
      rw [show after.protocol = _ from protocol, Protocol.phase_enter]
      exact drives
    | some next =>
      rw [forced] at protocol
      rw [show after.protocol.phase = next from protocol]
      exact (Protocol.rests_of_forced forced).2
  case pos =>
    have stay : phase = before.protocol.phase := by
      rw [← successor] at drives ⊢
      exact Protocol.phase_of_drives_successor drives
    rcases drives with rfl | rfl
    · have level : after.weakData = before.protocol.shifter.outgoingLevel :=
        congrArg Lines.weakData lines
      rw [show after.protocol = _ from protocol]
      unfold Protocol.holds
      rw [Protocol.phase_enter, ← stay]
      dsimp only
      rw [level]
      exact ⟨beq_self_eq_true _, fun same => (beq_iff_eq.mp same).symm⟩
    · cases acknowledging : before.protocol.acknowledging with
      | true =>
        simp only [Protocol.enter, Protocol.arrive, Protocol.onDriveAck, acknowledging,
          if_true] at protocol
        constructor
        · exact Protocol.holds_of_not_drives (by rw [protocol]; decide) _
        · unfold Protocol.holds
          rw [← stay, acknowledging]
          exact nofun
      | false =>
        simp only [Protocol.enter, Protocol.arrive, Protocol.onDriveAck, acknowledging,
          Bool.false_eq_true, if_false] at protocol lines
        have level : after.weakData = true := congrArg Lines.weakData lines
        unfold Protocol.holds
        rw [protocol, ← stay, level, acknowledging]
        exact ⟨rfl, fun same => same.symm⟩

structure Reacted (before : Checker β) (change : Change) (after : Checker β) : Prop where
  still : Probe.Still before.probe after.probe
  weakClock : after.probe.lines.weakClock = before.probe.lines.weakClock ∨
    Fell before change ∧ after.probe.lines.weakClock = false
  stretch : ¬Fell before change → after.probe.stretch = before.probe.stretch
  holds : change.line = .data → after.protocol.holds after.weakData = true ∧
    (before.protocol.holds before.weakData = true → after.weakData = before.weakData)

theorem reacted {before after : Checker β} {change : Change}
    (h : before.react change = .ok () after) : Reacted before change after := by
  obtain ⟨middle, clocked, followed⟩ := react_ok h
  have weakClock : after.probe.lines.weakClock = middle.probe.lines.weakClock := by
    rw [followed.lines]
    split <;> rfl
  refine ⟨clocked.still.trans followed.still, ?_, ?_, ?_⟩
  · rw [weakClock]
    exact clocked.weakClock
  · exact fun rose => followed.stretch.trans (clocked.stretch rose)
  · intro line
    rw [line] at followed
    obtain ⟨settled, same⟩ := holds_of_followed followed
    refine ⟨settled, fun held => ?_⟩
    have weakData : middle.weakData = before.weakData := clocked.weakData
    rw [← weakData]
    apply same
    rw [weakData, ← held, ← clocked.protocol]
    rfl

/-- Quantities that the steps of a run make smaller, the first one first. -/
def measure (checker : Checker β) : Nat × Nat × Nat × Nat :=
  (LineBus.work checker.probe.bus, checker.probe.falls,
    checker.probe.stretch.remaining checker.now, checker.unrest)

/-- A clock at its committed level stays there, however we drive it in answer to its edge. -/
theorem Reacted.differs_clock {before after : Checker β} {change : Change}
    (reacted : Reacted before change after)
    (committed : before.probe.level? .clock = some before.probe.detector.clock.level) :
    after.probe.differs .clock = false := by
  have level : after.probe.level? .clock = some before.probe.detector.clock.level := by
    rcases reacted.weakClock with same | ⟨fell, low⟩
    · rw [Probe.level?_congr reacted.still.peer (reacted.still.id .clock) same, committed]
    · rw [fell.2] at committed ⊢
      unfold Probe.level? at committed ⊢
      rw [reacted.still.id, reacted.still.peer]
      cases peer : LineBus.peer? before.probe.bus (before.probe.lines.id .clock) with
      | none =>
        rw [peer] at committed
        cases committed
      | some drive =>
        rw [peer] at committed
        cases drive with
        | none => exact congrArg some low
        | some level => exact committed
  unfold Probe.differs
  rw [level, reacted.still.detector]
  unfold EdgeDetector.sample
  cases before.probe.detector.clock.level <;> rfl

theorem falls_eq_zero {probe : Probe β} (h : probe.differs .clock = false) : probe.falls = 0 := by
  unfold Probe.falls
  rw [h]
  rfl

theorem rel_measure {before after : Checker β}
    (h : LineBus.work after.probe.bus < LineBus.work before.probe.bus ∨
      LineBus.work after.probe.bus = LineBus.work before.probe.bus ∧
        (after.probe.falls < before.probe.falls ∨ after.probe.falls = before.probe.falls ∧
          (after.probe.stretch.remaining after.now < before.probe.stretch.remaining before.now ∨
            after.probe.stretch.remaining after.now = before.probe.stretch.remaining before.now ∧
              after.unrest < before.unrest))) :
    WellFoundedRelation.rel after.measure before.measure := by
  unfold measure
  rcases h with work | ⟨work, falls | ⟨falls, remaining | ⟨remaining, unrest⟩⟩⟩
  · exact .left _ _ work
  · rw [work]
    exact .right _ (.left _ _ falls)
  · rw [work, falls]
    exact .right _ (.right _ (.left _ _ remaining))
  · rw [work, falls, remaining]
    exact .right _ (.right _ (.right _ unrest))

theorem measure_clock {before committed after : Checker β} {change : Change}
    (commits : before.probe.Commits change committed.probe)
    (reacted : Reacted committed change after) (clock : change.line = .clock) :
    WellFoundedRelation.rel after.measure before.measure := by
  have level := commits.level?
  rw [clock] at level
  have still := reacted.differs_clock level
  have differs := (Probe.differs_of_edge commits.look commits.edge).1
  rw [show change.edge.line = .clock from clock] at differs
  have bus : committed.probe.bus = before.probe.bus := by rw [commits.after]; rfl
  have stretch : committed.probe.stretch = before.probe.stretch := by rw [commits.after]; rfl
  have moved : committed.probe.detector.clock.level = !before.probe.detector.clock.level := by
    have seen : committed.probe.level? .clock = before.probe.level? .clock := by
      rw [commits.after]; rfl
    unfold Probe.differs at differs
    rw [← seen, level] at differs
    exact Option.some.inj (beq_iff_eq.mp differs)
  refine rel_measure (.inr ⟨bus ▸ reacted.still.work, ?_⟩)
  rw [falls_eq_zero still]
  cases high : before.probe.detector.clock.level with
  | true =>
    refine .inl ?_
    unfold Probe.falls
    rw [differs, high]
    decide
  | false =>
    have rose : ¬Fell committed change := fun fell => by
      rw [fell.2, high] at moved
      cases moved
    refine .inr ⟨?_, .inr ⟨?_, ?_⟩⟩
    · unfold Probe.falls
      rw [high, Bool.and_false]
      rfl
    · rw [reacted.stretch rose, stretch]
      have now : after.now = before.now := by
        refine reacted.still.now.trans ?_
        unfold Probe.now
        rw [bus]
        rfl
      rw [now]
    · refine Nat.lt_of_le_of_lt (unrest_le still) ?_
      unfold unrest
      rw [differs]
      simp only [if_true]
      omega

theorem measure_data {before committed after : Checker β} {change : Change}
    (commits : before.probe.Commits change committed.probe)
    (protocol : committed.protocol = before.protocol)
    (reacted : Reacted committed change after) (data : change.line = .data) :
    WellFoundedRelation.rel after.measure before.measure := by
  have bus : committed.probe.bus = before.probe.bus := by rw [commits.after]; rfl
  have lines : committed.probe.lines = before.probe.lines := by rw [commits.after]; rfl
  have stretch : committed.probe.stretch = before.probe.stretch := by rw [commits.after]; rfl
  have rose : ¬Fell committed change := fun fell => by
    rw [fell.1] at data
    cases data
  have calm := (Probe.differs_of_edge commits.look commits.edge).2 data
  have differs := (Probe.differs_of_edge commits.look commits.edge).1
  rw [show change.edge.line = .data from data] at differs
  have still : after.probe.differs .clock = false := by
    rw [← commits.differs_clock data]
    unfold Probe.differs
    have weak : after.probe.lines.weakClock = committed.probe.lines.weakClock := by
      rcases reacted.weakClock with same | ⟨fell, -⟩
      · exact same
      · exact absurd fell rose
    rw [Probe.level?_congr reacted.still.peer (reacted.still.id .clock) weak,
      reacted.still.detector]
  obtain ⟨settled, same⟩ := reacted.holds data
  refine rel_measure (.inr ⟨bus ▸ reacted.still.work, .inr ⟨?_, .inr ⟨?_, ?_⟩⟩⟩)
  · rw [falls_eq_zero still, falls_eq_zero calm]
  · rw [reacted.stretch rose, stretch]
    have now : after.now = before.now := by
      refine reacted.still.now.trans ?_
      unfold Probe.now
      rw [bus]
      rfl
    rw [now]
  · unfold unrest
    rw [still, calm, differs, settled]
    have weakData : committed.weakData = before.weakData := congrArg Lines.weakData lines
    rw [protocol, weakData] at same
    cases held : before.protocol.holds before.weakData with
    | false =>
      simp only [Bool.false_eq_true, if_false, if_true]
      split <;> decide
    | true =>
      have quiet : after.probe.differs .data = false := by
        have level := commits.level?
        rw [data] at level
        unfold Probe.differs
        rw [Probe.level?_congr reacted.still.peer (reacted.still.id .data)
          ((same held).trans weakData.symm), level, reacted.still.detector]
        cases (committed.probe.detector.sample .data).level <;> rfl
      rw [quiet]
      decide

theorem measure_idled {before committed after : Checker β} {woken : Probe β} {change : Change}
    (commits : woken.Commits change committed.probe) (idled : Probe.Idled before.probe woken)
    (quiet : ∀ line, before.probe.differs line = false)
    (reacted : Reacted committed change after) :
    WellFoundedRelation.rel after.measure before.measure := by
  have bus : committed.probe.bus = woken.bus := by rw [commits.after]; rfl
  have stretch : committed.probe.stretch = woken.stretch := by rw [commits.after]; rfl
  obtain ⟨clock, high⟩ := idled.rise quiet
    (Probe.differs_of_edge commits.look commits.edge).1
  have level := commits.level?
  rw [show change.line = .clock from clock] at level
  have seen : committed.probe.level? .clock = woken.level? .clock := by rw [commits.after]; rfl
  have rose : ¬Fell committed change := fun fell => by
    rw [seen, high] at level
    have up : committed.probe.detector.clock.level = true := (Option.some.inj level).symm
    have low := fell.2
    rw [up] at low
    cases low
  have work : LineBus.work after.probe.bus = LineBus.work woken.bus := bus ▸ reacted.still.work
  rcases Nat.lt_or_eq_of_le idled.work with less | same
  · exact rel_measure (.inl (work ▸ less))
  · refine rel_measure (.inr ⟨work.trans same, .inr ⟨?_, .inl ?_⟩⟩)
    · rw [falls_eq_zero (reacted.differs_clock level), falls_eq_zero (quiet .clock)]
    · rw [reacted.stretch rose, stretch]
      have now : after.now = woken.now := by
        refine reacted.still.now.trans ?_
        unfold Probe.now
        rw [bus]
      rw [now]
      exact idled.remaining

theorem step_ok {before after : Checker β} (h : before.step = .ok () after) :
    ∃ change committed, before.probe.awaitChange = .ok change committed ∧
      ({ before with probe := committed } : Checker β).react change = .ok () after := by
  unfold step await at h
  cases awaited : before.probe.awaitChange with
  | fail _ _ =>
    rw [awaited] at h
    cases h
  | ok change committed =>
    rw [awaited] at h
    exact ⟨change, committed, rfl, h⟩

theorem step_lt {before after : Checker β} (h : before.step = .ok () after) :
    WellFoundedRelation.rel after.measure before.measure := by
  obtain ⟨change, committed, awaited, react⟩ := step_ok h
  have effect := reacted react
  rcases Probe.awaitChange_cases awaited with
    now | ⟨woken, later, less | ⟨idled, sight, look, none⟩⟩
  · cases line : change.line with
    | clock => exact measure_clock now effect line
    | data =>
      have moved := @measure_data β _ before { before with probe := committed } after change
      exact moved now rfl effect line
  · have bus : committed.bus = woken.bus := by rw [later.after]; rfl
    have work : LineBus.work after.probe.bus = LineBus.work committed.bus := effect.still.work
    rw [bus] at work
    exact rel_measure (.inl (work ▸ less))
  · exact measure_idled later idled (Probe.not_differs_of_no_edge look none) effect

end Checker
end TwoWire
