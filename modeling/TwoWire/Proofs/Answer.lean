import TwoWire.Proofs.Findings

/-! The checker's answer to an edge as a function of what is seen: whatever the bus, a reaction that
goes through is this function (`answered`). -/

namespace TwoWire

namespace View

def driven (view : View) (drive? : Option Bool) : View :=
  match drive? with
  | none => view
  | some level => { view with lines := view.lines.setWeak .data level }

def falls (view : View) (edge : Edge) : Bool := decide (edge.line = .clock) && !view.clock.level

/-- The view once the clock is held low, if it fell and falls are stretched. -/
def held (view : View) (edge : Edge) (stretches : Bool) : View :=
  if view.falls edge && stretches then
    { view with lines := view.lines.setWeak .clock false }
  else view

theorem detector_held (view : View) (edge : Edge) (stretches : Bool) :
    (view.held edge stretches).detector = view.detector := by
  unfold held
  split <;> rfl

theorem sight_held (view : View) (edge : Edge) (stretches : Bool) :
    (view.held edge stretches).sight = view.sight := by
  unfold held
  split <;> rfl

end View

namespace Protocol

def follow (protocol : Protocol) (view : View) (phase : Phase) : Arrival :=
  let first := protocol.enter view phase
  match first.forced? with
  | none => first
  | some forced =>
    let second := first.protocol.enter (view.driven first.drive?) forced
    { protocol := second.protocol
      notes := first.notes ++ second.notes
      drive? := first.drive? }

def measured (protocol : Protocol) (view : View) (edge : Edge) : Protocol :=
  if view.falls edge then { protocol with meter := protocol.meter.clockFell view.now }
  else protocol

def answer (protocol : Protocol) (stretches : Bool) (view : View) (edge : Edge) : Arrival :=
  let arrival := (protocol.measured view edge).follow (view.held edge stretches)
    (protocol.successor view.detector edge.line)
  { arrival with
    notes := protocol.edgeNotes view edge ++ Checker.simultaneousNotes edge ++ arrival.notes }

theorem successor_measured (protocol : Protocol) (view : View) (edge : Edge)
    (detector : EdgeDetector) (line : Line) :
    (protocol.measured view edge).successor detector line = protocol.successor detector line := by
  unfold measured
  split <;> rfl

theorem shifter_measured (protocol : Protocol) (view : View) (edge : Edge) :
    (protocol.measured view edge).shifter = protocol.shifter := by
  unfold measured
  split <;> rfl

theorem phase_measured (protocol : Protocol) (view : View) (edge : Edge) :
    (protocol.measured view edge).phase = protocol.phase := by
  unfold measured
  split <;> rfl

end Protocol

namespace Checker

theorem sound_simultaneousNotes (edge : Edge) : Note.Sound (simultaneousNotes edge) := by
  unfold simultaneousNotes
  split
  · exact Note.sound_cons Note.sound_nil
  · exact Note.sound_nil

variable {β : Type} [LineBus β]

/-- What a phase and the one it forces have done to the checker. -/
structure Arrived (before : Checker β) (view : View) (arrival : Arrival) (after : Checker β) :
    Prop where
  still : Probe.Still before.probe after.probe
  stretch : after.probe.stretch = before.probe.stretch
  protocol : after.protocol = arrival.protocol
  lines : after.probe.lines = (view.driven arrival.drive?).lines
  findings : after.findings = before.findings ++ Note.findings arrival.notes

theorem arrived_enter {before after : Checker β} {sight : Sight} {phase : Phase}
    {forced? : Option Phase} (h : before.enter sight phase = .ok forced? after) :
    Arrived before (before.view sight) (before.protocol.enter (before.view sight) phase) after ∧
      forced? = (before.protocol.enter (before.view sight) phase).forced? := by
  obtain ⟨still, stretch, protocol, forced, lines⟩ := enter_ok h
  refine ⟨⟨still, stretch, protocol, ?_, findings_enter h⟩, forced⟩
  rw [lines]
  cases (before.protocol.enter (before.view sight) phase).drive? <;> rfl

theorem view_of_arrived {before after : Checker β} {sight : Sight} {arrival : Arrival}
    (arrived : Arrived before (before.view sight) arrival after) :
    after.view sight = (before.view sight).driven arrival.drive? := by
  unfold view
  rw [arrived.lines, arrived.still.detector]
  cases arrival.drive? <;> rfl

theorem arrived_follow {before after : Checker β} {sight : Sight} {phase : Phase}
    (h : before.follow sight phase = .ok () after) :
    Arrived before (before.view sight) (before.protocol.follow (before.view sight) phase)
      after := by
  unfold follow at h
  obtain ⟨forced?, middle, entered, h⟩ := Outcome.of_andThen h
  obtain ⟨first, rfl⟩ := arrived_enter entered
  have seen := view_of_arrived first
  unfold Protocol.follow
  dsimp only
  cases forced : (before.protocol.enter (before.view sight) phase).forced? with
  | none =>
    rw [forced] at h
    cases h
    exact first
  | some next =>
    rw [forced] at h
    dsimp only at h ⊢
    obtain ⟨_, last, again, h⟩ := Outcome.of_andThen h
    cases h
    obtain ⟨second, -⟩ := arrived_enter again
    rw [first.protocol, seen] at second
    have quiet := Protocol.drive?_enter
      (before.protocol.enter (before.view sight) phase).protocol
      ((before.view sight).driven (before.protocol.enter (before.view sight) phase).drive?)
      (Protocol.rests_of_forced forced).2
    refine ⟨first.still.trans second.still, second.stretch.trans first.stretch,
      second.protocol, ?_, ?_⟩
    · rw [second.lines, quiet]
      rfl
    · rw [second.findings, first.findings, Note.findings_append, List.append_assoc]

structure Clocking (before : Checker β) (change : Change) (after : Checker β) : Prop where
  still : Probe.Still before.probe after.probe
  stretch : after.probe.stretch =
    if (before.view change.sight).falls change.edge then
      before.probe.stretch.begin change.time
    else before.probe.stretch
  protocol : after.protocol = before.protocol.measured (before.view change.sight) change.edge
  view : after.view change.sight =
    (before.view change.sight).held change.edge before.probe.stretch.isEnabled
  findings : after.findings = before.findings

theorem isEnabled_begin (stretch : ClockStretch) (time : Nat) :
    (stretch.begin time).isEnabled = stretch.isEnabled := by
  unfold ClockStretch.begin
  split <;> rfl

theorem clocking_clockEdge {before after : Checker β} {change : Change}
    (h : before.clockEdge change = .ok () after) : Clocking before change after := by
  have silent := before.silent_clockEdge change
  rw [h] at silent
  have told : after.findings = before.findings := silent.findings
  have falls : (before.view change.sight).falls change.edge =
      decide (change.line = .clock ∧ before.probe.detector.clock.level = false) := by
    unfold View.falls View.clock view Change.line
    cases before.probe.detector.clock.level <;> simp
  unfold clockEdge at h
  split at h
  case isFalse rose =>
    cases h
    rw [decide_eq_false rose] at falls
    refine ⟨.refl _, ?_, ?_, ?_, rfl⟩
    · rw [falls]
      rfl
    · unfold Protocol.measured
      rw [falls]
      rfl
    · unfold View.held
      rw [falls]
      rfl
  case isTrue fell =>
    rw [decide_eq_true fell] at falls
    unfold clockFell at h
    dsimp only at h
    rw [isEnabled_begin] at h
    split at h
    case isFalse off =>
      cases h
      refine ⟨⟨rfl, rfl, fun _ => rfl, rfl, fun _ => rfl⟩, ?_, ?_, ?_, told⟩
      · rw [falls]
        rfl
      · unfold Protocol.measured
        rw [falls]
        rfl
      · unfold View.held
        rw [falls, Bool.not_eq_true _ |>.mp off]
        rfl
    case isTrue on =>
      generalize begun : ({ before with
        protocol := { before.protocol with meter := before.protocol.meter.clockFell change.time }
        probe := { before.probe with stretch := before.probe.stretch.begin change.time } } :
          Checker β) = checker at h
      obtain ⟨_, low, driven, h⟩ := Outcome.of_andThen h
      cases h
      obtain ⟨still, stretch, protocol, lines⟩ := drive_ok driven
      subst begun
      refine ⟨⟨still.work, still.now, still.peer, still.detector, still.id⟩, ?_, ?_, ?_, told⟩
      · rw [falls]
        exact stretch
      · unfold Protocol.measured
        rw [falls]
        exact protocol
      · unfold View.held
        rw [falls, on]
        unfold view
        dsimp only [note, Probe.note]
        rw [lines, still.detector]
        rfl

/-- The part of a reaction that comes before the phase the edge leads to. -/
def judge (checker : Checker β) (change : Change) : Outcome (Checker β) Unit :=
  (checker.report (checker.protocol.edgeNotes (checker.view change.sight) change.edge)).andThen
    fun _ checker => (checker.clockEdge change).andThen
    fun _ checker => checker.report (simultaneousNotes change.edge)

theorem react_eq_judge (checker : Checker β) (change : Change) :
    checker.react change = (checker.judge change).andThen fun _ checker =>
      checker.follow change.sight
        (checker.protocol.successor checker.probe.detector change.line) := by
  unfold react judge
  rw [Outcome.andThen_assoc]
  congr 1
  funext _ judged
  rw [Outcome.andThen_assoc]

structure Judged (before : Checker β) (change : Change) (after : Checker β) : Prop where
  still : Probe.Still before.probe after.probe
  stretch : after.probe.stretch =
    if (before.view change.sight).falls change.edge then
      before.probe.stretch.begin change.time
    else before.probe.stretch
  protocol : after.protocol = before.protocol.measured (before.view change.sight) change.edge
  view : after.view change.sight =
    (before.view change.sight).held change.edge before.probe.stretch.isEnabled
  findings : after.findings = before.findings ++
    Note.findings (before.protocol.edgeNotes (before.view change.sight) change.edge ++
      simultaneousNotes change.edge)

theorem judged {before after : Checker β} {change : Change}
    (h : before.judge change = .ok () after) : Judged before change after := by
  unfold judge at h
  obtain ⟨_, first, judged, h⟩ := Outcome.of_andThen h
  obtain ⟨_, middle, clocked, noted⟩ := Outcome.of_andThen h
  have told := findings_report judged
  have told' := findings_report noted
  have same := report_ok judged
  have same' := report_ok noted
  obtain ⟨still, stretch, protocol, view, quiet⟩ := clocking_clockEdge clocked
  have unmoved : first.view change.sight = before.view change.sight := by rw [same]; rfl
  have kept : first.protocol = before.protocol := by rw [same]
  have stretched : first.probe.stretch = before.probe.stretch := by rw [same]
  have start : Probe.Still before.probe first.probe := by
    rw [same]
    exact ⟨rfl, rfl, fun _ => rfl, rfl, fun _ => rfl⟩
  rw [unmoved, stretched] at stretch view
  rw [unmoved, kept] at protocol
  rw [quiet, told, List.append_assoc, ← Note.findings_append] at told'
  refine ⟨start.trans ?_, ?_, ?_, ?_, told'⟩ <;> rw [same']
  · exact ⟨still.work, still.now, still.peer, still.detector, still.id⟩
  · exact stretch
  · exact protocol
  · exact view

theorem Judged.successor {before after : Checker β} {change : Change}
    (judged : Judged before change after) :
    after.protocol.successor after.probe.detector change.line =
      before.protocol.successor (before.view change.sight).detector change.edge.line := by
  rw [judged.protocol, judged.still.detector, Protocol.successor_measured]
  rfl

structure Answered (before : Checker β) (change : Change) (answer : Arrival) (after : Checker β) :
    Prop where
  still : Probe.Still before.probe after.probe
  stretch : after.probe.stretch =
    if (before.view change.sight).falls change.edge then
      before.probe.stretch.begin change.time
    else before.probe.stretch
  protocol : after.protocol = answer.protocol
  lines : after.probe.lines =
    (((before.view change.sight).held change.edge before.probe.stretch.isEnabled).driven
      answer.drive?).lines
  findings : after.findings = before.findings ++ Note.findings answer.notes

theorem answered {before after : Checker β} {change : Change}
    (h : before.react change = .ok () after) :
    Answered before change (before.protocol.answer before.probe.stretch.isEnabled
      (before.view change.sight) change.edge) after := by
  rw [react_eq_judge] at h
  obtain ⟨_, last, judging, h⟩ := Outcome.of_andThen h
  have judged := judged judging
  have arrived := arrived_follow h
  rw [judged.successor, judged.protocol, judged.view] at arrived
  refine ⟨judged.still.trans arrived.still, arrived.stretch.trans judged.stretch, arrived.protocol,
    arrived.lines, ?_⟩
  rw [arrived.findings, judged.findings, List.append_assoc, ← Note.findings_append]
  rfl

end Checker
end TwoWire
