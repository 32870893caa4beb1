import TwoWire.Proofs.Forward
import TwoWire.Proofs.Sound
import TwoWire.Proofs.Turn
import TwoWire.Proofs.Wired

/-! A run on the simulated bus, turn by turn, as long as its instants stay below `Time.half`. -/

namespace TwoWire

namespace ClockStretch

theorem isPending_begin {stretch : ClockStretch} (enabled : stretch.isEnabled = true) (time : Nat) :
    (stretch.begin time).isPending = true := by
  simp [begin, enabled, isPending]

theorem begin_of_not_enabled {stretch : ClockStretch} (h : stretch.isEnabled = false) (time : Nat) :
    stretch.begin time = stretch := by
  simp [begin, h]

end ClockStretch

namespace Probe

def seen (probe : Probe Simulation) (edge : Edge) : View where
  sight := probe.sight
  lines := probe.lines
  detector := probe.detector.commit probe.lines probe.sight edge.line

variable {probe : Probe Simulation}

theorem pause_of_fail {error : BusError} {bus : Simulation}
    (waited : LineBus.wait probe.bus probe.waitKind = .fail error bus) :
    probe.pause = .fail error (probe.called (.waited probe.waitKind) bus) := by
  have failed : probe.wait probe.waitKind =
      .fail error (probe.called (.waited probe.waitKind) bus) := by
    unfold wait
    rw [waited]
    rfl
  unfold pause
  cases pending : probe.stretch.isPending with
  | false =>
    have kind : probe.waitKind = .change := by simp [waitKind, pending]
    rw [kind] at failed ⊢
    simp [failed]
  | true =>
    have kind : probe.waitKind = .cycle := by simp [waitKind, pending]
    rw [kind] at failed ⊢
    simp [failed]

theorem Woken.pending {before after : Probe Simulation} {bus : Simulation}
    (woken : Woken before bus after) (wired : before.Wired)
    (weak : bus.clock.weak = before.bus.clock.weak)
    (pending : before.stretch.isPending = !before.lines.weakClock) :
    after.stretch.isPending = !after.lines.weakClock := by
  have let_go := woken.let_go
  rw [← woken.wired.weakClock]
  split at let_go
  case isTrue =>
    have free := congrArg Stage.weakClock (bus.stage_hold .clock true)
    rw [let_go.1, let_go.2, show (bus.hold .clock true).clock.weak = true from free]
    rfl
  case isFalse => rw [let_go.1, let_go.2, weak, wired.weakClock, pending]

end Probe

namespace Checker

/-- The run has kept below `Time.half`, with the delay it ended in. -/
structure InTime (last : Checker Simulation) : Prop where
  now : last.now < Time.half
  resumeAt : last.probe.bus.resumeAt < Time.half

structure Underway (checker : Checker Simulation) : Prop where
  wired : checker.probe.Wired
  pending : checker.probe.stretch.isPending = !checker.probe.lines.weakClock
  past : checker.probe.detector.Past checker.now
  inTime : checker.watch.2.InTime
  inRange : checker.watch.1 ≠ .overflow .add

def answerTo (checker : Checker Simulation) (edge : Edge) : Arrival :=
  checker.protocol.answer checker.probe.stretch.isEnabled (checker.probe.seen edge) edge

structure Met (before : Checker Simulation) (edge : Edge) (after : Checker Simulation) : Prop where
  watch : before.watch = after.watch
  underway : after.Underway
  protocol : after.protocol = (before.answerTo edge).protocol
  findings : after.findings = before.findings ++ Note.findings (before.answerTo edge).notes
  detector : after.probe.detector = (before.probe.seen edge).detector
  stretch : after.probe.stretch =
    if (before.probe.seen edge).falls edge then before.probe.stretch.begin before.now
    else before.probe.stretch
  stage : after.probe.bus.stage = before.probe.bus.stage.held
    (before.probe.lines.weakClock &&
      !((before.probe.seen edge).falls edge && before.probe.stretch.isEnabled))
    ((before.answerTo edge).drive?.getD before.probe.lines.weakData)

variable {checker : Checker Simulation}

theorem Underway.now_lt (underway : checker.Underway) : checker.now < Time.half :=
  Nat.lt_of_le_of_lt (checker.now_watch Simulation.forward) underway.inTime.now

theorem lines_answered (view : View) (edge : Edge) (stretches : Bool) (drive? : Option Bool) :
    ((view.held edge stretches).driven drive?).lines.weakClock =
        (view.lines.weakClock && !(view.falls edge && stretches)) ∧
      ((view.held edge stretches).driven drive?).lines.weakData =
        drive?.getD view.lines.weakData := by
  unfold View.held
  cases view.falls edge && stretches <;> cases drive? <;> simp [View.driven, Lines.setWeak]

theorem Underway.meet (underway : checker.Underway) {edge : Edge}
    (seen : checker.probe.detector.edge? checker.probe.lines checker.probe.sight = some edge) :
    ∃ after, Met checker edge after := by
  let committed : Checker Simulation :=
    { checker with probe := checker.probe.commit checker.probe.sight edge }
  have early := underway.now_lt
  have start : Probe.Steered checker.probe committed.probe := underway.wired.steered.congr rfl rfl
  have dated : (checker.probe.seen edge).Dated := ⟨underway.past.commit edge.line, early⟩
  have sound : Note.Sound (committed.protocol.answer committed.probe.stretch.isEnabled
      (committed.view checker.probe.sight) edge).notes := Protocol.sound_answer dated _ _
  obtain ⟨after, react, steered⟩ :=
    @react_of_wired committed start.wired ⟨edge, checker.probe.sight⟩ sound
  have answered := answered react
  have turned : checker.turn = .ok after := by
    unfold turn
    rw [underway.wired.look]
    dsimp only
    rw [seen]
    dsimp only
    rw [show ({ checker with probe := checker.probe.commit checker.probe.sight edge } :
      Checker Simulation) = committed from rfl, react]
    rfl
  have watch := watch_of_turn turned
  obtain ⟨weakClock, weakData⟩ := lines_answered (checker.probe.seen edge) edge
    checker.probe.stretch.isEnabled (checker.answerTo edge).drive?
  have lines : after.probe.lines =
      (((checker.probe.seen edge).held edge checker.probe.stretch.isEnabled).driven
        (checker.answerTo edge).drive?).lines := answered.lines
  rw [← lines] at weakClock weakData
  change after.probe.lines.weakClock = (checker.probe.lines.weakClock && _) at weakClock
  have stretch : after.probe.stretch =
      if (checker.probe.seen edge).falls edge then checker.probe.stretch.begin checker.now
      else checker.probe.stretch := answered.stretch
  refine ⟨after, watch, ⟨steered.wired, ?_, ?_, watch ▸ underway.inTime, watch ▸ underway.inRange⟩,
    answered.protocol, answered.findings, answered.still.detector, stretch, ?_⟩
  · rw [stretch, weakClock]
    cases (checker.probe.seen edge).falls edge with
    | false => simpa using underway.pending
    | true =>
      cases enabled : checker.probe.stretch.isEnabled with
      | false => simpa [ClockStretch.begin_of_not_enabled enabled] using underway.pending
      | true => simp [ClockStretch.isPending_begin enabled]
  · rw [show after.probe.detector = (checker.probe.seen edge).detector from answered.still.detector,
      show after.now = checker.now from answered.still.now]
    exact underway.past.commit edge.line
  · rw [steered.stage, weakClock, weakData]
    rfl

def waited (checker : Checker Simulation) : Outcome Simulation Unit :=
  if checker.probe.stretch.isPending then checker.probe.bus.waitCycle
  else checker.probe.bus.waitChange

theorem wait_eq (checker : Checker Simulation) :
    LineBus.wait checker.probe.bus checker.probe.waitKind =
      Simulation.checkRange checker.waited := by
  unfold waited Probe.waitKind
  cases checker.probe.stretch.isPending <;> rfl

theorem turn_of_unseen (wired : checker.probe.Wired)
    (unseen : checker.probe.detector.edge? checker.probe.lines checker.probe.sight = none) :
    checker.turn =
      (checker.probe.pause.mapState fun probe => ({ checker with probe } : Checker _)).verdict := by
  unfold turn
  rw [wired.look]
  dsimp only
  rw [unseen]

theorem Underway.inRange_waited (underway : checker.Underway)
    (unseen : checker.probe.detector.edge? checker.probe.lines checker.probe.sight = none) :
    checker.waited.state.inRange = true := by
  cases range : checker.waited.state.inRange with
  | true => rfl
  | false =>
    have failed : LineBus.wait checker.probe.bus checker.probe.waitKind =
        .fail (.overflow .add) checker.waited.state := by
      rw [wait_eq]
      simp [Simulation.checkRange, range]
    have turned : checker.turn = .error (.overflow .add,
        { checker with
          probe := checker.probe.called (.waited checker.probe.waitKind) checker.waited.state }) := by
      rw [turn_of_unseen underway.wired unseen, Probe.pause_of_fail failed]
      rfl
    have inTime := underway.inTime
    rw [watch_turn, turned] at inTime
    obtain ⟨now, resumeAt⟩ := inTime
    change checker.waited.state.now < Time.half at now
    change checker.waited.state.resumeAt < Time.half at resumeAt
    have := Time.half_add_half
    unfold Simulation.inRange at range
    rw [decide_eq_true (by omega), decide_eq_true (by omega)] at range
    cases range

/-- A wait that goes through takes the run to the next look at the lines. -/
theorem Underway.wake (underway : checker.Underway)
    (unseen : checker.probe.detector.edge? checker.probe.lines checker.probe.sight = none)
    {bus : Simulation} (waited : checker.waited = .ok () bus)
    (kin : Simulation.Kin checker.probe.bus bus)
    (weak : bus.clock.weak = checker.probe.bus.clock.weak ∧
      bus.data.weak = checker.probe.bus.data.weak) :
    ∃ after : Checker Simulation, checker.watch = after.watch ∧ after.Underway ∧
      Probe.Woken checker.probe bus after.probe ∧ after.protocol = checker.protocol := by
  have range := underway.inRange_waited unseen
  have through : LineBus.wait checker.probe.bus checker.probe.waitKind = .ok () bus := by
    rw [wait_eq, Simulation.checkRange, if_pos range, waited]
  obtain ⟨probe, paused, woken⟩ := underway.wired.pause through kin weak
  have turned : checker.turn = .ok { checker with probe } := by
    rw [turn_of_unseen underway.wired unseen, paused]
    rfl
  have watch := watch_of_turn turned
  have later := checker.probe.now_pause Simulation.forward
  rw [paused] at later
  refine ⟨{ checker with probe }, watch, ⟨woken.wired, woken.pending underway.wired weak.1
    underway.pending, ?_, watch ▸ underway.inTime, watch ▸ underway.inRange⟩, woken, rfl⟩
  rw [show ({ checker with probe } : Checker Simulation).probe.detector = _ from woken.detector]
  exact underway.past.mono later

theorem Underway.ended (underway : checker.Underway)
    (unseen : checker.probe.detector.edge? checker.probe.lines checker.probe.sight = none)
    {error : BusError} {bus : Simulation} (waited : checker.waited = .fail error bus) :
    ∃ last : Checker Simulation, checker.watch = (error, last) ∧ last.probe.bus = bus ∧
      last.protocol = checker.protocol ∧ last.findings = checker.findings := by
  have range := underway.inRange_waited unseen
  have failed : LineBus.wait checker.probe.bus checker.probe.waitKind = .fail error bus := by
    rw [wait_eq, Simulation.checkRange, if_pos range, waited]
  have turned : checker.turn = .error (error,
      { checker with probe := checker.probe.called (.waited checker.probe.waitKind) bus }) := by
    rw [turn_of_unseen underway.wired unseen, Probe.pause_of_fail failed]
    rfl
  refine ⟨{ checker with probe := checker.probe.called (.waited checker.probe.waitKind) bus }, ?_,
    rfl, rfl, ?_⟩
  · rw [watch_turn, turned]
  · exact (checker.probe.silent_called (.waited checker.probe.waitKind) rfl rfl bus).findings

end Checker
end TwoWire
