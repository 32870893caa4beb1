import TwoWire.Proofs.Underway

/-! Time going by on the simulated bus while no edge is to be seen, in one go or, while a stretch is
pending, cycle by cycle. -/

namespace TwoWire

namespace Stage

def letGo (stage : Stage) (free : Bool) : Stage :=
  { stage with weakClock := stage.weakClock || free }

@[simp] theorem letGo_false (stage : Stage) : stage.letGo false = stage := by
  simp [letGo]

theorem weak_run (stage : Stage) (program : List Step) :
    (stage.run program).weakClock = stage.weakClock ∧
      (stage.run program).weakData = stage.weakData := by
  induction program generalizing stage with
  | nil => exact ⟨rfl, rfl⟩
  | cons step rest ih =>
    unfold run
    split
    · exact ⟨rfl, rfl⟩
    · refine ⟨(ih _).1.trans ?_, (ih _).2.trans ?_⟩
      · cases step with
        | drive line level => cases line <;> rfl
        | delay | waitClockHigh | sampleData | sampleAck => rfl
      · cases step with
        | drive line level => cases line <;> rfl
        | delay | waitClockHigh | sampleData | sampleAck => rfl

end Stage

namespace Checker

structure Passed (before after : Checker Simulation) : Prop where
  watch : before.watch = after.watch
  underway : after.Underway
  protocol : after.protocol = before.protocol
  detector : after.probe.detector = before.probe.detector
  findings : after.findings = before.findings

theorem Passed.trans {a b c : Checker Simulation} (first : Passed a b) (second : Passed b c) :
    Passed a c where
  watch := first.watch.trans second.watch
  underway := second.underway
  protocol := second.protocol.trans first.protocol
  detector := second.detector.trans first.detector
  findings := second.findings.trans first.findings

/-- The committed levels are those of the stage that the program has come to. -/
structure Quiet (checker : Checker Simulation) (stage : Stage) : Prop where
  due : checker.probe.bus.runDue.stage = stage
  levels : stage.levels = checker.probe.bus.levels
  clock : checker.probe.detector.clock.level = stage.clock
  data : checker.probe.detector.data.level = stage.data

variable {checker : Checker Simulation} {stage : Stage}

theorem edge?_of_levels (wired : checker.probe.Wired) :
    checker.probe.detector.edge? checker.probe.lines checker.probe.sight =
      if checker.probe.bus.stage.clock != checker.probe.detector.clock.level then
        some (if checker.probe.bus.stage.data != checker.probe.detector.data.level then
          .simultaneous else .clock)
      else if checker.probe.bus.stage.data != checker.probe.detector.data.level then some .data
      else none := by
  obtain ⟨clock, data⟩ := Probe.level_sight wired
  unfold EdgeDetector.edge?
  rw [clock, data]

theorem Quiet.unseen (quiet : checker.Quiet stage) (underway : checker.Underway) :
    checker.probe.detector.edge? checker.probe.lines checker.probe.sight = none := by
  have levels := quiet.levels
  rw [← Simulation.levels_stage] at levels
  obtain ⟨clock, data⟩ := Prod.mk.inj levels
  rw [edge?_of_levels underway.wired, quiet.clock, quiet.data, clock, data]
  simp

theorem Quiet.weakClock (quiet : checker.Quiet stage) (underway : checker.Underway) :
    stage.weakClock = checker.probe.lines.weakClock := by
  rw [← quiet.due, Simulation.stage_runDue]
  exact (checker.probe.bus.stage.weak_run _).1.trans underway.wired.weakClock

theorem Quiet.wake (quiet : checker.Quiet stage) (underway : checker.Underway) {bus : Simulation}
    (waited : checker.waited = .ok () bus) (kin : Simulation.Kin checker.probe.bus bus)
    (weak : bus.stage.weakClock = stage.weakClock ∧ bus.stage.weakData = stage.weakData) :
    ∃ after, Passed checker after ∧
      after.probe.bus.stage = bus.stage.letGo (checker.probe.stretch.isDue bus.now) ∧
      (checker.probe.stretch.isDue bus.now = false →
        after.probe.stretch = checker.probe.stretch) := by
  have same := checker.probe.bus.stage.weak_run checker.probe.bus.stage.program
  rw [← quiet.due, Simulation.stage_runDue] at weak
  obtain ⟨after, watch, underway', woken, protocol⟩ :=
    underway.wake (quiet.unseen underway) waited kin
      ⟨weak.1.trans same.1, weak.2.trans same.2⟩
  refine ⟨after, ⟨watch, underway', protocol, woken.detector, woken.findings⟩, ?_, ?_⟩
  · have let_go := woken.let_go
    split at let_go
    case isTrue due =>
      rw [let_go.2, due, Simulation.stage_hold]
      simp [Stage.letGo]
    case isFalse early =>
      rw [let_go.2]
      simp [Stage.letGo, early]
  · intro early
    have let_go := woken.let_go
    rw [early] at let_go
    exact let_go.1

theorem Quiet.pending (quiet : checker.Quiet stage) (underway : checker.Underway) :
    checker.probe.stretch.isPending = !stage.weakClock := by
  rw [underway.pending, quiet.weakClock underway]

theorem Quiet.waited (quiet : checker.Quiet stage) (underway : checker.Underway) :
    checker.waited = if stage.weakClock then checker.probe.bus.waitChange
      else checker.probe.bus.waitCycle := by
  unfold Checker.waited
  rw [quiet.pending underway]
  cases stage.weakClock <;> rfl

theorem Quiet.wake_free (quiet : checker.Quiet stage) (underway : checker.Underway)
    (free : stage.weakClock = true) {bus : Simulation}
    (waited : checker.probe.bus.waitChange = .ok () bus)
    (kin : Simulation.Kin checker.probe.bus bus)
    (weak : bus.stage.weakClock = stage.weakClock ∧ bus.stage.weakData = stage.weakData) :
    ∃ after, Passed checker after ∧ after.probe.bus.stage = bus.stage := by
  have pending : checker.probe.stretch.isPending = false := by
    rw [quiet.pending underway, free]
    rfl
  have through : checker.waited = .ok () bus := by
    rw [quiet.waited underway, if_pos free, waited]
  obtain ⟨after, passed, stage', -⟩ := quiet.wake underway through kin weak
  refine ⟨after, passed, ?_⟩
  rw [stage', ClockStretch.isDue_of_not_pending pending, Stage.letGo_false]

theorem Quiet.advance (quiet : checker.Quiet stage) (underway : checker.Underway)
    (free : stage.weakClock = true) (paused : stage.Paused)
    (change : stage.resumed.levels ≠ stage.levels) :
    ∃ after, Passed checker after ∧ after.probe.bus.stage = stage.resumed := by
  obtain ⟨bus, waited, same, kin⟩ :=
    Simulation.waitChange_of_change quiet.due quiet.levels paused change
  rw [← same]
  refine quiet.wake_free underway free waited kin ?_
  rw [same]
  exact (stage.moveTo stage.resumeAt).weak_run _

theorem Quiet.advance_twice (quiet : checker.Quiet stage) (underway : checker.Underway)
    (free : stage.weakClock = true) (paused : stage.Paused)
    (silent : stage.resumed.levels = stage.levels) (paused' : stage.resumed.Paused)
    (change : stage.resumed.resumed.levels ≠ stage.levels) :
    ∃ after, Passed checker after ∧ after.probe.bus.stage = stage.resumed.resumed := by
  obtain ⟨bus, waited, same, kin⟩ :=
    Simulation.waitChange_of_second quiet.due quiet.levels paused silent paused' change
  have weak := (stage.moveTo stage.resumeAt).weak_run stage.program
  have weak' := (stage.resumed.moveTo stage.resumed.resumeAt).weak_run stage.resumed.program
  rw [← same]
  refine quiet.wake_free underway free waited kin ?_
  rw [same]
  exact ⟨weak'.1.trans weak.1, weak'.2.trans weak.2⟩

theorem Quiet.close (quiet : checker.Quiet stage) (underway : checker.Underway)
    (free : stage.weakClock = true) (paused : stage.Paused)
    (silent : stage.resumed.levels = stage.levels) (running : stage.resumed.waiting = false)
    (late : stage.resumed.resumeAt ≤ stage.resumed.now) (done : stage.resumed.program = []) :
    ∃ last : Checker Simulation, checker.watch = (.closed, last) ∧
      last.probe.bus.stage = stage.resumed ∧ last.protocol = checker.protocol ∧
      last.findings = checker.findings := by
  obtain ⟨bus, waited, same, -⟩ :=
    Simulation.waitChange_of_closed quiet.due quiet.levels paused silent running late done
  have through : checker.waited = .fail .closed bus := by
    rw [quiet.waited underway, if_pos free, waited]
  obtain ⟨last, watch, bus', protocol, findings⟩ :=
    underway.ended (quiet.unseen underway) through
  exact ⟨last, watch, bus' ▸ same, protocol, findings⟩

theorem quiet_of_stage (stage' : checker.probe.bus.stage = stage) (settled : stage.due = stage)
    (clock : checker.probe.detector.clock.level = stage.clock)
    (data : checker.probe.detector.data.level = stage.data) : checker.Quiet stage where
  due := by rw [Simulation.stage_runDue, stage', settled]
  levels := by rw [← stage', Simulation.levels_stage]
  clock := clock
  data := data

theorem Quiet.carry (quiet : checker.Quiet stage) {after : Checker Simulation}
    (passed : Passed checker after) {time : Nat}
    (moved : after.probe.bus.stage = stage.moveTo time)
    (settled : (stage.moveTo time).due = stage.moveTo time) : after.Quiet (stage.moveTo time) := by
  apply quiet_of_stage moved settled
  · rw [passed.detector]
    exact quiet.clock
  · rw [passed.detector]
    exact quiet.data

theorem Quiet.now (quiet : checker.Quiet stage) : stage.now = checker.now := by
  rw [← quiet.due]
  exact Simulation.now_runDue _

/-- The cycle that is waited for while the clock is held has an end, or the run would end here. -/
theorem Quiet.range (quiet : checker.Quiet stage) (underway : checker.Underway)
    (held : stage.weakClock = false) : stage.now + checker.probe.bus.cycle < Time.limit := by
  refine Decidable.byContradiction fun beyond => ?_
  have levels : checker.probe.bus.runDue.levels = checker.probe.bus.levels := by
    rw [← Simulation.levels_stage, quiet.due, quiet.levels]
  have now : checker.probe.bus.runDue.now = stage.now := congrArg Stage.now quiet.due
  have cycle : checker.probe.bus.runDue.cycle = checker.probe.bus.cycle :=
    (Simulation.kin_runDue _).cycle
  have through : checker.waited = .fail (.overflow .add) checker.probe.bus.runDue := by
    rw [quiet.waited underway, held, if_neg Bool.false_ne_true]
    unfold Simulation.waitCycle
    dsimp only
    rw [if_neg (fun change => change levels), now, cycle, if_neg beyond]
  obtain ⟨last, watch, -⟩ := underway.ended (quiet.unseen underway) through
  exact underway.inRange (congrArg Prod.fst watch)

/-- While a stretch is pending a run comes to the end of the delay, at which the clock may be let
go, or the clock is let go before. -/
theorem Quiet.cycles (quiet : checker.Quiet stage) (underway : checker.Underway)
    (held : stage.weakClock = false) (low : stage.clockPeer = some false)
    (paused : stage.Paused) :
    ∃ after, Passed checker after ∧
      ((∃ free, after.probe.bus.stage = stage.resumed.letGo free) ∨
        ∃ time, stage.now < time ∧ time < stage.resumeAt ∧
          after.probe.bus.stage = (stage.moveTo time).letGo true) := by
  -- Every cycle that ends before the delay takes some of what is left of it.
  generalize left : stage.resumeAt - stage.now = n
  induction n using Nat.strongRecOn generalizing checker stage with
  | ind n ih =>
    have early := paused.early
    have range := quiet.range underway held
    have cycle_pos := checker.probe.bus.cycle_pos
    obtain ⟨bus, waited, kin, same⟩ :=
      Simulation.waitCycle_of_paused quiet.due quiet.levels paused range
    have through : checker.waited = .ok () bus := by
      rw [quiet.waited underway, held]
      exact waited
    obtain ⟨after, passed, stage', -⟩ := quiet.wake underway through kin
      (by rw [same]; exact (stage.moveTo _).weak_run _)
    by_cases ends : stage.resumeAt ≤ stage.now + checker.probe.bus.cycle
    · refine ⟨after, passed, .inl ⟨checker.probe.stretch.isDue bus.now, ?_⟩⟩
      rw [stage', same, Nat.min_eq_right ends]
      rfl
    · have paused' : (stage.moveTo (stage.now + checker.probe.bus.cycle)).Paused :=
        ⟨paused.running, by unfold Stage.moveTo; simp; omega⟩
      rw [Nat.min_eq_left (by omega), Stage.due_of_paused paused'] at same
      rw [same] at stage'
      cases due : checker.probe.stretch.isDue bus.now with
      | true =>
        rw [due] at stage'
        exact ⟨after, passed,
          .inr ⟨stage.now + checker.probe.bus.cycle, by omega, by omega, stage'⟩⟩
      | false =>
        rw [due] at stage'
        have quiet' := quiet.carry passed (by rw [stage', Stage.letGo_false])
          (Stage.due_of_paused paused')
        obtain ⟨last, passed', reached⟩ := ih
          (stage.resumeAt - (stage.now + checker.probe.bus.cycle)) (by omega) quiet'
          passed.underway held low paused' rfl
        refine ⟨last, passed.trans passed', ?_⟩
        rcases reached with ⟨free, ended⟩ | ⟨time, later, before, ended⟩
        · exact .inl ⟨free, ended⟩
        · refine .inr ⟨time, ?_, before, ended⟩
          have : stage.now + checker.probe.bus.cycle < time := later
          omega

theorem Quiet.hold_out (quiet : checker.Quiet stage) (underway : checker.Underway)
    (held : stage.weakClock = false) (blocked : stage.Blocked) :
    ∃ after, Passed checker after ∧ ∃ time, stage.now < time ∧
      after.probe.bus.stage = (stage.moveTo time).letGo true := by
  -- The program does nothing here; it is the stretch that runs out.
  generalize left : checker.probe.stretch.remaining checker.now = n
  induction n using Nat.strongRecOn generalizing checker stage with
  | ind n ih =>
    have range := quiet.range underway held
    have cycle_pos := checker.probe.bus.cycle_pos
    obtain ⟨bus, waited, kin, same⟩ :=
      Simulation.waitCycle_of_blocked quiet.due quiet.levels blocked range
    have pending : checker.probe.stretch.isPending = true := by
      rw [quiet.pending underway, held]
      rfl
    have through : checker.waited = .ok () bus := by
      rw [quiet.waited underway, held]
      exact waited
    obtain ⟨after, passed, stage', kept⟩ := quiet.wake underway through kin
      (by rw [same]; exact ⟨rfl, rfl⟩)
    have later : bus.now = stage.now + checker.probe.bus.cycle := congrArg Stage.now same
    rw [same] at stage'
    cases due : checker.probe.stretch.isDue bus.now with
    | true =>
      rw [due] at stage'
      exact ⟨after, passed, stage.now + checker.probe.bus.cycle, by omega, stage'⟩
    | false =>
      rw [due] at stage'
      have stretch := kept due
      have blocked' : (stage.moveTo (stage.now + checker.probe.bus.cycle)).Blocked :=
        ⟨blocked.waiting, blocked.low⟩
      have moved : after.probe.bus.stage =
          stage.moveTo (stage.now + checker.probe.bus.cycle) := by
        rw [stage', Stage.letGo_false]
      have quiet' := quiet.carry passed moved (Stage.due_of_blocked blocked')
      have now : after.now = bus.now := by
        rw [later]
        exact congrArg Stage.now moved
      have shorter : after.probe.stretch.remaining after.now < n := by
        rw [← left, stretch, now]
        apply ClockStretch.remaining_lt pending due
        have := quiet.now
        omega
      obtain ⟨last, passed', time, past, ended⟩ :=
        ih _ shorter quiet' passed.underway held blocked' rfl
      refine ⟨last, passed.trans passed', time, ?_, ended⟩
      have : stage.now + checker.probe.bus.cycle < time := past
      omega

end Checker
end TwoWire
