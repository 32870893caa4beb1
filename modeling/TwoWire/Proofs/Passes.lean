import TwoWire.Proofs.FirstChange
import TwoWire.Proofs.Jittered

/-! The loops of the simulated bus, one pass after the other. Waits come to an end, after a pass for
each delay that is left at most (`comes_to_rest`). -/

namespace TwoWire.Simulation

variable {bus after : Simulation} {steps : List Step} {instant passes time : Nat}
  {before : Bool × Bool} {outcome : Outcome Simulation Unit}

def IsFree (bus : Simulation) : Prop := bus.waiting = true → bus.clock.level = true

/-- A run of the loop that does what is due, with the steps that are done in it. It ends at a clock
that is low and awaited, in a delay or at the end of the program. -/
inductive Executes : Simulation → List Step → Simulation → Prop
  | blocked {bus : Simulation} (waits : bus.waiting = true) (low : bus.clock.level = false) :
      Executes bus [] bus
  | delayed {bus : Simulation} (free : bus.IsFree) (early : bus.now < bus.resumeAt) :
      Executes bus [] { bus with waiting := false }
  | finished {bus : Simulation} (free : bus.IsFree) (late : bus.resumeAt ≤ bus.now)
      (none : bus.program = []) : Executes bus [] { bus with waiting := false }
  | step {bus after : Simulation} {step : Step} {rest steps : List Step} (free : bus.IsFree)
      (late : bus.resumeAt ≤ bus.now) (next : bus.program = step :: rest)
      (onward : Executes ({ bus with waiting := false, program := rest }.execute step) steps after) :
      Executes bus (step :: steps) after

/-- A run of the loop that looks for a change, with the number of times that it lets time go by. -/
inductive Seeks (before : Bool × Bool) : Simulation → Nat → Outcome Simulation Unit → Prop
  | found {bus now : Simulation} {steps : List Step} (due : bus.Executes steps now)
      (differ : now.levels ≠ before) : Seeks before bus 0 (.ok () now)
  | closed {bus now : Simulation} {steps : List Step} (due : bus.Executes steps now)
      (same : now.levels = before) (asleep : now.nextWake? = none) :
      Seeks before bus 0 (.fail .closed now)
  | again {bus now : Simulation} {steps : List Step} {instant passes : Nat}
      {outcome : Outcome Simulation Unit} (due : bus.Executes steps now)
      (same : now.levels = before) (wakes : now.nextWake? = some instant)
      (onward : Seeks before (now.moveTo instant) passes outcome) :
      Seeks before bus (passes + 1) outcome

/-- A run of the loop that waits for a time, with the number of times that the program is woken up. -/
inductive Awaits (time : Nat) : Simulation → Nat → Simulation → Prop
  | last {bus now after : Simulation} {steps rest : List Step} (due : bus.Executes steps now)
      (sleeps : now.SleepsPast time) (due_then : (now.moveTo time).Executes rest after) :
      Awaits time bus 0 after
  | again {bus now after : Simulation} {steps : List Step} {instant passes : Nat}
      (due : bus.Executes steps now) (wakes : now.nextWake? = some instant)
      (early : instant ≤ time) (onward : Awaits time (now.moveTo instant) passes after) :
      Awaits time bus (passes + 1) after

theorem pin_left (bus : Simulation) (left : List Step) (line : Line) :
    { bus with program := left }.pin line = bus.pin line := by
  cases line <;> rfl

theorem update_left (bus : Simulation) (left : List Step) (line : Line) (pin : Pin) :
    { bus with program := left }.update line pin =
      { bus.update line pin with program := left } := by
  unfold update
  rw [pin_left]
  split <;> cases line <;> rfl

theorem execute_left (bus : Simulation) (left : List Step) (step : Step) :
    { bus with program := left }.execute step = { bus.execute step with program := left } := by
  cases step with
  | drive line level =>
    unfold execute
    dsimp only
    rw [pin_left, update_left]
  | delay | waitClockHigh | sampleData | sampleAck => rfl

theorem program_execute (bus : Simulation) (step : Step) :
    (bus.execute step).program = bus.program := by
  have same := congrArg program (bus.execute_left bus.program step)
  exact same

theorem runFrom_left (bus : Simulation) (left program : List Step) :
    { bus with program := left }.runFrom program = bus.runFrom program := by
  induction program generalizing bus with
  | nil => rfl
  | cons step rest ih =>
    have awake : { bus with program := left }.wake = { bus.wake with program := left } := rfl
    have blocked : { bus.wake with program := left }.isBlocked = bus.wake.isBlocked := rfl
    unfold runFrom
    rw [awake, blocked, execute_left, ih]

theorem wake_of_low (waits : bus.waiting = true) (low : bus.clock.level = false) :
    bus.wake = bus := by
  have still : (bus.waiting && !bus.clock.level) = bus.waiting := by rw [waits, low]; rfl
  unfold wake
  rw [still]

theorem wake_of_isFree (free : bus.IsFree) : bus.wake = { bus with waiting := false } := by
  have awake : (bus.waiting && !bus.clock.level) = false := by
    cases waits : bus.waiting with
    | false => rfl
    | true => rw [free waits]; rfl
  unfold wake
  rw [awake]

theorem runDue_wake (bus : Simulation) : bus.wake.runDue = bus.runDue := by
  change bus.wake.runFrom bus.program = bus.runFrom bus.program
  cases bus.program with
  | nil => exact congrArg (fun awake : Simulation => { awake with program := [] }) bus.wake_wake
  | cons step rest =>
    unfold runFrom
    rw [wake_wake]

theorem runDue_of_step {step : Step} {rest : List Step} (free : bus.IsFree)
    (late : bus.resumeAt ≤ bus.now) (next : bus.program = step :: rest) :
    bus.runDue = ({ bus with waiting := false, program := rest }.execute step).runDue := by
  have go : ¬(bus.wake.isBlocked = true) := by simp [wake_of_isFree free, isBlocked, late]
  have left : ({ bus with waiting := false }.execute step).runFrom rest =
      ({ bus with waiting := false, program := rest }.execute step).runFrom rest := by
    rw [← runFrom_left _ rest, ← execute_left]
  unfold runDue
  rw [next, runFrom, if_neg go, wake_of_isFree free, left, program_execute]

namespace Executes

/-- The loop does a first part of the program, in order, and leaves what it always leaves. -/
theorem eq_runDue (executes : bus.Executes steps after) :
    after = bus.runDue ∧ bus.program = steps ++ after.program := by
  induction executes with
  | @blocked bus waits low =>
    have blocked : bus.isBlocked = true := by simp [isBlocked, waits]
    exact ⟨(runDue_of_settled (wake_of_low waits low) (.inr blocked)).symm, rfl⟩
  | @delayed bus free early =>
    have blocked : bus.wake.isBlocked = true := by simp [isBlocked, wake, early]
    have settled := runDue_of_settled bus.wake_wake (.inr blocked)
    rw [runDue_wake, wake_of_isFree free] at settled
    exact ⟨settled.symm, rfl⟩
  | @finished bus free late none =>
    have settled := runDue_of_settled bus.wake_wake (.inl none)
    rw [runDue_wake, wake_of_isFree free] at settled
    exact ⟨settled.symm, rfl⟩
  | @step bus after step rest steps free late next onward ih =>
    obtain ⟨same, split⟩ := ih
    rw [runDue_of_step free late next]
    refine ⟨same, ?_⟩
    rw [next, List.cons_append, ← split, program_execute]

theorem now (executes : bus.Executes steps after) : after.now = bus.now := by
  rw [executes.eq_runDue.1, now_runDue]

theorem rests (executes : bus.Executes steps after) :
    after.program = [] ∨ after.now < after.resumeAt ∨
      after.waiting = true ∧ after.clock.level = false := by
  induction executes with
  | blocked waits low => exact .inr (.inr ⟨waits, low⟩)
  | delayed free early => exact .inr (.inl early)
  | finished free late none => exact .inl none
  | step free late next onward ih => exact ih

end Executes

theorem halts_or_goes_on (bus : Simulation) :
    bus.Executes [] bus.runDue ∨ bus.IsFree ∧ bus.resumeAt ≤ bus.now ∧ bus.program ≠ [] := by
  have halts {after : Simulation} (executes : bus.Executes [] after) :
      bus.Executes [] bus.runDue := executes.eq_runDue.1 ▸ executes
  by_cases free : bus.IsFree
  case neg =>
    obtain ⟨waits, low⟩ := Classical.not_imp.mp free
    exact .inl (halts (.blocked waits (Bool.eq_false_of_not_eq_true low)))
  case pos =>
    by_cases early : bus.now < bus.resumeAt
    case pos => exact .inl (halts (.delayed free early))
    case neg =>
      have late := Nat.le_of_not_lt early
      by_cases none : bus.program = []
      case pos => exact .inl (halts (.finished free late none))
      case neg => exact .inr ⟨free, late, none⟩

/-- Each pass of the loop takes a step off the program, so there is a last one. -/
theorem exists_executes (bus : Simulation) : ∃ steps, bus.Executes steps bus.runDue := by
  generalize left : bus.program = program
  induction program generalizing bus with
  | nil =>
    rcases bus.halts_or_goes_on with halts | ⟨-, -, more⟩
    · exact ⟨[], halts⟩
    · exact absurd left more
  | cons step rest ih =>
    rcases bus.halts_or_goes_on with halts | ⟨free, late, -⟩
    · exact ⟨[], halts⟩
    · have shorter := program_execute { bus with waiting := false, program := rest } step
      obtain ⟨steps, onward⟩ := ih _ shorter
      rw [← runDue_of_step free late left] at onward
      exact ⟨step :: steps, .step free late left onward⟩

def delaysLeft (bus : Simulation) : Nat :=
  bus.program.countP Step.isDelay + if bus.now < bus.resumeAt then 1 else 0

theorem resumeAt_execute {step : Step} (prompt : step.isDelay = false) :
    (bus.execute step).resumeAt = bus.resumeAt := by
  have same := congrArg Stage.resumeAt (bus.stage_execute step)
  cases step with
  | drive line level => cases line <;> exact same
  | delay => cases prompt
  | waitClockHigh | sampleData | sampleAck => rfl

theorem delaysLeft_execute (bus : Simulation) (late : bus.resumeAt ≤ bus.now) (step : Step) :
    (bus.execute step).delaysLeft ≤ (step :: bus.program).countP Step.isDelay := by
  unfold delaysLeft
  rw [program_execute, now_execute, List.countP_cons]
  cases delays : step.isDelay with
  | true =>
    rw [if_pos rfl]
    split <;> omega
  | false => rw [resumeAt_execute delays, if_neg (Nat.not_lt.mpr late), if_neg nofun]

theorem Executes.delaysLeft_le (executes : bus.Executes steps after) :
    after.delaysLeft ≤ bus.delaysLeft := by
  induction executes with
  | blocked => exact Nat.le_refl _
  | delayed => exact Nat.le_refl _
  | finished => exact Nat.le_refl _
  | @step bus after step rest steps free late next onward ih =>
    have begun := delaysLeft_execute { bus with waiting := false, program := rest } late step
    refine ih.trans (begun.trans ?_)
    unfold delaysLeft
    rw [next]
    exact Nat.le_add_right ..

theorem Executes.of_wakes (executes : bus.Executes steps after)
    (wakes : after.nextWake? = some instant) :
    bus.now < instant ∧ (after.moveTo instant).delaysLeft < bus.delaysLeft := by
  have fewer := executes.delaysLeft_le
  have now := executes.now
  obtain ⟨rfl, -⟩ := executes.eq_runDue
  obtain ⟨early, rfl⟩ := lt_of_nextWake?_runDue wakes
  refine ⟨now ▸ early, Nat.lt_of_lt_of_le ?_ fewer⟩
  have passed : ¬max bus.runDue.now bus.runDue.resumeAt < bus.runDue.resumeAt := by omega
  unfold delaysLeft moveTo
  dsimp only
  rw [if_pos early, if_neg passed]
  exact Nat.lt_succ_self _

theorem Seeks.ends (seeks : Seeks before bus passes outcome) :
    outcome = bus.seekChange before ∧ passes ≤ bus.delaysLeft ∧
      bus.now + passes ≤ outcome.state.now := by
  induction seeks with
  | found due differ =>
    have now := due.now
    obtain ⟨rfl, -⟩ := due.eq_runDue
    refine ⟨?_, Nat.zero_le _, Nat.le_of_eq now.symm⟩
    rw [seekChange, if_pos differ]
  | closed due same asleep =>
    have now := due.now
    obtain ⟨rfl, -⟩ := due.eq_runDue
    exact ⟨(seekChange_of_asleep same asleep).symm, Nat.zero_le _, Nat.le_of_eq now.symm⟩
  | again due same wakes onward ih =>
    obtain ⟨later, fewer⟩ := due.of_wakes wakes
    obtain ⟨rfl, -⟩ := due.eq_runDue
    obtain ⟨end_same, bounded, past⟩ := ih
    rw [now_moveTo] at past
    refine ⟨?_, by omega, by omega⟩
    rw [seekChange_of_woken same wakes]
    exact end_same

theorem exists_seeks (before : Bool × Bool) (bus : Simulation) :
    ∃ passes, Seeks before bus passes (bus.seekChange before) := by
  fun_induction seekChange before bus with
  | case1 bus differ =>
    obtain ⟨steps, due⟩ := bus.exists_executes
    exact ⟨0, .found due differ⟩
  | case2 bus same asleep =>
    obtain ⟨steps, due⟩ := bus.exists_executes
    exact ⟨0, .closed due (Classical.not_not.mp same) asleep⟩
  | case3 bus same instant wakes ih =>
    obtain ⟨steps, due⟩ := bus.exists_executes
    obtain ⟨passes, onward⟩ := ih
    exact ⟨passes + 1, .again due (Classical.not_not.mp same) wakes onward⟩

theorem runDue_of_sleeps (sleeps : bus.runDue.SleepsPast time) :
    (bus.runDue.moveTo time).runDue = bus.waitUntil time := by
  rw [waitUntil_of_sleeps sleeps, (runDue_moveTo bus.runDue_runDue sleeps).1]

theorem Awaits.ends (awaits : Awaits time bus passes after) :
    after = bus.waitUntil time ∧ passes ≤ bus.delaysLeft ∧ bus.now + passes ≤ after.now := by
  induction awaits with
  | @last bus now after steps rest due sleeps due_last =>
    obtain ⟨rfl, -⟩ := due.eq_runDue
    obtain ⟨rfl, -⟩ := due_last.eq_runDue
    rw [runDue_of_sleeps sleeps]
    exact ⟨rfl, Nat.zero_le _, bus.now_waitUntil time⟩
  | again due wakes early onward ih =>
    obtain ⟨later, fewer⟩ := due.of_wakes wakes
    obtain ⟨rfl, -⟩ := due.eq_runDue
    obtain ⟨end_same, bounded, past⟩ := ih
    rw [now_moveTo] at past
    refine ⟨?_, by omega, by omega⟩
    rw [waitUntil_of_woken wakes early]
    exact end_same

theorem exists_awaits (bus : Simulation) (time : Nat) :
    ∃ passes, Awaits time bus passes (bus.waitUntil time) := by
  induction bus using woken_induct time with
  | sleeps bus asleep =>
    obtain ⟨steps, due⟩ := bus.exists_executes
    obtain ⟨rest, last⟩ := (bus.runDue.moveTo time).exists_executes
    rw [runDue_of_sleeps asleep] at last
    exact ⟨0, .last due asleep last⟩
  | woken bus instant wakes early ih =>
    obtain ⟨steps, due⟩ := bus.exists_executes
    obtain ⟨passes, onward⟩ := ih
    rw [← waitUntil_of_woken wakes early] at onward
    exact ⟨passes + 1, .again due wakes early onward⟩

/-- What is due gets done, and the waits of a bus come to an end. -/
structure ComesToRest (bus : Simulation) : Prop where
  /-- The loop that does what is due ends. -/
  ends : ∃ steps, bus.Executes steps bus.runDue
  /-- It ends in one way, with a first part of the program done in order. -/
  ordered : ∀ steps after, bus.Executes steps after →
    after = bus.runDue ∧ bus.program = steps ++ after.program
  rests : bus.runDue.program = [] ∨ bus.runDue.now < bus.runDue.resumeAt ∨
    bus.runDue.waiting = true ∧ bus.runDue.clock.level = false
  ahead : ∀ instant, bus.runDue.nextWake? = some instant → bus.runDue.now < instant
  again : bus.runDue.runDue = bus.runDue
  /-- The loop of a wait for a change ends, and the wait with it. -/
  change : (∃ passes outcome, Seeks bus.levels bus passes outcome) ∧
    ∀ passes outcome, Seeks bus.levels bus passes outcome →
      LineBus.wait bus .change = checkRange outcome ∧
        passes ≤ bus.delaysLeft ∧ bus.now + passes ≤ outcome.state.now
  /-- The loop of a wait for a time ends, and the wait with it, at that time if it is still to come. -/
  instant : ∀ time, (∃ passes after, Awaits time bus passes after) ∧
    ∀ passes after, Awaits time bus passes after →
      LineBus.wait bus (.instant time) = checkRange (.ok () after) ∧
        after.now = max bus.now time ∧ passes ≤ bus.delaysLeft ∧ bus.now + passes ≤ after.now

/-- In any state and with any program, what is due gets done in finitely many steps and leaves nothing
due. The program then sleeps, or is woken up later, so every wait comes to an end after a pass for each
delay at most. -/
theorem comes_to_rest (bus : Simulation) : bus.ComesToRest := by
  obtain ⟨steps, due⟩ := bus.exists_executes
  refine ⟨⟨steps, due⟩, fun _ _ => Executes.eq_runDue, due.rests, fun instant wakes => ?_,
    bus.runDue_runDue, ⟨?_, fun passes outcome seeks => ?_⟩, fun time =>
    ⟨?_, fun passes after awaits => ?_⟩⟩
  · rw [now_runDue]
    exact (due.of_wakes wakes).1
  · obtain ⟨passes, seeks⟩ := bus.exists_seeks bus.levels
    exact ⟨passes, _, seeks⟩
  · obtain ⟨rfl, bounded, later⟩ := seeks.ends
    exact ⟨rfl, bounded, later⟩
  · obtain ⟨passes, awaits⟩ := bus.exists_awaits time
    exact ⟨passes, _, awaits⟩
  · obtain ⟨rfl, bounded, later⟩ := awaits.ends
    exact ⟨rfl, (bus.settled_waitUntil time).2.2, bounded, later⟩

/-- A delay of no time, two waits for the clock on end, a line that is driven either way, and a clock
that is held low when it is awaited. Two delays are left, and a wait for a later time is woken up in
between. -/
theorem comes_to_rest_at_held_clock :
    let program := [.delay 0, .waitClockHigh, .waitClockHigh, .drive .data (some true),
      .drive .data (some false), .delay 50, .drive .clock (some false), .waitClockHigh, .sampleData]
    ∃ bus : Simulation, Simulation.ofProgram 0 1 program = .ok bus ∧ bus.ComesToRest ∧
      bus.runDue.nextWake? = some 50 ∧ (bus.waitUntil 50).program = [.sampleData] ∧
      ∀ passes after, Awaits 100 bus passes after → after.now = 100 ∧ passes ≤ 2 := by
  intro program
  have seen : (Simulation.ofProgram 0 1 program).toOption.map (fun bus =>
      (bus.now, bus.delaysLeft, bus.runDue.nextWake?, (bus.waitUntil 50).program)) =
        some (0, 2, some 50, [.sampleData]) := by decide +kernel
  obtain ⟨bus, made, shown⟩ := Option.map_eq_some_iff.mp seen
  simp only [Prod.mk.injEq] at shown
  obtain ⟨now, delays, wakes, left⟩ := shown
  have rest := bus.comes_to_rest
  refine ⟨bus, eq_ok_of_toOption made, rest, wakes, left, ?_⟩
  intro passes after awaits
  obtain ⟨-, at_end, bounded, -⟩ := (rest.instant 100).2 passes after awaits
  rw [now] at at_end
  exact ⟨at_end, delays ▸ bounded⟩

end TwoWire.Simulation
