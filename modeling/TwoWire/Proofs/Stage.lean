import TwoWire.Bus.Simulation

/-! The simulated bus without its history. A stage is what decides how a scenario goes on; running a
program on the bus is running it on the stage (`stage_runFrom`). -/

namespace TwoWire

structure Stage where
  now : Nat
  resumeAt : Nat
  waiting : Bool
  clockPeer : Option Bool
  dataPeer : Option Bool
  weakClock : Bool
  weakData : Bool
  program : List Step
  readBits : List Bool
  ackBits : List Bool

namespace Stage

def clock (stage : Stage) : Bool := stage.clockPeer.getD stage.weakClock

def data (stage : Stage) : Bool := stage.dataPeer.getD stage.weakData

def levels (stage : Stage) : Bool × Bool := (stage.clock, stage.data)

def execute (stage : Stage) : Step → Stage
  | .drive .clock level => { stage with clockPeer := level }
  | .drive .data level => { stage with dataPeer := level }
  | .delay duration => { stage with resumeAt := stage.now + duration }
  | .waitClockHigh => { stage with waiting := true }
  | .sampleData => { stage with readBits := stage.data :: stage.readBits }
  | .sampleAck => { stage with ackBits := (!stage.data) :: stage.ackBits }

def wake (stage : Stage) : Stage := { stage with waiting := stage.waiting && !stage.clock }

def isBlocked (stage : Stage) : Bool := stage.waiting || decide (stage.now < stage.resumeAt)

def run (stage : Stage) : List Step → Stage
  | [] => { stage.wake with program := [] }
  | step :: rest =>
    if stage.wake.isBlocked then { stage.wake with program := step :: rest }
    else (stage.wake.execute step).run rest

def due (stage : Stage) : Stage := stage.run stage.program

def moveTo (stage : Stage) (time : Nat) : Stage := { stage with now := time }

structure Paused (stage : Stage) : Prop where
  running : stage.waiting = false
  early : stage.now < stage.resumeAt

structure Blocked (stage : Stage) : Prop where
  waiting : stage.waiting = true
  low : stage.clock = false

/-- The end of the delay, with all that is due then. -/
def resumed (stage : Stage) : Stage := (stage.moveTo stage.resumeAt).due

variable {stage : Stage}

theorem run_of_paused (paused : stage.Paused) (program : List Step) :
    stage.run program = { stage with program } := by
  obtain ⟨running, early⟩ := paused
  have awake : stage.wake = stage := by
    cases stage
    simp_all [wake]
  cases program with
  | nil => rw [run, awake]
  | cons step rest => rw [run, awake, if_pos (by simp [isBlocked, early])]

theorem run_of_blocked (blocked : stage.Blocked) (program : List Step) :
    stage.run program = { stage with program } := by
  obtain ⟨waiting, low⟩ := blocked
  have awake : stage.wake = stage := by
    cases stage
    simp_all [wake]
  cases program with
  | nil => rw [run, awake]
  | cons step rest => rw [run, awake, if_pos (by simp [isBlocked, waiting])]

theorem due_of_paused (paused : stage.Paused) : stage.due = stage := run_of_paused paused _

theorem due_of_blocked (blocked : stage.Blocked) : stage.due = stage := run_of_blocked blocked _

theorem run_of_ready (running : stage.waiting = false) (late : stage.resumeAt ≤ stage.now)
    (step : Step) (rest : List Step) :
    stage.run (step :: rest) = (stage.execute step).run rest := by
  have awake : stage.wake = stage := by
    cases stage
    simp_all [wake]
  rw [run, awake, if_neg (by simp [isBlocked, running, late])]

theorem run_of_high (high : stage.clock = true) (program : List Step) :
    stage.run program = { stage with waiting := false }.run program := by
  have awake : stage.wake = ({ stage with waiting := false } : Stage).wake := by
    simp [wake, high]
  cases program with
  | nil => rw [run, run, awake]
  | cons step rest => rw [run, run, awake]

def Samples (sample : List Step) : Prop := ∀ step ∈ sample, step = .sampleData ∨ step = .sampleAck

theorem run_of_samples {sample : List Step} (samples : Samples sample)
    (running : stage.waiting = false) (late : stage.resumeAt ≤ stage.now) {duration : Nat}
    (positive : 0 < duration) (rest : List Step) :
    stage.run (sample ++ .delay duration :: rest) =
      { sample.foldl execute stage with resumeAt := stage.now + duration, program := rest } := by
  induction sample generalizing stage with
  | nil =>
    rw [List.nil_append, run_of_ready running late, run_of_paused]
    · rfl
    · exact ⟨running, by unfold execute; simp; omega⟩
  | cons step sample ih =>
    have others : Samples sample := fun other mem => samples other (List.mem_cons_of_mem _ mem)
    rw [List.cons_append, run_of_ready running late, List.foldl_cons]
    rcases samples step List.mem_cons_self with rfl | rfl
    · exact ih others running late
    · exact ih others running late

end Stage

namespace Simulation

def stage (bus : Simulation) : Stage where
  now := bus.now
  resumeAt := bus.resumeAt
  waiting := bus.waiting
  clockPeer := bus.clock.peer
  dataPeer := bus.data.peer
  weakClock := bus.clock.weak
  weakData := bus.data.weak
  program := bus.program
  readBits := bus.readBits
  ackBits := bus.ackBits

theorem levels_stage (bus : Simulation) : bus.stage.levels = bus.levels := rfl

@[simp] theorem stage_wake (bus : Simulation) : bus.wake.stage = bus.stage.wake := rfl

theorem stage_update (bus : Simulation) (line : Line) (pin : Pin) :
    (bus.update line pin).stage = (bus.setPin line pin).stage := by
  unfold update
  split <;> rfl

theorem stage_execute (bus : Simulation) (step : Step) :
    (bus.execute step).stage = bus.stage.execute step := by
  cases step with
  | drive line level =>
    refine (stage_update ..).trans ?_
    cases line <;> rfl
  | delay | waitClockHigh | sampleData | sampleAck => rfl

theorem stage_runFrom (bus : Simulation) (program : List Step) :
    (bus.runFrom program).stage = bus.stage.run program := by
  induction program generalizing bus with
  | nil => rfl
  | cons step rest ih =>
    unfold runFrom Stage.run
    have blocked : bus.stage.wake.isBlocked = bus.wake.isBlocked := rfl
    rw [blocked]
    split
    case isTrue => rfl
    case isFalse => rw [ih, stage_execute, stage_wake]

theorem stage_runDue (bus : Simulation) : bus.runDue.stage = bus.stage.due :=
  bus.stage_runFrom bus.program

/-- What no step of a program and no wait changes. -/
structure Kin (before after : Simulation) : Prop where
  clock : after.clock.id = before.clock.id
  data : after.data.id = before.data.id
  cycle : after.cycle = before.cycle

theorem Kin.refl (bus : Simulation) : Kin bus bus := ⟨rfl, rfl, rfl⟩

theorem Kin.trans {a b c : Simulation} (first : Kin a b) (second : Kin b c) : Kin a c where
  clock := second.clock.trans first.clock
  data := second.data.trans first.data
  cycle := second.cycle.trans first.cycle

theorem kin_update (bus : Simulation) (line : Line) {pin : Pin}
    (same : pin.id = (bus.pin line).id) :
    Kin bus (bus.update line pin) := by
  unfold update
  split <;> cases line <;> exact ⟨by first | exact same | rfl, by first | exact same | rfl, rfl⟩

theorem kin_wake (bus : Simulation) : Kin bus bus.wake := ⟨rfl, rfl, rfl⟩

theorem kin_moveTo (bus : Simulation) (time : Nat) : Kin bus (bus.moveTo time) := ⟨rfl, rfl, rfl⟩

theorem kin_execute (bus : Simulation) (step : Step) : Kin bus (bus.execute step) := by
  cases step with
  | drive line level => exact kin_update bus line rfl
  | delay | waitClockHigh | sampleData | sampleAck => exact ⟨rfl, rfl, rfl⟩

theorem kin_runFrom (bus : Simulation) (program : List Step) : Kin bus (bus.runFrom program) := by
  induction program generalizing bus with
  | nil => exact ⟨rfl, rfl, rfl⟩
  | cons step rest ih =>
    unfold runFrom
    split
    · exact ⟨rfl, rfl, rfl⟩
    · exact (kin_wake bus).trans ((kin_execute bus.wake step).trans (ih _))

theorem kin_runDue (bus : Simulation) : Kin bus bus.runDue := kin_runFrom ..

theorem kin_resumed (bus : Simulation) (time : Nat) : Kin bus (bus.runDue.moveTo time).runDue :=
  bus.kin_runDue.trans ((kin_moveTo bus.runDue time).trans (kin_runDue (bus.runDue.moveTo time)))

theorem nextWake?_of_paused {bus : Simulation} (paused : bus.stage.Paused) :
    bus.nextWake? = some bus.resumeAt := by
  obtain ⟨running, early⟩ := paused
  change bus.waiting = false at running
  change bus.now < bus.resumeAt at early
  simp [nextWake?, running, early]

theorem nextWake?_of_blocked {bus : Simulation} (blocked : bus.stage.Blocked) :
    bus.nextWake? = none := by
  have waiting : bus.waiting = true := blocked.waiting
  simp [nextWake?, waiting]

theorem stage_moveTo {bus : Simulation} {time : Nat} (later : bus.now ≤ time) :
    (bus.moveTo time).stage = bus.stage.moveTo time := by
  unfold moveTo stage Stage.moveTo
  simp [Nat.max_eq_right later]

theorem stage_resumed {bus : Simulation} {stage : Stage} (due : bus.runDue.stage = stage)
    (paused : stage.Paused) :
    (bus.runDue.moveTo stage.resumeAt).runDue.stage = stage.resumed := by
  have early := paused.early
  rw [← due] at early
  rw [stage_runDue, stage_moveTo (Nat.le_of_lt (due ▸ early)), due]
  rfl

variable {bus : Simulation} {before : Bool × Bool} {stage : Stage}

theorem seekChange_of_woken {instant : Nat} (same : bus.runDue.levels = before)
    (woken : bus.runDue.nextWake? = some instant) :
    bus.seekChange before = (bus.runDue.moveTo instant).seekChange before := by
  rw [seekChange, if_neg (by simp [same])]
  split
  case h_1 asleep => cases woken.symm.trans asleep
  case h_2 other wakes =>
    cases woken.symm.trans wakes
    rfl

theorem seekChange_of_asleep (same : bus.runDue.levels = before)
    (asleep : bus.runDue.nextWake? = none) :
    bus.seekChange before = .fail .closed bus.runDue := by
  rw [seekChange, if_neg (by simp [same])]
  split
  case h_1 => rfl
  case h_2 other wakes => cases asleep.symm.trans wakes

theorem seekChange_of_paused (due : bus.runDue.stage = stage) (same : stage.levels = before)
    (paused : stage.Paused) :
    bus.seekChange before = (bus.runDue.moveTo stage.resumeAt).seekChange before := by
  have woken : bus.runDue.nextWake? = some stage.resumeAt := by
    rw [← due] at paused ⊢
    exact nextWake?_of_paused paused
  rw [← due, levels_stage] at same
  exact seekChange_of_woken same woken

theorem seekChange_of_change (change : bus.runDue.stage.levels ≠ before) :
    bus.seekChange before = .ok () bus.runDue := by
  rw [levels_stage] at change
  rw [seekChange, if_pos change]

theorem seekChange_of_closed (due : bus.runDue.stage = stage) (same : stage.levels = before)
    (running : stage.waiting = false) (late : stage.resumeAt ≤ stage.now)
    (done : stage.program = []) : bus.seekChange before = .fail .closed bus.runDue := by
  have asleep : bus.runDue.nextWake? = none := by
    subst due
    change bus.runDue.waiting = false at running
    change bus.runDue.resumeAt ≤ bus.runDue.now at late
    change bus.runDue.program = [] at done
    simp only [nextWake?, running, done]
    simp
    omega
  rw [← due, levels_stage] at same
  exact seekChange_of_asleep same asleep

theorem waitChange_of_change (due : bus.runDue.stage = stage) (same : stage.levels = bus.levels)
    (paused : stage.Paused) (change : stage.resumed.levels ≠ stage.levels) :
    ∃ after, bus.waitChange = .ok () after ∧ after.stage = stage.resumed ∧ Kin bus after := by
  have ended := stage_resumed due paused
  refine ⟨_, ?_, ended, kin_resumed bus stage.resumeAt⟩
  rw [waitChange, seekChange_of_paused due same paused, seekChange_of_change]
  rw [ended, ← same]
  exact change

/-- A wait goes on over a delay at whose end no level changes. -/
theorem waitChange_of_second (due : bus.runDue.stage = stage) (same : stage.levels = bus.levels)
    (paused : stage.Paused) (silent : stage.resumed.levels = stage.levels)
    (paused' : stage.resumed.Paused) (change : stage.resumed.resumed.levels ≠ stage.levels) :
    ∃ after, bus.waitChange = .ok () after ∧ after.stage = stage.resumed.resumed ∧
      Kin bus after := by
  have ended := stage_resumed due paused
  have ended' := stage_resumed ended paused'
  refine ⟨_, ?_, ended', ?_⟩
  case refine_2 =>
    exact (kin_resumed bus stage.resumeAt).trans ((kin_moveTo _ stage.resumed.resumeAt).trans
      (kin_runDue ((bus.runDue.moveTo stage.resumeAt).runDue.moveTo stage.resumed.resumeAt)))
  rw [waitChange, seekChange_of_paused due same paused,
    seekChange_of_paused ended (silent.trans same) paused', seekChange_of_change]
  rw [ended', ← same]
  exact change

theorem waitChange_of_closed (due : bus.runDue.stage = stage) (same : stage.levels = bus.levels)
    (paused : stage.Paused) (silent : stage.resumed.levels = stage.levels)
    (running : stage.resumed.waiting = false)
    (late : stage.resumed.resumeAt ≤ stage.resumed.now) (done : stage.resumed.program = []) :
    ∃ after,
      bus.waitChange = .fail .closed after ∧ after.stage = stage.resumed ∧ Kin bus after := by
  have ended := stage_resumed due paused
  refine ⟨_, ?_, ended, kin_resumed bus stage.resumeAt⟩
  rw [waitChange, seekChange_of_paused due same paused,
    seekChange_of_closed ended (silent.trans same) running late done]

theorem waitCycle_of_paused (due : bus.runDue.stage = stage) (same : stage.levels = bus.levels)
    (paused : stage.Paused) (range : stage.now + bus.cycle < Time.limit) :
    ∃ after, bus.waitCycle = .ok () after ∧ Kin bus after ∧
      after.stage = (stage.moveTo (min (stage.now + bus.cycle) stage.resumeAt)).due := by
  have kin := kin_runDue bus
  have now : bus.runDue.now = stage.now := by rw [← due]; rfl
  have wake : bus.runDue.nextWake? = some stage.resumeAt := by
    rw [← due] at paused ⊢
    exact nextWake?_of_paused paused
  have early := paused.early
  refine ⟨(bus.runDue.moveTo (min (stage.now + bus.cycle) stage.resumeAt)).runDue, ?_,
    kin_resumed .., ?_⟩
  · unfold waitCycle
    dsimp only
    rw [if_neg (by rw [← levels_stage, due, same]; simp), kin.cycle, now, if_pos range, wake]
    rfl
  · rw [stage_runDue, stage_moveTo (by omega), due]

theorem waitCycle_of_blocked (due : bus.runDue.stage = stage) (same : stage.levels = bus.levels)
    (blocked : stage.Blocked) (range : stage.now + bus.cycle < Time.limit) :
    ∃ after, bus.waitCycle = .ok () after ∧ Kin bus after ∧
      after.stage = stage.moveTo (stage.now + bus.cycle) := by
  have kin := kin_runDue bus
  have now : bus.runDue.now = stage.now := by rw [← due]; rfl
  have wake : bus.runDue.nextWake? = none := by
    rw [← due] at blocked
    exact nextWake?_of_blocked blocked
  refine ⟨(bus.runDue.moveTo (stage.now + bus.cycle)).runDue, ?_, kin_resumed .., ?_⟩
  · unfold waitCycle
    dsimp only
    rw [if_neg (by rw [← levels_stage, due, same]; simp), kin.cycle, now, if_pos range, wake]
    rfl
  · rw [stage_runDue, stage_moveTo (by omega), due]
    exact Stage.due_of_blocked ⟨blocked.waiting, blocked.low⟩

end Simulation
end TwoWire
