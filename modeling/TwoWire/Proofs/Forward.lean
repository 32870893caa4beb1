import TwoWire.Bus.Simulation
import TwoWire.Checker.Run

/-! Time never goes back, so the last instant of a run bounds every instant of it (`now_watch`). -/

namespace TwoWire

/-- Waiting never takes the bus back in time, also when it fails. -/
def LineBus.Forward (β : Type) [LineBus β] : Prop :=
  ∀ (bus : β) (kind : WaitKind), LineBus.now bus ≤ LineBus.now (LineBus.wait bus kind).state

namespace Probe

variable {β : Type} [LineBus β]

theorem now_drive (probe : Probe β) (line : Line) (level : Bool) :
    (probe.drive line level).state.now = probe.now :=
  (probe.still_drive line level).now

theorem now_wait (forward : LineBus.Forward β) (probe : Probe β) (kind : WaitKind) :
    probe.now ≤ (probe.wait kind).state.now := by
  unfold wait
  rw [Outcome.state_mapState]
  exact forward probe.bus kind

theorem now_releaseWhenDue (probe : Probe β) : probe.releaseWhenDue.state.now = probe.now := by
  unfold releaseWhenDue
  split
  case isFalse => rfl
  case isTrue =>
    have driven := probe.now_drive .clock true
    cases h : probe.drive .clock true <;> rw [h] at driven <;> exact driven

theorem now_pause (forward : LineBus.Forward β) (probe : Probe β) :
    probe.now ≤ probe.pause.state.now := by
  unfold pause
  dsimp only
  have refreshed : ∀ {outcome : Outcome (Probe β) Unit}, probe.now ≤ outcome.state.now →
      probe.now ≤ (outcome.andThen fun _ probe => probe.refresh).state.now := by
    intro outcome later
    cases outcome with
    | fail error woken => exact later
    | ok _ woken => exact Nat.le_trans later (Nat.le_of_eq woken.refreshed_refresh.still.now.symm)
  apply refreshed
  split
  case isFalse => exact probe.now_wait forward .change
  case isTrue =>
    have waited := probe.now_wait forward .cycle
    cases h : probe.wait .cycle with
    | fail error woken =>
      rw [h] at waited
      exact waited
    | ok _ woken =>
      rw [h] at waited
      exact Nat.le_trans waited (Nat.le_of_eq woken.now_releaseWhenDue.symm)

theorem now_awaitChange (forward : LineBus.Forward β) (probe : Probe β) :
    probe.now ≤ probe.awaitChange.state.now := by
  fun_induction awaitChange probe with
  | case1 => exact Nat.le_refl _
  | case2 => exact Nat.le_refl _
  | case3 probe sight look unseen error woken paused =>
    have later := probe.now_pause forward
    rw [paused] at later
    exact later
  | case4 probe sight look unseen _ woken paused ih =>
    have later := probe.now_pause forward
    rw [paused] at later
    exact Nat.le_trans later ih

end Probe

namespace Checker

variable {β : Type} [LineBus β]

theorem now_report (checker : Checker β) (notes : List Note) :
    (checker.report notes).state.now = checker.now := by
  induction notes generalizing checker with
  | nil => rfl
  | cons note rest ih =>
    cases note with
    | overflow => rfl
    | found finding =>
      exact ih (checker.note (.recorded ⟨checker.now, checker.protocol.phase, finding⟩))

theorem now_drive (checker : Checker β) (line : Line) (level : Bool) :
    (checker.drive line level).state.now = checker.now := by
  unfold drive
  rw [Outcome.state_mapState]
  exact checker.probe.now_drive line level

theorem now_driveData (checker : Checker β) (drive? : Option Bool) :
    (checker.driveData drive?).state.now = checker.now := by
  cases drive? with
  | none => rfl
  | some level => exact checker.now_drive .data level

theorem now_andThen {outcome : Outcome (Checker β) α} {next : α → Checker β → Outcome (Checker β) γ}
    {time : Nat} (first : outcome.state.now = time)
    (second : ∀ value checker, checker.now = time → (next value checker).state.now = time) :
    (outcome.andThen next).state.now = time := by
  cases outcome with
  | fail error checker => exact first
  | ok value checker => exact second value checker first

theorem now_enter (checker : Checker β) (sight : Sight) (phase : Phase) :
    (checker.enter sight phase).state.now = checker.now := by
  unfold enter
  apply now_andThen (now_report _ _)
  intro _ told same
  apply now_andThen ((told.now_driveData _).trans same)
  intro _ driven same
  exact same

theorem now_follow (checker : Checker β) (sight : Sight) (phase : Phase) :
    (checker.follow sight phase).state.now = checker.now := by
  unfold follow
  apply now_andThen (checker.now_enter sight phase)
  intro forced? middle same
  cases forced? with
  | none => exact same
  | some forced =>
    apply now_andThen ((middle.now_enter sight forced).trans same)
    intro _ last same
    exact same

theorem now_clockEdge (checker : Checker β) (change : Change) :
    (checker.clockEdge change).state.now = checker.now := by
  unfold clockEdge
  split
  case isFalse => rfl
  case isTrue =>
    unfold clockFell
    dsimp only
    split
    case isFalse => rfl
    case isTrue =>
      apply now_andThen (now_drive _ .clock false)
      intro _ low same
      exact same

theorem now_react (checker : Checker β) (change : Change) :
    (checker.react change).state.now = checker.now := by
  unfold react
  apply now_andThen (now_report _ _)
  intro _ judged same
  apply now_andThen ((judged.now_clockEdge change).trans same)
  intro _ clocked same
  apply now_andThen ((clocked.now_report _).trans same)
  intro _ told same
  exact (told.now_follow _ _).trans same

theorem now_step (forward : LineBus.Forward β) (checker : Checker β) :
    checker.now ≤ checker.step.state.now := by
  unfold step await
  have awaited := checker.probe.now_awaitChange forward
  cases h : checker.probe.awaitChange with
  | fail error probe =>
    rw [h] at awaited
    exact awaited
  | ok change probe =>
    rw [h] at awaited
    exact Nat.le_trans awaited
      (Nat.le_of_eq (now_react { checker with probe } change).symm)

theorem now_watch (forward : LineBus.Forward β) (checker : Checker β) :
    checker.now ≤ checker.watch.2.now := by
  fun_induction watch checker with
  | case1 checker error stopped failed =>
    have later := checker.now_step forward
    rw [failed] at later
    exact later
  | case2 checker _ next stepped ih =>
    have later := checker.now_step forward
    rw [stepped] at later
    exact Nat.le_trans later ih

end Checker

namespace Simulation

theorem now_execute (bus : Simulation) (step : Step) : (bus.execute step).now = bus.now := by
  cases step with
  | drive line level => exact update_now ..
  | delay | waitClockHigh | sampleData | sampleAck => rfl

@[simp] theorem now_runFrom (bus : Simulation) (program : List Step) :
    (bus.runFrom program).now = bus.now := by
  induction program generalizing bus with
  | nil => rfl
  | cons step rest ih =>
    unfold runFrom
    split
    · rfl
    · exact (ih _).trans (now_execute _ step)

@[simp] theorem now_runDue (bus : Simulation) : bus.runDue.now = bus.now := now_runFrom ..

@[simp] theorem now_moveTo (bus : Simulation) (time : Nat) :
    (bus.moveTo time).now = max bus.now time := rfl

theorem now_seekChange (before : Bool × Bool) (bus : Simulation) :
    bus.now ≤ (bus.seekChange before).state.now := by
  fun_induction seekChange before bus with
  | case1 bus differ => simp
  | case2 bus equal closed => simp
  | case3 bus equal time wake ih =>
    simp only [now_moveTo, now_runDue] at ih
    omega

theorem now_waitUntil (bus : Simulation) (time : Nat) : bus.now ≤ (bus.waitUntil time).now := by
  fun_induction waitUntil bus time with
  | case1 bus closed =>
    simp only [now_runDue, now_moveTo]
    omega
  | case2 bus wake woken due ih =>
    simp only [now_moveTo, now_runDue] at ih
    omega
  | case3 bus wake woken late =>
    simp only [now_runDue, now_moveTo]
    omega

theorem now_waitCycle (bus : Simulation) : bus.now ≤ bus.waitCycle.state.now := by
  unfold waitCycle
  dsimp only
  split
  · simp
  · split
    · simp only [Outcome.state_ok, now_runDue, now_moveTo]
      omega
    · simp

@[simp] theorem state_checkRange (outcome : Outcome Simulation Unit) :
    (checkRange outcome).state = outcome.state := by
  unfold checkRange
  split <;> simp

theorem forward : LineBus.Forward Simulation := by
  intro bus kind
  change bus.now ≤ (bus.wait kind).state.now
  cases kind with
  | change => simpa [wait, waitChange] using now_seekChange bus.levels bus
  | cycle => simpa [wait] using now_waitCycle bus
  | instant time => simpa [wait] using now_waitUntil bus time

end Simulation
end TwoWire
