import TwoWire.Bus.Basic
import TwoWire.Controller.Program

/-! A simulated bus with a controller that runs a program. Time goes straight to the next instant of
the program, and all that is due at an instant is done before it moves on. -/

namespace TwoWire

structure Simulation where
  now : Nat := 0
  cycle : Nat := defaultCycle
  cycle_pos : 0 < cycle := by exact defaultCycle_pos
  clock : Pin
  data : Pin
  program : List Step
  /-- The end of the delay the program is in, or of the last one. -/
  resumeAt : Nat := 0
  waiting : Bool := false
  /-- Bits of bytes being read, newest first. -/
  readBits : List Bool := []
  /-- Sampled acknowledges, newest first. -/
  ackBits : List Bool := []
  transitions : Array Transition := #[]

structure LineConflict where
  id : LineId

def LineConflict.message (conflict : LineConflict) : String :=
  s!"Clock and data both use {conflict.id.text}"

namespace Simulation

def ofProgram (clock data : LineId) (program : List Step) : Except LineConflict Simulation :=
  if clock = data then .error ⟨clock⟩
  else .ok { clock := { id := clock }, data := { id := data }, program }

def withCycle (bus : Simulation) (cycle : Nat) : Simulation :=
  { bus with cycle := max cycle 1, cycle_pos := max_one_pos cycle }

def pin (bus : Simulation) : Line → Pin
  | .clock => bus.clock
  | .data => bus.data

def line? (bus : Simulation) (id : LineId) : Option Line :=
  if id = bus.clock.id then some .clock
  else if id = bus.data.id then some .data
  else none

def pin? (bus : Simulation) (id : LineId) : Option Pin := (bus.line? id).map bus.pin

def levels (bus : Simulation) : Bool × Bool := (bus.clock.level, bus.data.level)

def setPin (bus : Simulation) (line : Line) (pin : Pin) : Simulation :=
  match line with
  | .clock => { bus with clock := pin }
  | .data => { bus with data := pin }

/-- Give a line new drives, and record it if the level changes with them. -/
def update (bus : Simulation) (line : Line) (pin : Pin) : Simulation :=
  if pin.level = (bus.pin line).level then bus.setPin line pin
  else { bus.setPin line pin with
    transitions := bus.transitions.push ⟨bus.now, line, pin.level⟩ }

def execute (bus : Simulation) : Step → Simulation
  | .drive line level => bus.update line { bus.pin line with peer := level }
  | .delay duration => { bus with resumeAt := bus.now + duration }
  | .waitClockHigh => { bus with waiting := true }
  | .sampleData => { bus with readBits := bus.data.level :: bus.readBits }
  | .sampleAck => { bus with ackBits := (!bus.data.level) :: bus.ackBits }

/-- A program that waits for the clock goes on once it is high. -/
def wake (bus : Simulation) : Simulation :=
  { bus with waiting := bus.waiting && !bus.clock.level }

def isBlocked (bus : Simulation) : Bool := bus.waiting || decide (bus.now < bus.resumeAt)

def runFrom (bus : Simulation) : List Step → Simulation
  | [] => { bus.wake with program := [] }
  | step :: rest =>
    if bus.wake.isBlocked then { bus.wake with program := step :: rest }
    else (bus.wake.execute step).runFrom rest

def runDue (bus : Simulation) : Simulation := bus.runFrom bus.program

def nextWake? (bus : Simulation) : Option Nat :=
  if bus.waiting then none
  else if bus.now < bus.resumeAt then some bus.resumeAt
  else if bus.program.isEmpty then none
  else some bus.now

def moveTo (bus : Simulation) (time : Nat) : Simulation := { bus with now := max bus.now time }

/-- What the program has left to do: its steps, and the delay it is in. -/
def work (bus : Simulation) : Nat :=
  2 * bus.program.length + if bus.now < bus.resumeAt then 1 else 0

theorem work_le (bus : Simulation) : bus.work ≤ 2 * bus.program.length + 1 := by
  unfold work; split <;> omega

theorem work_moveTo_le (bus : Simulation) (time : Nat) : (bus.moveTo time).work ≤ bus.work := by
  unfold work moveTo
  dsimp only
  split <;> split <;> omega

theorem runFrom_cases (bus : Simulation) (program : List Step) :
    (bus.runFrom program).program.length < program.length ∨
      bus.runFrom program = { bus.wake with program } := by
  induction program generalizing bus with
  | nil => exact .inr rfl
  | cons step rest ih =>
    unfold runFrom
    split
    case isTrue => exact .inr rfl
    case isFalse =>
      refine .inl ?_
      rcases ih (bus.wake.execute step) with shorter | same
      · exact Nat.lt_succ_of_lt shorter
      · rw [same]
        exact Nat.lt_succ_self _

theorem runDue_cases (bus : Simulation) :
    bus.runDue.program.length < bus.program.length ∨ bus.runDue = bus.wake :=
  bus.runFrom_cases bus.program

theorem work_lt_of_length_lt {bus after : Simulation}
    (h : after.program.length < bus.program.length) : after.work < bus.work := by
  have := after.work_le
  unfold work at this ⊢
  omega

theorem work_wake (bus : Simulation) : bus.wake.work = bus.work := rfl

theorem work_runDue_le (bus : Simulation) : bus.runDue.work ≤ bus.work := by
  rcases bus.runDue_cases with shorter | same
  · exact Nat.le_of_lt (work_lt_of_length_lt shorter)
  · exact Nat.le_of_eq (same ▸ bus.work_wake)

theorem work_runDue_lt {bus : Simulation} (h : bus.runDue.levels ≠ bus.levels) :
    bus.runDue.work < bus.work := by
  rcases bus.runDue_cases with shorter | same
  · exact work_lt_of_length_lt shorter
  · exact absurd (congrArg levels same) h

theorem runFrom_settled (bus : Simulation) (program : List Step) :
    (bus.runFrom program).program = [] ∨ (bus.runFrom program).isBlocked = true := by
  induction program generalizing bus with
  | nil => exact .inl rfl
  | cons step rest ih =>
    unfold runFrom
    split
    case isTrue blocked => exact .inr blocked
    case isFalse => exact ih _

theorem lt_of_nextWake?_runDue {bus : Simulation} {time : Nat}
    (h : bus.runDue.nextWake? = some time) :
    bus.runDue.now < bus.runDue.resumeAt ∧ time = bus.runDue.resumeAt := by
  have settled := bus.runFrom_settled bus.program
  change bus.runDue.program = [] ∨ bus.runDue.isBlocked = true at settled
  unfold nextWake? at h
  split at h
  case isTrue => cases h
  case isFalse running =>
    split at h
    case isTrue early => exact ⟨early, (Option.some.inj h).symm⟩
    case isFalse late =>
      split at h
      case isTrue => cases h
      case isFalse more =>
        rcases settled with done | blocked
        · simp [done] at more
        · simp [isBlocked, running, late] at blocked

theorem work_moveTo_lt {bus : Simulation} {time : Nat} (h : bus.runDue.nextWake? = some time) :
    (bus.runDue.moveTo time).work < bus.work := by
  obtain ⟨early, rfl⟩ := lt_of_nextWake?_runDue h
  refine Nat.lt_of_lt_of_le ?_ bus.work_runDue_le
  unfold work moveTo
  dsimp only
  rw [if_neg (by omega), if_pos early]
  omega

/-- Let the program go on until the levels differ from `before`. -/
def seekChange (before : Bool × Bool) (bus : Simulation) : Outcome Simulation Unit :=
  if bus.runDue.levels ≠ before then .ok () bus.runDue
  else
    match _ : bus.runDue.nextWake? with
    | none => .fail .closed bus.runDue
    | some time => seekChange before (bus.runDue.moveTo time)
termination_by bus.work
decreasing_by exact work_moveTo_lt ‹_›

def waitChange (bus : Simulation) : Outcome Simulation Unit := bus.seekChange bus.levels

/-- To the end of the cycle or to the next instant of the program, unless something due now changes
a level. -/
def waitCycle (bus : Simulation) : Outcome Simulation Unit :=
  let after := bus.runDue
  if after.levels ≠ bus.levels then .ok () after
  else
    let stop := after.now + after.cycle
    if stop < Time.limit then
      .ok () (after.moveTo ((after.nextWake?.map (min stop)).getD stop)).runDue
    else .fail (.overflow .add) after

def waitUntil (bus : Simulation) (time : Nat) : Simulation :=
  match _ : bus.runDue.nextWake? with
  | none => (bus.runDue.moveTo time).runDue
  | some wake =>
    if wake ≤ time then (bus.runDue.moveTo wake).waitUntil time
    else (bus.runDue.moveTo time).runDue
termination_by bus.work
decreasing_by exact work_moveTo_lt ‹_›

/-- A delay that ends beyond the range of time is found out at the end of the wait. -/
def inRange (bus : Simulation) : Bool :=
  decide (bus.now < Time.limit) && decide (bus.resumeAt < Time.limit)

def checkRange (outcome : Outcome Simulation Unit) : Outcome Simulation Unit :=
  if outcome.state.inRange then outcome else .fail (.overflow .add) outcome.state

def wait (bus : Simulation) : WaitKind → Outcome Simulation Unit
  | .change => checkRange bus.waitChange
  | .cycle => checkRange bus.waitCycle
  | .instant time => checkRange (.ok () (bus.waitUntil time))

def drive (bus : Simulation) (id : LineId) (level : Bool) : Outcome Simulation Unit :=
  match bus.line? id with
  | none => .fail (.unknownLine id) bus
  | some line => .ok () (bus.update line { bus.pin line with weak := level })

/-- The program has come to its end and its last delay is over. -/
def isFinished (bus : Simulation) : Bool :=
  bus.program.isEmpty && !bus.waiting && decide (bus.resumeAt ≤ bus.now)

def edges (bus : Simulation) (line : Line) (level : Bool) : List Nat :=
  (bus.transitions.toList.filter fun move => move.line = line && move.level = level).map (·.time)

def byteOfBits (bits : List Bool) : UInt8 :=
  bits.foldl (fun byte bit => byte <<< 1 ||| bit.toUInt8) 0

/-- Eight bits to the byte, most significant first; an unfinished byte is left out. -/
def bytesOfBits : List Bool → List UInt8
  | a :: b :: c :: d :: e :: f :: g :: h :: rest =>
    byteOfBits [a, b, c, d, e, f, g, h] :: bytesOfBits rest
  | _ => []

def bytesRead (bus : Simulation) : List UInt8 := bytesOfBits bus.readBits.reverse

def acks (bus : Simulation) : List Bool := bus.ackBits.reverse

theorem ok_of_checkRange {outcome : Outcome Simulation Unit} {after : Simulation}
    (h : checkRange outcome = .ok () after) : outcome = .ok () after := by
  unfold checkRange at h
  split at h
  · exact h
  · cases h

theorem work_seekChange_lt {bus after : Simulation} {before : Bool × Bool}
    (same : bus.levels = before) (h : bus.seekChange before = .ok () after) :
    after.work < bus.work := by
  fun_induction seekChange before bus with
  | case1 bus differ =>
    cases h
    exact work_runDue_lt (same ▸ differ)
  | case2 => cases h
  | case3 bus equal time wake ih =>
    exact Nat.lt_trans (ih (Classical.not_not.mp equal) h) (work_moveTo_lt wake)

theorem work_waitCycle {bus after : Simulation} (h : bus.waitCycle = .ok () after) :
    after.work < bus.work ∨ after.work ≤ bus.work ∧ bus.now < after.now ∧
      ∀ id, (after.pin? id).map Pin.peer = (bus.pin? id).map Pin.peer := by
  unfold waitCycle at h
  dsimp only at h
  split at h
  case isTrue differ =>
    cases h
    exact .inl (work_runDue_lt differ)
  case isFalse =>
    split at h
    case isFalse => cases h
    case isTrue =>
      generalize target : (bus.runDue.nextWake?.map
        (min (bus.runDue.now + bus.runDue.cycle))).getD (bus.runDue.now + bus.runDue.cycle) =
          time at h
      have later : bus.runDue.now < time := by
        have cycle_pos := bus.runDue.cycle_pos
        cases wake : bus.runDue.nextWake? with
        | none =>
          rw [wake] at target
          simp only [Option.map_none, Option.getD_none] at target
          omega
        | some instant =>
          obtain ⟨early, rfl⟩ := lt_of_nextWake?_runDue wake
          rw [wake] at target
          simp only [Option.map_some, Option.getD_some] at target
          omega
      cases h
      have second := (bus.runDue.moveTo time).work_runDue_le
      have moved := bus.runDue.work_moveTo_le time
      rcases bus.runDue_cases with shorter | same
      · have := work_lt_of_length_lt shorter
        exact .inl (by omega)
      · rcases (bus.runDue.moveTo time).runDue_cases with shorter' | same'
        · have := work_lt_of_length_lt shorter'
          have := bus.work_runDue_le
          exact .inl (by omega)
        · refine .inr ⟨?_, ?_, ?_⟩
          · have := bus.work_runDue_le
            omega
          · rw [same']
            rw [same] at later ⊢
            change bus.now < time at later
            change bus.now < max bus.now time
            omega
          · intro id
            rw [same', same]
            rfl

theorem setPin_now (bus : Simulation) (line : Line) (pin : Pin) :
    (bus.setPin line pin).now = bus.now := by
  cases line <;> rfl

theorem update_now (bus : Simulation) (line : Line) (pin : Pin) :
    (bus.update line pin).now = bus.now := by
  unfold update
  split <;> exact setPin_now bus line pin

theorem update_work (bus : Simulation) (line : Line) (pin : Pin) :
    (bus.update line pin).work = bus.work := by
  unfold update
  split <;> cases line <;> rfl

theorem line?_update_weak (bus : Simulation) (line : Line) (level : Bool) (id : LineId) :
    (bus.update line { bus.pin line with weak := level }).line? id = bus.line? id := by
  unfold update
  split <;> cases line <;> rfl

theorem peer_update_weak (bus : Simulation) (line : Line) (level : Bool) (other : Line) :
    ((bus.update line { bus.pin line with weak := level }).pin other).peer =
      (bus.pin other).peer := by
  unfold update
  split <;> cases line <;> cases other <;> rfl

theorem pin?_update_weak_peer (bus : Simulation) (line : Line) (level : Bool) (id : LineId) :
    ((bus.update line { bus.pin line with weak := level }).pin? id).map Pin.peer =
      (bus.pin? id).map Pin.peer := by
  unfold pin?
  rw [line?_update_weak]
  cases bus.line? id with
  | none => rfl
  | some other => exact congrArg some (peer_update_weak bus line level other)

theorem drive_now (bus : Simulation) (id : LineId) (level : Bool) :
    (bus.drive id level).state.now = bus.now := by
  unfold drive
  split
  · rfl
  · exact update_now ..

theorem drive_work (bus : Simulation) (id : LineId) (level : Bool) :
    (bus.drive id level).state.work = bus.work := by
  unfold drive
  split
  · rfl
  · exact update_work ..

theorem drive_peer (bus : Simulation) (id : LineId) (level : Bool) (other : LineId) :
    ((bus.drive id level).state.pin? other).map Pin.peer = (bus.pin? other).map Pin.peer := by
  unfold drive
  split
  · rfl
  · exact pin?_update_weak_peer ..

instance : LineBus Simulation where
  now := Simulation.now
  pin? := Simulation.pin?
  drive := Simulation.drive
  wait := Simulation.wait
  moves := Simulation.transitions
  work := Simulation.work
  drive_now := Simulation.drive_now
  drive_peer := Simulation.drive_peer
  drive_work := Simulation.drive_work
  wait_change_work h := work_seekChange_lt rfl (ok_of_checkRange h)
  wait_cycle_work h := work_waitCycle (ok_of_checkRange h)

end Simulation
end TwoWire
