import TwoWire.Bus.Basic

/-! A bus that replays a recorded trace: the entries in the order of the trace, each no earlier than
it was recorded. -/

namespace TwoWire

structure PeerDrive where
  time : Nat
  line : LineId
  level : Option Bool
  deriving DecidableEq, Repr

structure WeakDrive where
  time : Nat
  line : LineId
  level : Bool
  deriving DecidableEq, Repr

structure Replay where
  now : Nat := 0
  cycle : Nat := defaultCycle
  cycle_pos : 0 < cycle := by exact defaultCycle_pos
  clock : Pin
  data : Pin
  trace : List PeerDrive
  /-- The weak drives that reached the bus, newest first. -/
  drives : List WeakDrive := []

namespace Replay

def ofTrace (clock data : LineId) (trace : List PeerDrive) : Replay where
  clock := { id := clock }
  data := { id := data }
  trace

/-- A cycle lasts a nanosecond at least. -/
def withCycle (bus : Replay) (cycle : Nat) : Replay :=
  { bus with cycle := max cycle 1, cycle_pos := max_one_pos cycle }

/-- Where both lines have one name, it means the clock. -/
def pin? (bus : Replay) (id : LineId) : Option Pin :=
  if id = bus.clock.id then some bus.clock
  else if id = bus.data.id then some bus.data
  else none

def setWeak (bus : Replay) (id : LineId) (level : Bool) : Replay :=
  if id = bus.clock.id then { bus with clock := { bus.clock with weak := level } }
  else { bus with data := { bus.data with weak := level } }

def setPeer (bus : Replay) (id : LineId) (level : Option Bool) : Replay :=
  if id = bus.clock.id then { bus with clock := { bus.clock with peer := level } }
  else { bus with data := { bus.data with peer := level } }

def drive (bus : Replay) (id : LineId) (level : Bool) : Outcome Replay Unit :=
  match bus.pin? id with
  | none => .fail (.unknownLine id) bus
  | some _ =>
    let bus := bus.setWeak id level
    .ok () { bus with drives := ⟨bus.now, id, level⟩ :: bus.drives }

/-- Replay the entries of the trace that are due by `time`, then go on to that time. -/
def replayTo (bus : Replay) (time : Nat) : List PeerDrive → Outcome Replay Unit
  | [] => .ok () { bus with now := max bus.now time, trace := [] }
  | entry :: rest =>
    if time < entry.time then .ok () { bus with now := max bus.now time, trace := entry :: rest }
    else
      let bus := { bus with now := max bus.now entry.time, trace := rest }
      match bus.pin? entry.line with
      | none => .fail (.unknownLine entry.line) bus
      | some _ => (bus.setPeer entry.line entry.level).replayTo time rest

def waitUntil (bus : Replay) (time : Nat) : Outcome Replay Unit := bus.replayTo time bus.trace

def waitChange (bus : Replay) : Outcome Replay Unit :=
  match bus.trace with
  | [] => .fail .closed bus
  | entry :: _ => bus.waitUntil entry.time

/-- To the end of the cycle, or to the next entry of the trace if that comes first. -/
def waitCycle (bus : Replay) : Outcome Replay Unit :=
  let stop := bus.now + bus.cycle
  if stop < Time.limit then
    match bus.trace with
    | [] => bus.waitUntil stop
    | entry :: _ => bus.waitUntil (min entry.time stop)
  else .fail (.overflow .add) bus

def wait (bus : Replay) : WaitKind → Outcome Replay Unit
  | .change => bus.waitChange
  | .cycle => bus.waitCycle
  | .instant time => bus.waitUntil time

theorem setWeak_now (bus : Replay) (id : LineId) (level : Bool) :
    (bus.setWeak id level).now = bus.now := by
  unfold setWeak; split <;> rfl

theorem setWeak_trace (bus : Replay) (id : LineId) (level : Bool) :
    (bus.setWeak id level).trace = bus.trace := by
  unfold setWeak; split <;> rfl

theorem pin?_setWeak_peer (bus : Replay) (id : LineId) (level : Bool) (other : LineId) :
    ((bus.setWeak id level).pin? other).map Pin.peer = (bus.pin? other).map Pin.peer := by
  unfold setWeak pin?
  split <;> dsimp only <;> split <;> (try split) <;> rfl

theorem drive_now (bus : Replay) (id : LineId) (level : Bool) :
    (bus.drive id level).state.now = bus.now := by
  unfold drive
  split
  · rfl
  · exact setWeak_now bus id level

theorem drive_peer (bus : Replay) (id : LineId) (level : Bool) (other : LineId) :
    ((bus.drive id level).state.pin? other).map Pin.peer = (bus.pin? other).map Pin.peer := by
  unfold drive
  split
  · rfl
  · exact pin?_setWeak_peer bus id level other

theorem drive_trace (bus : Replay) (id : LineId) (level : Bool) :
    (bus.drive id level).state.trace = bus.trace := by
  unfold drive
  split
  · rfl
  · exact setWeak_trace bus id level

theorem replayTo_length {bus after : Replay} {time : Nat} {trace : List PeerDrive}
    (h : bus.replayTo time trace = .ok () after) : after.trace.length ≤ trace.length := by
  induction trace generalizing bus with
  | nil =>
    cases h
    exact Nat.le_refl _
  | cons entry rest ih =>
    unfold replayTo at h
    split at h
    · cases h
      exact Nat.le_refl _
    · dsimp only at h
      split at h
      · cases h
      · exact Nat.le_succ_of_le (ih h)

theorem replayTo_length_lt {bus after : Replay} {time : Nat} {entry : PeerDrive}
    {rest : List PeerDrive} (due : entry.time ≤ time)
    (h : bus.replayTo time (entry :: rest) = .ok () after) :
    after.trace.length < (entry :: rest).length := by
  unfold replayTo at h
  rw [if_neg (Nat.not_lt.mpr due)] at h
  dsimp only at h
  split at h
  · cases h
  · exact Nat.lt_succ_of_le (replayTo_length h)

theorem waitChange_length {bus after : Replay} (h : bus.waitChange = .ok () after) :
    after.trace.length < bus.trace.length := by
  unfold waitChange at h
  split at h
  case h_1 => cases h
  case h_2 entry rest trace =>
    unfold waitUntil at h
    rw [trace] at h ⊢
    exact replayTo_length_lt (Nat.le_refl _) h

theorem waitCycle_length {bus after : Replay} (h : bus.waitCycle = .ok () after) :
    after.trace.length < bus.trace.length ∨
      after.trace.length ≤ bus.trace.length ∧ bus.now < after.now ∧
        ∀ id, (after.pin? id).map Pin.peer = (bus.pin? id).map Pin.peer := by
  have cycle_pos := bus.cycle_pos
  unfold waitCycle at h
  dsimp only at h
  split at h
  case isFalse => cases h
  case isTrue =>
    split at h
    case h_1 trace =>
      unfold waitUntil at h
      rw [trace] at h ⊢
      cases h
      refine .inr ⟨Nat.le_refl _, ?_, fun _ => rfl⟩
      dsimp only
      omega
    case h_2 entry rest trace =>
      unfold waitUntil at h
      rw [trace] at h ⊢
      by_cases due : entry.time ≤ bus.now + bus.cycle
      case pos =>
        rw [Nat.min_eq_left due] at h
        exact .inl (replayTo_length_lt (Nat.le_refl _) h)
      case neg =>
        rw [Nat.min_eq_right (by omega)] at h
        unfold replayTo at h
        rw [if_pos (by omega)] at h
        cases h
        refine .inr ⟨Nat.le_refl _, ?_, fun _ => rfl⟩
        dsimp only
        omega

instance : LineBus Replay where
  now := Replay.now
  pin? := Replay.pin?
  drive := Replay.drive
  wait := Replay.wait
  moves _ := #[]
  work bus := bus.trace.length
  drive_now := Replay.drive_now
  drive_peer := Replay.drive_peer
  drive_work bus id level := congrArg List.length (drive_trace bus id level)
  wait_change_work := Replay.waitChange_length
  wait_cycle_work := Replay.waitCycle_length

end Replay
end TwoWire
