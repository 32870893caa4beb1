import TwoWire.Wire

/-! What a checker asks of a bus. Time and the peer move in the three wait calls only, and each wait
takes some of the `work` left, save that a wait for the next cycle may only let time go by. -/

namespace TwoWire

inductive BusError
  /-- Nothing will happen on this bus any more. -/
  | closed
  | unknownLine (id : LineId)
  | backend (text : String)
  | overflow (kind : Overflow)
  deriving DecidableEq, Repr

def BusError.message : BusError → String
  | .closed => "line bus closed"
  | .unknownLine id => s!"unknown line: {id.text}"
  | .backend text => s!"line backend error: {text}"
  | .overflow kind => kind.message

/-- The end of an operation on a state. What an operation did before it failed stays done. -/
inductive Outcome (σ α : Type) where
  | ok (value : α) (state : σ)
  | fail (error : BusError) (state : σ)

namespace Outcome

def state : Outcome σ α → σ
  | ok _ state => state
  | fail _ state => state

def andThen (outcome : Outcome σ α) (next : α → σ → Outcome σ β) : Outcome σ β :=
  match outcome with
  | ok value state => next value state
  | fail error state => fail error state

def mapState (outcome : Outcome σ α) (f : σ → τ) : Outcome τ α :=
  match outcome with
  | ok value state => ok value (f state)
  | fail error state => fail error (f state)

@[simp] theorem state_ok (value : α) (state : σ) : (ok value state).state = state := rfl

@[simp] theorem state_fail (error : BusError) (state : σ) :
    (fail error state : Outcome σ α).state = state := rfl

@[simp] theorem andThen_ok (value : α) (state : σ) (next : α → σ → Outcome σ β) :
    (ok value state).andThen next = next value state := rfl

@[simp] theorem andThen_fail (error : BusError) (state : σ) (next : α → σ → Outcome σ β) :
    (fail error state : Outcome σ α).andThen next = fail error state := rfl

theorem of_andThen {outcome : Outcome σ α} {next : α → σ → Outcome σ β} {value : β} {after : σ}
    (h : outcome.andThen next = ok value after) :
    ∃ first middle, outcome = ok first middle ∧ next first middle = ok value after := by
  cases outcome with
  | ok first middle => exact ⟨first, middle, rfl, h⟩
  | fail error middle => cases h

theorem andThen_assoc (outcome : Outcome σ α) (next : α → σ → Outcome σ β)
    (last : β → σ → Outcome σ γ) :
    (outcome.andThen next).andThen last =
      outcome.andThen fun value state => (next value state).andThen last := by
  cases outcome <;> rfl

@[simp] theorem mapState_ok (value : α) (state : σ) (f : σ → τ) :
    (ok value state).mapState f = ok value (f state) := rfl

@[simp] theorem mapState_fail (error : BusError) (state : σ) (f : σ → τ) :
    (fail error state : Outcome σ α).mapState f = fail error (f state) := rfl

@[simp] theorem state_mapState (outcome : Outcome σ α) (f : σ → τ) :
    (outcome.mapState f).state = f outcome.state := by
  cases outcome <;> rfl

end Outcome

inductive WaitKind
  | change
  | cycle
  | instant (time : Nat)
  deriving DecidableEq, Repr

/-- How long a cycle lasts, in nanoseconds, unless a bus is told otherwise. -/
def defaultCycle : Nat := 10

theorem defaultCycle_pos : 0 < defaultCycle := by decide

theorem max_one_pos (cycle : Nat) : 0 < max cycle 1 := Nat.le_max_right ..

class LineBus (β : Type) where
  now : β → Nat
  pin? : β → LineId → Option Pin
  drive : β → LineId → Bool → Outcome β Unit
  wait : β → WaitKind → Outcome β Unit
  /-- Every change of a resolved level that the bus has recorded, in order. -/
  moves : β → Array Transition
  work : β → Nat
  drive_now (bus : β) (id : LineId) (level : Bool) : now (drive bus id level).state = now bus
  drive_peer (bus : β) (id : LineId) (level : Bool) (other : LineId) :
    (pin? (drive bus id level).state other).map Pin.peer = (pin? bus other).map Pin.peer
  drive_work (bus : β) (id : LineId) (level : Bool) : work (drive bus id level).state = work bus
  wait_change_work {bus after : β} (h : wait bus .change = .ok () after) : work after < work bus
  wait_cycle_work {bus after : β} (h : wait bus .cycle = .ok () after) :
    work after < work bus ∨ work after ≤ work bus ∧ now bus < now after ∧
      ∀ id, (pin? after id).map Pin.peer = (pin? bus id).map Pin.peer

namespace LineBus

variable {β : Type} [LineBus β]

def peer? (bus : β) (id : LineId) : Option (Option Bool) := (pin? bus id).map Pin.peer

def read (bus : β) (id : LineId) : Except BusError Bool :=
  match pin? bus id with
  | some pin => .ok pin.level
  | none => .error (.unknownLine id)

def isDriven (bus : β) (id : LineId) : Except BusError Bool :=
  match pin? bus id with
  | some pin => .ok pin.isDriven
  | none => .error (.unknownLine id)

end LineBus
end TwoWire
