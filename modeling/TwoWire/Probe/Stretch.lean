import TwoWire.Time

/-! Clock stretching: after each fall the clock is held low for a fixed time, until a deadline. -/

namespace TwoWire

structure ClockStretch where
  /-- Zero for no stretching. -/
  duration : Nat := 0
  deadline? : Option Nat := none
  deriving DecidableEq, Repr

namespace ClockStretch

def isEnabled (stretch : ClockStretch) : Bool := decide (0 < stretch.duration)

def begin (stretch : ClockStretch) (time : Nat) : ClockStretch :=
  if stretch.isEnabled then
    { stretch with deadline? := some (Time.saturate (time + stretch.duration)) }
  else stretch

def isPending (stretch : ClockStretch) : Bool := stretch.deadline?.isSome

def isDue (stretch : ClockStretch) (now : Nat) : Bool :=
  stretch.deadline?.any fun deadline => decide (deadline ≤ now)

def release (stretch : ClockStretch) : ClockStretch := { stretch with deadline? := none }

/-- Time to the end of the stretch, and one more while it is pending. -/
def remaining (stretch : ClockStretch) (now : Nat) : Nat :=
  match stretch.deadline? with
  | none => 0
  | some deadline => deadline - now + 1

end ClockStretch
end TwoWire
