/-! Simulated time: an instant is a number of nanoseconds below `2 ^ 64`, and an interval between
two of them is signed. What can leave its range says so with an `Overflow`. -/

namespace TwoWire

inductive Overflow
  | add
  | subtract
  deriving DecidableEq, Repr

def Overflow.message : Overflow → String
  | .add => "attempt to add with overflow"
  | .subtract => "attempt to subtract with overflow"

namespace Time

/-- The first number that is no instant any more. -/
def limit : Nat := UInt64.size

/-- The first instant that is negative as a signed number. -/
def half : Nat := limit / 2

def saturate (n : Nat) : Nat := min n (limit - 1)

def signed (t : Nat) : Int := Int.bmod t limit

/-- Signed distance between two instants, negative when `stop` comes first. Both are taken as signed
numbers before the subtraction, so instants on different sides of `half` can overflow. -/
def elapsed (start stop : Nat) : Except Overflow Int :=
  let distance := signed stop - signed start
  if -half ≤ distance ∧ distance < half then .ok distance else .error .subtract

theorem saturate_of_lt {n : Nat} (h : n < limit) : saturate n = n := by
  unfold saturate limit UInt64.size at *
  omega

theorem half_add_half : half + half = limit := by decide

theorem signed_of_lt {t : Nat} (h : t < half) : signed t = t := by
  unfold signed
  unfold half limit UInt64.size at *
  rw [Int.bmod_eq_of_le] <;> omega

theorem elapsed_of_lt {start stop : Nat} (hstart : start < half) (hstop : stop < half) :
    elapsed start stop = .ok ((stop : Int) - start) := by
  unfold elapsed
  simp only [signed_of_lt hstart, signed_of_lt hstop]
  rw [if_pos (by omega)]

end Time
end TwoWire
