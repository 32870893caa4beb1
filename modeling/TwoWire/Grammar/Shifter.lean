/-! The byte in flight, shifted in or out from its most significant bit. Once a refusal has ended
the sourcing neither goes on, but clocks are still counted. -/

namespace TwoWire

theorem forall_byte {P : UInt8 → Prop} (h : ∀ i : Fin 256, P (.ofFin i)) (byte : UInt8) : P byte :=
  h byte.toFin

structure Shifter where
  /-- Clocks since the byte began, at most eight. -/
  bits : Nat := 0
  incoming : Option UInt8 := some 0
  outgoing : Option UInt8 := none
  deriving DecidableEq, Repr

namespace Shifter

def bitsPerByte : Nat := 8

def sink : Shifter := {}

def source (byte : UInt8) : Shifter := { incoming := none, outgoing := some byte }

def load (shifter : Shifter) (byte : UInt8) : Shifter := { shifter with outgoing := some byte }

def stopSourcing (shifter : Shifter) : Shifter := { shifter with outgoing := none }

def restart (shifter : Shifter) : Shifter := { shifter with bits := 0 }

def isSinking (shifter : Shifter) : Bool := shifter.incoming.isSome

def isSourcing (shifter : Shifter) : Bool := shifter.outgoing.isSome

def isComplete (shifter : Shifter) : Bool := decide (bitsPerByte ≤ shifter.bits)

def outgoingBit? (shifter : Shifter) : Option Bool :=
  shifter.outgoing.map fun byte => byte &&& 0x80 != 0

/-- The level to hold the data line at: bits that are not ours are left to the peer. -/
def outgoingLevel (shifter : Shifter) : Bool := shifter.outgoingBit?.getD true

def shiftIn (byte : UInt8) (bit : Bool) : UInt8 := byte <<< 1 ||| bit.toUInt8

def clock (shifter : Shifter) (sampled : Bool) : Shifter where
  bits := min (shifter.bits + 1) bitsPerByte
  incoming := shifter.incoming.map fun byte => shiftIn byte sampled
  outgoing := shifter.outgoing.map fun byte => shiftIn byte false

end Shifter
end TwoWire
