import TwoWire.Time

/-! The two lines of the bus. The peer drives a line strongly or leaves it, and a line it has left
reads our weak drive. -/

namespace TwoWire

inductive Line
  | clock
  | data
  deriving DecidableEq, Repr

def Line.text : Line → String
  | .clock => "SCL"
  | .data => "SDA"

abbrev LineId := UInt8

def LineId.text (id : LineId) : String :=
  let number := id.toNat
  s!"line {number}"

def levelText (level : Bool) : String :=
  if level then "1" else "0"

structure Pin where
  id : LineId
  /-- The peer's drive, `none` while it has released the line. -/
  peer : Option Bool := none
  weak : Bool := true
  deriving DecidableEq, Repr

namespace Pin

def level (pin : Pin) : Bool := pin.peer.getD pin.weak

def isDriven (pin : Pin) : Bool := pin.peer.isSome

end Pin

structure Transition where
  time : Nat
  line : Line
  level : Bool
  deriving DecidableEq, Repr

end TwoWire
