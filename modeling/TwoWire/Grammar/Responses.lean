/-! Scripted answers. A list that has run out falls back to a fixed answer for ever. -/

namespace TwoWire

inductive ResponseKind
  | ack
  | data
  deriving DecidableEq, Repr

def ResponseKind.text : ResponseKind → String
  | .ack => "ack"
  | .data => "data"

structure Responses where
  acks : List Bool := []
  bytes : List UInt8 := []
  deriving DecidableEq, Repr

inductive ResponseError
  | tooLong (kind : ResponseKind) (length : Nat)
  deriving DecidableEq, Repr

namespace Responses

/-- The most entries either list may start with. -/
def capacity : Nat := 256

def fallbackAck : Bool := true

def fallbackByte : UInt8 := 0xab

def ofLists (acks : List Bool) (bytes : List UInt8) : Except ResponseError Responses :=
  if capacity < acks.length then .error (.tooLong .ack acks.length)
  else if capacity < bytes.length then .error (.tooLong .data bytes.length)
  else .ok ⟨acks, bytes⟩

def nextAck (responses : Responses) : Bool × Responses :=
  match responses.acks with
  | [] => (fallbackAck, responses)
  | ack :: rest => (ack, { responses with acks := rest })

def nextByte (responses : Responses) : UInt8 × Responses :=
  match responses.bytes with
  | [] => (fallbackByte, responses)
  | byte :: rest => (byte, { responses with bytes := rest })

end Responses

def ResponseError.message : ResponseError → String
  | .tooLong kind length =>
    s!"{kind.text} sequence has {length} entries (maximum {Responses.capacity})"

end TwoWire
