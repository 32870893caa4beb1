import TwoWire.Grammar.Phase
import TwoWire.Speed.Meter
import TwoWire.Timing

/-! What is reported: events of the protocol and violations of it. The texts are compared line by
line with recorded ones, so their wording is fixed. -/

namespace TwoWire

inductive Direction
  | write
  | read
  deriving DecidableEq, Repr

namespace Direction

def ofAddressByte (byte : UInt8) : Direction :=
  if byte &&& 1 = 0 then .write else .read

def text : Direction → String
  | .write => "write"
  | .read => "read"

end Direction

/-- Lower-case hexadecimal without leading zeros. -/
def hexText (byte : UInt8) : String :=
  "0x" ++ String.ofList (Nat.toDigits 16 byte.toNat)

inductive Event
  | startBit
  | repeatedStart
  | stopBit
  | byteReceived (byte : UInt8)
  | byteSent
  /-- Effective speed of the byte just completed. -/
  | speed (kbps : Nat)
  | transactionStarted (direction : Direction) (address : UInt8)
  | sendingAck
  | sendingNack
  | peerAck
  | peerNack
  | waitingForStop
  deriving DecidableEq, Repr

def Event.text : Event → String
  | .startBit => "Start bit received"
  | .repeatedStart => "Repeated start bit received"
  | .stopBit => "Stop bit received"
  | .byteReceived byte => "Byte received: " ++ hexText byte
  | .byteSent => "Byte sent"
  | .speed kbps => s!"Speed = {kbps} Kbps"
  | .transactionStarted direction address =>
    s!"Master {direction.text} transaction started, device address=" ++ hexText address
  | .sendingAck => "Sending ack"
  | .sendingNack => "Sending nack"
  | .peerAck => "Master sends ACK."
  | .peerNack => "Master sends NACK."
  | .waitingForStop => "Waiting for stop/start bit"

inductive SequenceFault
  | simultaneousEdges
  | stopMidByte
  | startMidByte
  | peerDrivingDuringAck
  | activityAfterNack
  deriving DecidableEq, Repr

def SequenceFault.text : SequenceFault → String
  | .simultaneousEdges => "Unsupported having SCL & SDA changing simultaneously"
  | .stopMidByte => "Stopping when mid-byte"
  | .startMidByte => "Start bit detected mid-byte"
  | .peerDrivingDuringAck => "master driving SDA during ACK phase"
  | .activityAfterNack => "Bit clocked after NACK without stop/start bit"

inductive Violation
  | timing (param : TimingParam) (interval : Int)
  | speed (verdict : SpeedVerdict) (measured expected : Nat)
  | sequence (fault : SequenceFault)
  /-- A line was not at the level that the phase expects on entry. -/
  | lineMismatch (line : Line) (expected : Bool)
  | illegalPhase (source : Phase)
  deriving DecidableEq, Repr

inductive ViolationClass
  | timing
  | speed
  | sequence
  | lineMismatch
  | illegalPhase
  deriving DecidableEq, Repr

def ViolationClass.name : ViolationClass → String
  | .timing => "Timing"
  | .speed => "Speed"
  | .sequence => "Sequencing"
  | .lineMismatch => "LineMismatch"
  | .illegalPhase => "IllegalState"

namespace Violation

def kind : Violation → ViolationClass
  | .timing .. => .timing
  | .speed .. => .speed
  | .sequence .. => .sequence
  | .lineMismatch .. => .lineMismatch
  | .illegalPhase .. => .illegalPhase

def text : Violation → String
  | .timing param interval => s!"{param.text}: {interval}ns"
  | .speed .tooSlow _ _ => "speed is <1% slower than expected"
  | .speed .tooFast _ _ => "speed is faster than expected"
  | .sequence fault => fault.text
  | .lineMismatch line expected => s!"{line.text} != {levelText expected}"
  | .illegalPhase source => s!"Illegal state arrived at from {source.name}"

/-- The violation in an interval that breaks its limit. Without a speed class nothing is judged. -/
def ofInterval? (speed : Option SpeedClass) (param : TimingParam) (interval : Int) :
    Option Violation :=
  match speed with
  | none => none
  | some speed =>
    if (param.bound speed.limits).allows interval then none else some (.timing param interval)

/-- A data line that moved before the clock fell is measured from a stale reference, and the
interval is not judged. -/
def ofDataValid? (speed : Option SpeedClass) (interval : Int) : Option Violation :=
  if interval < 0 then none else ofInterval? speed .dataValid interval

end Violation

inductive Finding
  | event (event : Event)
  | violation (violation : Violation)
  deriving DecidableEq, Repr

structure Record where
  time : Nat
  phase : Phase
  finding : Finding
  deriving DecidableEq, Repr

namespace Record

def event? (record : Record) : Option Event :=
  match record.finding with
  | .event event => some event
  | .violation _ => none

def violation? (record : Record) : Option Violation :=
  match record.finding with
  | .event _ => none
  | .violation violation => some violation

def text (record : Record) : String :=
  match record.finding with
  | .event event => event.text
  | .violation violation =>
    s!"ERROR: {record.phase.name}: {violation.text} @ {record.time}"

end Record
end TwoWire
