import TwoWire.Wire

/-! The phases of a transaction and the table that joins them. What is done in a phase is not said
here. -/

namespace TwoWire

inductive Phase
  | stopped
  | starting
  | driveBit
  | sampleBit
  | checkStartStop
  | byteDone
  | driveAck
  | ackSent
  | sampleAck
  | acked
  | nacked
  | repeatStart
  | illegal
  deriving DecidableEq, Repr

namespace Phase

def all : List Phase :=
  [stopped, starting, driveBit, sampleBit, checkStartStop, byteDone, driveAck, ackSent, sampleAck,
    acked, nacked, repeatStart, illegal]

/-- The level that entering the phase expects on a line, `none` where either will do. -/
def expected : Phase → Line → Option Bool
  | stopped, .clock => some true
  | stopped, .data => some true
  | starting, .clock => some true
  | starting, .data => some false
  | driveBit, .clock => some false
  | sampleBit, .clock => some true
  | checkStartStop, .clock => some true
  | driveAck, .clock => some false
  | ackSent, .clock => some false
  | sampleAck, .clock => some true
  | repeatStart, .clock => some true
  | repeatStart, .data => some false
  | _, _ => none

def next : Phase → Line → Phase
  | stopped, .clock => illegal
  | stopped, .data => starting
  | starting, .clock => driveBit
  | starting, .data => illegal
  | driveBit, .clock => sampleBit
  | driveBit, .data => driveBit
  | sampleBit, .clock => driveBit
  | sampleBit, .data => checkStartStop
  | checkStartStop, .clock => driveBit
  | checkStartStop, .data => illegal
  | byteDone, .clock => driveAck
  | byteDone, .data => illegal
  | driveAck, .clock => sampleAck
  | driveAck, .data => driveAck
  | ackSent, .clock => sampleAck
  | ackSent, .data => ackSent
  | sampleAck, _ => illegal
  | acked, .clock => driveBit
  | acked, .data => acked
  | nacked, .clock => driveBit
  | nacked, .data => nacked
  | repeatStart, .clock => driveBit
  | repeatStart, .data => illegal
  | illegal, _ => illegal

def name : Phase → String
  | stopped => "STOPPED"
  | starting => "STARTING"
  | driveBit => "DRIVE_BIT"
  | sampleBit => "SAMPLE_BIT"
  | checkStartStop => "CHECK_START_STOP"
  | byteDone => "BYTE_DONE"
  | driveAck => "DRIVE_ACK"
  | ackSent => "ACK_SENT"
  | sampleAck => "SAMPLE_ACK"
  | acked => "ACKED"
  | nacked => "NACKED"
  | repeatStart => "REPEAT_START"
  | illegal => "ILLEGAL"

def index (phase : Phase) : Nat := all.idxOf phase

theorem mem_all (phase : Phase) : phase ∈ all := by
  cases phase <;> decide

end Phase
end TwoWire
