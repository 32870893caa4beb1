import TwoWire.Controller.Timing
import TwoWire.Random.Stream
import TwoWire.Wire

/-! Programs of the simulated controller. Each call of a scenario makes moves, which fix the order
of what happens on the lines; laying the moves out settles how long every delay is. -/

namespace TwoWire

inductive Step
  /-- Pull a line low, drive it high or let it go. -/
  | drive (line : Line) (level : Option Bool)
  | delay (duration : Nat)
  | waitClockHigh
  | sampleData
  | sampleAck
  deriving DecidableEq, Repr

def Step.fits : Step → Bool
  | .delay duration => decide (duration < Time.limit)
  | _ => true

inductive Call
  | idle (duration : Nat)
  /-- From here on lengthen every delay by a random time up to `most`. -/
  | jitter (seed : UInt64) (most : Nat)
  /-- Give the next low phase of the clock, and only that one, this duration. -/
  | shortenNextLow (duration : Nat)
  | start
  | repeatedStart
  | stop
  /-- One clock pulse outside the framing of bytes. -/
  | bit (level : Option Bool)
  | writeByte (byte : UInt8)
  | readByte (ack : Bool)
  | writeTransaction (address : UInt8) (bytes : List UInt8)
  | readTransaction (address : UInt8) (count : Nat)
  deriving DecidableEq, Repr

inductive Move
  | act (step : Step)
  | pause (duration : Nat)
  /-- The low phase of a clock pulse with the data line at `level`. -/
  | lowPhase (level : Option Bool)
  | shortenNextLow (duration : Nat)
  | jitter (seed : UInt64) (most : Nat)
  deriving DecidableEq, Repr

namespace Move

def pullLow (line : Line) : Move := .act (.drive line (some false))

def letGo (line : Line) : Move := .act (.drive line none)

def pulse (timing : ControllerTiming) (level : Option Bool) (sample : List Step) : List Move :=
  [.lowPhase level, .act .waitClockHigh] ++ sample.map .act ++
    [.pause timing.clockHigh, pullLow .clock]

def start (timing : ControllerTiming) : List Move :=
  [pullLow .data, .pause timing.startHold, pullLow .clock]

def repeatedStart (timing : ControllerTiming) : List Move :=
  [.lowPhase none, .act .waitClockHigh, .pause timing.startSetup] ++ start timing

def stop (timing : ControllerTiming) : List Move :=
  [.lowPhase (some false), .act .waitClockHigh, .pause timing.stopSetup, letGo .data,
    .pause timing.busFree]

/-- The drive that puts a bit on the data line; a one is left to the pull-up. -/
def bitDrive (bit : Bool) : Option Bool := if bit then none else some false

def bitsOf (byte : UInt8) : List Bool :=
  (List.range 8).map fun i => byte.toNat.testBit (7 - i)

/-- Eight data bits, then the data line is let go and the acknowledge sampled. -/
def writeByte (timing : ControllerTiming) (byte : UInt8) : List Move :=
  (bitsOf byte).flatMap (fun bit => pulse timing (bitDrive bit) []) ++
    pulse timing none [.sampleAck]

def readByte (timing : ControllerTiming) (ack : Bool) : List Move :=
  (List.replicate 8 (pulse timing none [.sampleData])).flatten ++
    pulse timing (bitDrive (!ack)) []

def writeTransaction (timing : ControllerTiming) (address : UInt8) (bytes : List UInt8) :
    List Move :=
  start timing ++ ((address <<< 1) :: bytes).flatMap (writeByte timing) ++ stop timing

/-- Every byte but the last is acknowledged. -/
def readTransaction (timing : ControllerTiming) (address : UInt8) (count : Nat) : List Move :=
  start timing ++ writeByte timing (address <<< 1 ||| 1) ++
    (List.range count).flatMap (fun i => readByte timing (decide (i + 1 < count))) ++ stop timing

end Move

def Call.moves (timing : ControllerTiming) : Call → List Move
  | .idle duration => [.pause duration]
  | .jitter seed most => [.jitter seed most]
  | .shortenNextLow duration => [.shortenNextLow duration]
  | .start => Move.start timing
  | .repeatedStart => Move.repeatedStart timing
  | .stop => Move.stop timing
  | .bit level => Move.pulse timing level []
  | .writeByte byte => Move.writeByte timing byte
  | .readByte ack => Move.readByte timing ack
  | .writeTransaction address bytes => Move.writeTransaction timing address bytes
  | .readTransaction address count => Move.readTransaction timing address count

variable [RandomSource]

structure Jitter where
  stream : RandomSource.Stream
  most : Nat

structure Layout where
  /-- Newest first. -/
  steps : List Step := []
  nextLow : Option Nat := none
  jitter : Option Jitter := none

namespace Layout

def act (layout : Layout) (step : Step) : Layout := { layout with steps := step :: layout.steps }

/-- The time to add to the next delay. Without jitter, or with none allowed, nothing is drawn. -/
def extra (layout : Layout) : Nat × Layout :=
  match layout.jitter with
  | none => (0, layout)
  | some jitter =>
    if jitter.most = 0 then (0, layout)
    else
      let (drawn, stream) := RandomSource.upTo jitter.stream (UInt64.ofNat jitter.most)
      (drawn.toNat, { layout with jitter := some { jitter with stream } })

/-- A delay of no length takes its share of the jitter, and leaves no step if it gets none. -/
def pause (layout : Layout) (duration : Nat) : Layout :=
  let (drawn, layout) := layout.extra
  if duration + drawn = 0 then layout else layout.act (.delay (duration + drawn))

def lowPhase (timing : ControllerTiming) (layout : Layout) (level : Option Bool) : Layout :=
  let low := layout.nextLow.getD timing.clockLow
  let delay := min timing.dataDelay low
  let layout := { layout with nextLow := none }
  let layout := (layout.pause delay).act (.drive .data level)
  (layout.pause (low - delay)).act (.drive .clock none)

def apply (timing : ControllerTiming) (layout : Layout) : Move → Layout
  | .act step => layout.act step
  | .pause duration => layout.pause duration
  | .lowPhase level => layout.lowPhase timing level
  | .shortenNextLow duration => { layout with nextLow := some duration }
  | .jitter seed most => { layout with jitter := some ⟨RandomSource.ofSeed seed, most⟩ }

end Layout

namespace Program

def ofCalls (timing : ControllerTiming) (calls : List Call) : List Step :=
  ((calls.flatMap (Call.moves timing)).foldl (Layout.apply timing) {}).steps.reverse

def ofCalls? (timing : ControllerTiming) (calls : List Call) : Except Overflow (List Step) :=
  let steps := ofCalls timing calls
  if steps.all Step.fits then .ok steps else .error .add

end Program
end TwoWire
