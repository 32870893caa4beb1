import TwoWire.Config
import TwoWire.Grammar.Shifter
import TwoWire.Probe.Edge
import TwoWire.Report.Record

/-! The responder's side of the protocol, as a function of what is seen. What is measured is only
ever reported: no later state depends on an interval or on a speed. -/

namespace TwoWire

/-- What a phase is entered with: the peer's drives, ours, and the committed levels. -/
structure View where
  sight : Sight
  lines : Lines
  detector : EdgeDetector
  deriving DecidableEq, Repr

namespace View

def now (view : View) : Nat := view.sight.now

def level (view : View) (line : Line) : Bool := view.lines.level view.sight line

def driver (view : View) (line : Line) : Driver := view.lines.driver view.sight line

def clock (view : View) : LineSample := view.detector.clock

def data (view : View) : LineSample := view.detector.data

end View

/-- Something to report, or an interval that cannot be measured. -/
inductive Note
  | found (finding : Finding)
  | overflow (kind : Overflow)
  deriving DecidableEq, Repr

namespace Note

def event (event : Event) : Note := found (.event event)

def violation (violation : Violation) : Note := found (.violation violation)

def fault (fault : SequenceFault) : Note := violation (.sequence fault)

def judged (judge : Int → Option Violation) : Except Overflow Int → List Note
  | .error kind => [overflow kind]
  | .ok interval => (judge interval).toList.map violation

def measure (judge : Int → Option Violation) (start? : Option Nat) (stop : Nat) : List Note :=
  match start? with
  | none => []
  | some start => judged judge (Time.elapsed start stop)

def measureBetween (judge : Int → Option Violation) (start? stop? : Option Nat) : List Note :=
  match stop? with
  | none => []
  | some stop => measure judge start? stop

end Note

structure Protocol where
  speed : Option SpeedClass
  expectedSpeed : Option Nat
  responses : Responses
  meter : SpeedMeter := {}
  shifter : Shifter := {}
  phase : Phase := .stopped
  previous : Phase := .stopped
  /-- Bytes completed since the last start. -/
  byteCount : Nat := 0
  /-- It is ours to acknowledge the byte in flight. -/
  acknowledging : Bool := true
  /-- A byte was refused, and no stop or start has followed. -/
  afterNack : Bool := false
  activityReported : Bool := false
  deriving DecidableEq, Repr

structure Arrival where
  protocol : Protocol
  notes : List Note := []
  drive? : Option Bool := none
  forced? : Option Phase := none
  deriving DecidableEq, Repr

namespace Protocol

def ofConfig (config : Config) (responses : Responses) : Protocol where
  speed := config.speedClass?
  expectedSpeed := config.expectedSpeed
  responses

def judge (protocol : Protocol) (param : TimingParam) : Int → Option Violation :=
  Violation.ofInterval? protocol.speed param

/-- What a start of either kind does to the protocol's own state. -/
def beginTransaction (protocol : Protocol) : Protocol :=
  { protocol with
    byteCount := 0
    shifter := .sink
    meter := {}
    afterNack := false
    activityReported := false }

def onStopped (protocol : Protocol) (view : View) : Arrival where
  protocol := { protocol with afterNack := false }
  notes := .event .stopBit ::
    Note.measureBetween (protocol.judge .stopSetup) view.clock.changedAt view.data.changedAt

def onStart (protocol : Protocol) (view : View) (event : Event) (setup : TimingParam) :
    Arrival where
  protocol := protocol.beginTransaction
  notes := .event event ::
    Note.measureBetween (protocol.judge setup) view.clock.changedAt view.data.changedAt ++
      Note.measure (protocol.judge .busFree) view.data.previousChange view.now

def followsStart (protocol : Protocol) : Bool :=
  protocol.previous = .starting || protocol.previous = .repeatStart

/-- Bits that are not ours to give read as one through the pull-up. -/
def onDriveBit (protocol : Protocol) (view : View) : Arrival where
  protocol
  notes :=
    if protocol.followsStart then
      Note.measure (protocol.judge .startHold) view.data.changedAt view.now
    else []
  drive? := some protocol.shifter.outgoingLevel

def speedNotes (protocol : Protocol) : List Note :=
  match protocol.meter.throughput? with
  | none => []
  | some kbps =>
    let measured := Throughput.round kbps
    .event (.speed measured) ::
      match protocol.expectedSpeed with
      | none => []
      | some expected =>
        (Throughput.verdict? kbps expected).toList.map fun verdict =>
          .violation (.speed verdict measured expected)

/-- The first byte after a start gives the direction and the address; a read makes us source. -/
def command (protocol : Protocol) (byte : UInt8) : Protocol :=
  match Direction.ofAddressByte byte with
  | .write => { protocol with shifter := .sink }
  | .read =>
    let (next, responses) := protocol.responses.nextByte
    { protocol with shifter := .source next, responses }

/-- A received byte is ours to acknowledge, whichever it was. -/
def byteReceived (protocol : Protocol) (byte : UInt8) : Protocol :=
  let ours := { protocol with acknowledging := true, meter := {} }
  if protocol.byteCount = 0 then ours.command byte else { ours with shifter := .sink }

def receivedNotes (protocol : Protocol) (byte : UInt8) : List Note :=
  .event (.byteReceived byte) :: protocol.speedNotes ++
    if protocol.byteCount = 0 then
      [.event (.transactionStarted (.ofAddressByte byte) (byte >>> 1))]
    else []

def byteSent (protocol : Protocol) : Protocol :=
  { protocol with acknowledging := false, meter := {} }

def onByteDone (protocol : Protocol) (notes : List Note) : Arrival :=
  match protocol.shifter.incoming with
  | some byte =>
    { protocol := protocol.byteReceived byte
      notes := notes ++ protocol.receivedNotes byte
      forced? := some .byteDone }
  | none =>
    { protocol := protocol.byteSent
      notes := notes ++ .event .byteSent :: protocol.speedNotes
      forced? := some .byteDone }

/-- The clock pulse of a stop or a repeated start is the first bit; a second one after a refused
byte is activity that should not be. -/
def strayActivity (protocol : Protocol) : Bool :=
  protocol.afterNack && protocol.shifter.bits = 2 && !protocol.activityReported

def setupNotes (protocol : Protocol) (view : View) : List Note :=
  if protocol.shifter.isSinking then
    Note.measure (protocol.judge .dataSetup) view.data.changedAt view.now
  else []

def onSampleBit (protocol : Protocol) (view : View) : Arrival :=
  let setup := protocol.setupNotes view
  let clocked := { protocol with shifter := protocol.shifter.clock (view.level .data) }
  let stray := clocked.strayActivity
  let marked := { clocked with activityReported := clocked.activityReported || stray }
  let notes := setup ++ if stray then [.fault .activityAfterNack] else []
  if marked.shifter.isComplete then marked.onByteDone notes else { protocol := marked, notes }

/-- The data line moved while the clock was high: a stop if it rose, a start if it fell, and a
fault unless exactly one bit had been clocked. -/
def onCheckStartStop (protocol : Protocol) (view : View) : Arrival :=
  let midByte := protocol.shifter.bits != 1
  if view.data.level then
    { protocol
      notes := if midByte then [.fault .stopMidByte] else []
      forced? := some .stopped }
  else
    { protocol
      notes := if midByte then [.fault .startMidByte] else []
      forced? := some (if midByte then .starting else .repeatStart) }

def onDriveAck (protocol : Protocol) : Arrival :=
  if protocol.acknowledging then
    let (ack, responses) := protocol.responses.nextAck
    { protocol := { protocol with responses }
      notes := [.event (if ack then .sendingAck else .sendingNack)]
      drive? := some (!ack)
      forced? := some .ackSent }
  else { protocol, drive? := some true }

/-- The acknowledge bit of either kind ends the byte. -/
def endByte (protocol : Protocol) (nack : Bool) : Protocol :=
  { protocol with
    afterNack := protocol.afterNack || nack
    shifter := protocol.shifter.restart
    byteCount := min (protocol.byteCount + 1) (UInt32.size - 1) }

theorem byteCount_endByte (protocol : Protocol) (nack : Bool) :
    (protocol.endByte nack).byteCount = min (protocol.byteCount + 1) (UInt32.size - 1) := rfl

/-- The peer has answered a byte of ours: more is wanted, or we stop driving the data line. -/
def peerAnswered (protocol : Protocol) (nack : Bool) : Protocol :=
  if nack then { protocol with shifter := protocol.shifter.stopSourcing }
  else
    let (next, responses) := protocol.responses.nextByte
    { protocol with shifter := protocol.shifter.load next, responses }

def ackNotes (protocol : Protocol) (view : View) (nack : Bool) : List Note :=
  if protocol.acknowledging then
    if view.driver .data = .peer then [.fault .peerDrivingDuringAck] else []
  else if nack then [.event .peerNack, .event .waitingForStop]
  else [.event .peerAck]

def onSampleAck (protocol : Protocol) (view : View) : Arrival :=
  let nack := view.level .data
  let answered := if protocol.acknowledging then protocol else protocol.peerAnswered nack
  { protocol := answered.endByte nack
    notes := protocol.ackNotes view nack
    forced? := some (if nack then .nacked else .acked) }

/-- The first step into the illegal phase is reported, and none after it. -/
def onIllegal (protocol : Protocol) : Arrival where
  protocol
  notes :=
    if protocol.previous = .illegal then [] else [.violation (.illegalPhase protocol.previous)]

def arrive (protocol : Protocol) (view : View) : Arrival :=
  match protocol.phase with
  | .stopped => protocol.onStopped view
  | .starting => protocol.onStart view .startBit .startSetup
  | .driveBit => protocol.onDriveBit view
  | .sampleBit => protocol.onSampleBit view
  | .checkStartStop => protocol.onCheckStartStop view
  | .driveAck => protocol.onDriveAck
  | .sampleAck => protocol.onSampleAck view
  | .repeatStart => protocol.onStart view .repeatedStart .repeatedStartSetup
  | .illegal => protocol.onIllegal
  | .byteDone => { protocol }
  | .ackSent => { protocol }
  | .acked => { protocol }
  | .nacked => { protocol }

def mismatch (phase : Phase) (view : View) (line : Line) : List Note :=
  match phase.expected line with
  | none => []
  | some expected =>
    if view.level line = expected then [] else [.violation (.lineMismatch line expected)]

def enter (protocol : Protocol) (view : View) (phase : Phase) : Arrival :=
  let arrival := { protocol with previous := protocol.phase, phase }.arrive view
  { arrival with
    notes := mismatch phase view .clock ++ mismatch phase view .data ++ arrival.notes }

/-- What an edge itself shows: the clock phase it ended, or how late the data line moved. -/
def edgeNotes (protocol : Protocol) (view : View) (edge : Edge) : List Note :=
  match edge.line with
  | .clock =>
    Note.measure (protocol.judge (if view.clock.level then .clockLow else .clockHigh))
      view.clock.previousChange view.now
  | .data =>
    if view.clock.level then []
    else Note.measure (Violation.ofDataValid? protocol.speed) view.clock.changedAt view.now

/-- The phase that an edge leads to. The illegal phase is left by a start or a stop only. -/
def successor (protocol : Protocol) (detector : EdgeDetector) (line : Line) : Phase :=
  if protocol.phase = .illegal ∧ line = .data ∧ detector.clock.level then
    if detector.data.level then .stopped else .starting
  else protocol.phase.next line

end Protocol
end TwoWire
