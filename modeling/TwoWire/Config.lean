import TwoWire.Grammar.Responses
import TwoWire.Speed.Class
import TwoWire.Wire

/-! What a test decides about a run. -/

namespace TwoWire

structure Config where
  clock : LineId
  data : LineId
  /-- Throughput to be measured in kbit/s; without it speed is not judged. -/
  expectedSpeed : Option Nat := none
  /-- Speed the peer is set to in kbit/s. It differs from the measured speed while the clock is
  stretched, and selects the timing limits then. -/
  nominalSpeed : Option Nat := none
  txData : List UInt8 := []
  /-- The decision for each byte that is ours to acknowledge. -/
  ackSequence : List Bool := []
  /-- Time to hold the clock low after each of its falls; zero for none. -/
  clockStretch : Nat := 0
  /-- Time at the start in which nothing is looked at. -/
  settleTime : Nat := 100
  deriving DecidableEq, Repr

inductive SpeedRole
  | expected
  | nominal
  deriving DecidableEq, Repr

def SpeedRole.text : SpeedRole → String
  | .expected => "expected"
  | .nominal => "nominal"

inductive ConfigError
  | sameLine (id : LineId)
  | zeroSpeed (role : SpeedRole)
  | responses (error : ResponseError)
  deriving DecidableEq, Repr

def ConfigError.message : ConfigError → String
  | .sameLine id => s!"clock and data share {id.text}"
  | .zeroSpeed role => s!"{role.text} speed must be non-zero"
  | .responses error => s!"response script: {error.message}"

namespace Config

def responses (config : Config) : Except ConfigError Responses :=
  (Responses.ofLists config.ackSequence config.txData).mapError .responses

/-- The class whose limits the intervals are held to. A speed outside the classes turns the timing
checks off. -/
def speedClass? (config : Config) : Option SpeedClass :=
  (config.nominalSpeed.or config.expectedSpeed).bind SpeedClass.ofKbps?

def check (config : Config) : Except ConfigError Responses :=
  if config.clock = config.data then .error (.sameLine config.clock)
  else if config.expectedSpeed = some 0 then .error (.zeroSpeed .expected)
  else if config.nominalSpeed = some 0 then .error (.zeroSpeed .nominal)
  else config.responses

end Config
end TwoWire
