import TwoWire.Config
import TwoWire.Json.Records

/-! The configuration as JSON. Its last six fields may be missing. -/

namespace TwoWire.Config

variable [JsonLibrary]

def fieldNames : List String :=
  ["clock", "data", "expected_speed", "nominal_speed", "tx_data", "ack_sequence", "clock_stretch",
    "settle_time"]

def lineField (name : String) : RecordField where
  name := name
  codec := .byte

def speedField (name : String) : RecordField where
  name := name
  codec := JsonLibrary.option (JsonLibrary.nat .word)
  default? := some none

def scriptField (name : String) {α : Type} (codec : Codec α) : RecordField where
  name := name
  codec := JsonLibrary.list codec
  default? := some []

def durationField (name : String) (missing : Nat) : RecordField where
  name := name
  codec := JsonLibrary.nat .long
  default? := some missing

def shape : RecordShape where
  fields := [
    lineField "clock",
    lineField "data",
    speedField "expected_speed",
    speedField "nominal_speed",
    scriptField "tx_data" .byte,
    scriptField "ack_sequence" JsonLibrary.bool,
    durationField "clock_stretch" 0,
    durationField "settle_time" 100]
  nodup := show fieldNames.Nodup by decide

def values (config : Config) : Values shape.fields :=
  (config.clock, config.data, config.expectedSpeed, config.nominalSpeed, config.txData,
    config.ackSequence, config.clockStretch, config.settleTime, ())

def ofValues : Values shape.fields → Config
  | (clock, data, expectedSpeed, nominalSpeed, txData, ackSequence, clockStretch, settleTime, ()) =>
    { clock, data, expectedSpeed, nominalSpeed, txData, ackSequence, clockStretch, settleTime }

def ofJson? (json : Json) : Option Config := ((JsonLibrary.record shape).read? json).map ofValues

def toJson (config : Config) : Json := (JsonLibrary.record shape).write config.values

end TwoWire.Config
