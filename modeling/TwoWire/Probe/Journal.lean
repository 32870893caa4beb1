import TwoWire.Config
import TwoWire.Probe.Edge
import TwoWire.Report.RecordLog

/-! The journal of a run: all that was asked of the bus, seen on it and reported, in one order. -/

namespace TwoWire

inductive Entry
  | started (config : Config)
  | waited (kind : WaitKind)
  | drove (line : Line) (level : Bool)
  /-- The level of a line of the bus changed. -/
  | moved (transition : Transition)
  | committed (change : Change)
  | entered (source target : Phase) (time : Nat)
  | recorded (record : Record)
  | stretchBegan (time : Nat)
  | stretchEnded (time : Nat)
  | ended (error : BusError) (time : Nat)
  deriving DecidableEq, Repr

/-- Newest first. -/
abbrev Journal := List Entry

namespace Entry

def record? : Entry → Option Record
  | recorded record => some record
  | _ => none

def speedText (speed : Option Nat) : String :=
  match speed with
  | none => "None"
  | some kbps => s!"Some({kbps})"

def classText (speed : Option SpeedClass) : String :=
  match speed with
  | none => "None"
  | some speed => s!"Some({speed.name})"

def startText (config : Config) : String :=
  s!"DEBUG checking I2C: SCL={config.clock.text}, SDA={config.data.text}, " ++
    s!"timing={classText config.speedClass?}, expected speed={speedText config.expectedSpeed}"

def recordText (record : Record) : String :=
  match record.finding with
  | .event _ => "INFO " ++ record.text
  | .violation _ => "ERROR " ++ record.text

/-- The log line of an entry. What is asked of the bus is not logged, nor is the edge itself. -/
def logLine? : Entry → Option String
  | started config => some (startText config)
  | waited _ => none
  | drove _ _ => none
  | moved transition =>
    some s!"TRACE {transition.line.text} -> {levelText transition.level} @ {transition.time}"
  | committed _ => none
  | entered source target time => some s!"TRACE state: {source.name} -> {target.name} @ {time}"
  | recorded record => some (recordText record)
  | stretchBegan time => some s!"TRACE start clock stretch @ {time}"
  | stretchEnded time => some s!"TRACE end clock stretch @ {time}"
  | ended .closed time => some s!"DEBUG line bus closed @ {time}"
  | ended error _ => some s!"WARN checker stopped: {error.message}"

end Entry

namespace Journal

/-- Every record ever pushed, newest first. -/
def pushed (journal : Journal) : List Record := journal.filterMap Entry.record?

def recordLog (journal : Journal) : RecordLog := RecordLog.ofNewestFirst (pushed journal)

def logLines (journal : Journal) : List String := (journal.filterMap Entry.logLine?).reverse

end Journal
end TwoWire
