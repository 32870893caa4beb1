import TwoWire.Report.Record

/-! The most recent records. When the log is full the oldest gives way and the loss is counted for
good. -/

namespace TwoWire

structure RecordLog where
  /-- Newest first. -/
  held : List Record := []
  lost : Nat := 0
  deriving DecidableEq, Repr

namespace RecordLog

def capacity : Nat := 512

def empty : RecordLog := {}

def size (log : RecordLog) : Nat := log.held.length

def isEmpty (log : RecordLog) : Bool := log.held.isEmpty

def push (log : RecordLog) (record : Record) : RecordLog where
  held := (record :: log.held).take capacity
  lost := if log.size = capacity then min (log.lost + 1) (UInt32.size - 1) else log.lost

/-- Oldest first. -/
def records (log : RecordLog) : List Record := log.held.reverse

def oldest? (log : RecordLog) : Option Record := log.held.getLast?

def newest? (log : RecordLog) : Option Record := log.held.head?

def violations (log : RecordLog) : List Violation := log.records.filterMap Record.violation?

def events (log : RecordLog) : List Event := log.records.filterMap Record.event?

def lines (log : RecordLog) : List String := log.records.map Record.text

def clear (log : RecordLog) : RecordLog := { log with held := [] }

def drain (log : RecordLog) : List Record × RecordLog := (log.records, log.clear)

def summary (log : RecordLog) : String :=
  s!"RecordLog \x7b len: {log.size}, overflow_count: {log.lost} \x7d"

def ofNewestFirst (records : List Record) : RecordLog :=
  records.foldr (fun record log => log.push record) empty

end RecordLog
end TwoWire
