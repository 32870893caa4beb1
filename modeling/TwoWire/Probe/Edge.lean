import TwoWire.Probe.Lines

/-! Edges. When both lines have moved only the clock is committed, so the data line's move is the
next edge, at the same instant. -/

namespace TwoWire

structure LineSample where
  level : Bool := true
  changedAt : Option Nat := none
  previousChange : Option Nat := none
  deriving DecidableEq, Repr

def LineSample.commit (sample : LineSample) (level : Bool) (time : Nat) : LineSample where
  level
  changedAt := some time
  previousChange := sample.changedAt

inductive Edge
  | clock
  | data
  /-- Both lines moved, and the clock was committed. -/
  | simultaneous
  deriving DecidableEq, Repr

def Edge.line : Edge → Line
  | clock => .clock
  | data => .data
  | simultaneous => .clock

structure Change where
  edge : Edge
  sight : Sight
  deriving DecidableEq, Repr

namespace Change

def time (change : Change) : Nat := change.sight.now

def line (change : Change) : Line := change.edge.line

end Change

structure EdgeDetector where
  clock : LineSample := {}
  data : LineSample := {}
  deriving DecidableEq, Repr

namespace EdgeDetector

def prime (detector : EdgeDetector) (clock data : Bool) : EdgeDetector where
  clock := { detector.clock with level := clock }
  data := { detector.data with level := data }

def sample (detector : EdgeDetector) : Line → LineSample
  | .clock => detector.clock
  | .data => detector.data

def edge? (detector : EdgeDetector) (lines : Lines) (sight : Sight) : Option Edge :=
  let clockMoved := lines.level sight .clock != detector.clock.level
  let dataMoved := lines.level sight .data != detector.data.level
  if clockMoved then some (if dataMoved then .simultaneous else .clock)
  else if dataMoved then some .data
  else none

def commit (detector : EdgeDetector) (lines : Lines) (sight : Sight) (line : Line) :
    EdgeDetector :=
  match line with
  | .clock =>
    { detector with clock := detector.clock.commit (lines.level sight .clock) sight.now }
  | .data => { detector with data := detector.data.commit (lines.level sight .data) sight.now }

end EdgeDetector
end TwoWire
