import TwoWire.Probe.Stretch
import TwoWire.Probe.Journal

/-! A probe: a bus with our side of its lines, the committed levels and the pending stretch.
Whatever it asks of the bus goes into its journal. -/

namespace TwoWire

structure Probe (β : Type) where
  bus : β
  lines : Lines
  detector : EdgeDetector := {}
  stretch : ClockStretch := {}
  journal : Journal := []

namespace Probe

variable {β : Type} [LineBus β]

def note (probe : Probe β) (entry : Entry) : Probe β :=
  { probe with journal := entry :: probe.journal }

def now (probe : Probe β) : Nat := LineBus.now probe.bus

/-- The bus after a call, with the call and what then moved on the lines in the journal. -/
def called (probe : Probe β) (entry : Entry) (bus : β) : Probe β :=
  let seen := (LineBus.moves probe.bus).size
  let moves := LineBus.moves bus
  let fresh := (moves.extract seen moves.size).toList.map Entry.moved
  { probe with bus, journal := fresh.reverse ++ entry :: probe.journal }

def wait (probe : Probe β) (kind : WaitKind) : Outcome (Probe β) Unit :=
  (LineBus.wait probe.bus kind).mapState (probe.called (.waited kind))

/-- Drive a line and remember it; it is remembered even if the bus refuses the drive. -/
def drive (probe : Probe β) (line : Line) (level : Bool) : Outcome (Probe β) Unit :=
  let lines := probe.lines.setWeak line level
  (LineBus.drive probe.bus (lines.id line) level).mapState
    ({ probe with lines }.called (.drove line level))

def look (probe : Probe β) : Except BusError Sight := probe.lines.look probe.bus

def refreshLine (probe : Probe β) (line : Line) : Outcome (Probe β) Unit :=
  match LineBus.isDriven probe.bus (probe.lines.id line) with
  | .error error => .fail error probe
  | .ok true => .ok () probe
  | .ok false => probe.drive line (probe.lines.weak line)

def refresh (probe : Probe β) : Outcome (Probe β) Unit :=
  (probe.refreshLine .clock).andThen fun _ probe => probe.refreshLine .data

def releaseWhenDue (probe : Probe β) : Outcome (Probe β) Unit :=
  if probe.stretch.isDue probe.now then
    (probe.drive .clock true).andThen fun _ probe =>
      .ok () ({ probe with stretch := probe.stretch.release }.note (.stretchEnded probe.now))
  else .ok () probe

/-- One wake-up. While a stretch is pending the bus is followed cycle by cycle, so that the clock
is let go in time. -/
def pause (probe : Probe β) : Outcome (Probe β) Unit :=
  let woken :=
    if probe.stretch.isPending then
      (probe.wait .cycle).andThen fun _ probe => probe.releaseWhenDue
    else probe.wait .change
  woken.andThen fun _ probe => probe.refresh

def commit (probe : Probe β) (sight : Sight) (edge : Edge) : Probe β :=
  { probe with detector := probe.detector.commit probe.lines sight edge.line }.note
    (.committed ⟨edge, sight⟩)

end Probe
end TwoWire
