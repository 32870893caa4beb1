import TwoWire.Checker.Protocol
import TwoWire.Probe.Watch

/-! The checker: a probe on the bus and the protocol's state. Between two waits it reacts to one
edge. -/

namespace TwoWire

structure Checker (β : Type) where
  config : Config
  probe : Probe β
  protocol : Protocol

namespace Checker

variable {β : Type}

def ofConfig (config : Config) (bus : β) : Except ConfigError (Checker β) :=
  config.check.map fun responses =>
    { config
      probe :=
        { bus
          lines := { clock := config.clock, data := config.data }
          stretch := { duration := config.clockStretch } }
      protocol := .ofConfig config responses }

def recordLog (checker : Checker β) : RecordLog := checker.probe.journal.recordLog

variable [LineBus β]

def now (checker : Checker β) : Nat := checker.probe.now

def note (checker : Checker β) (entry : Entry) : Checker β :=
  { checker with probe := checker.probe.note entry }

def view (checker : Checker β) (sight : Sight) : View :=
  ⟨sight, checker.probe.lines, checker.probe.detector⟩

def drive (checker : Checker β) (line : Line) (level : Bool) : Outcome (Checker β) Unit :=
  (checker.probe.drive line level).mapState fun probe => { checker with probe }

def await (checker : Checker β) : Outcome (Checker β) Change :=
  checker.probe.awaitChange.mapState fun probe => { checker with probe }

/-- Report in order. An interval that cannot be measured ends the run. -/
def report (checker : Checker β) : List Note → Outcome (Checker β) Unit
  | [] => .ok () checker
  | .overflow kind :: _ => .fail (.overflow kind) checker
  | .found finding :: rest =>
    (checker.note (.recorded ⟨checker.now, checker.protocol.phase, finding⟩)).report rest

def driveData (checker : Checker β) : Option Bool → Outcome (Checker β) Unit
  | none => .ok () checker
  | some level => checker.drive .data level

/-- Enter a phase; the answer is the phase forced by it. -/
def enter (checker : Checker β) (sight : Sight) (phase : Phase) :
    Outcome (Checker β) (Option Phase) :=
  let arrival := checker.protocol.enter (checker.view sight) phase
  let noted := checker.note (.entered checker.protocol.phase phase checker.now)
  ({ noted with protocol := arrival.protocol }.report arrival.notes).andThen fun _ checker =>
    (checker.driveData arrival.drive?).andThen fun _ checker => .ok arrival.forced? checker

/-- Enter a phase and the one it forces. A forced phase forces nothing further. -/
def follow (checker : Checker β) (sight : Sight) (phase : Phase) : Outcome (Checker β) Unit :=
  (checker.enter sight phase).andThen fun forced? checker =>
    match forced? with
    | none => .ok () checker
    | some forced => (checker.enter sight forced).andThen fun _ checker => .ok () checker

/-- The clock fell: measure the pulse, and hold the clock low if it is to be stretched. -/
def clockFell (checker : Checker β) (time : Nat) : Outcome (Checker β) Unit :=
  let measured := { checker.protocol with meter := checker.protocol.meter.clockFell time }
  let stretch := checker.probe.stretch.begin time
  let begun := { checker with protocol := measured, probe := { checker.probe with stretch } }
  if stretch.isEnabled then
    (begun.drive .clock false).andThen fun _ checker =>
      .ok () (checker.note (.stretchBegan time))
  else .ok () begun

def clockEdge (checker : Checker β) (change : Change) : Outcome (Checker β) Unit :=
  if change.line = .clock ∧ checker.probe.detector.clock.level = false then
    checker.clockFell change.time
  else .ok () checker

def simultaneousNotes (edge : Edge) : List Note :=
  if edge = .simultaneous then [.fault .simultaneousEdges] else []

def react (checker : Checker β) (change : Change) : Outcome (Checker β) Unit :=
  (checker.report (checker.protocol.edgeNotes (checker.view change.sight) change.edge)).andThen
    fun _ checker => (checker.clockEdge change).andThen
    fun _ checker => (checker.report (simultaneousNotes change.edge)).andThen
    fun _ checker => checker.follow change.sight
      (checker.protocol.successor checker.probe.detector change.line)

def step (checker : Checker β) : Outcome (Checker β) Unit :=
  checker.await.andThen fun change checker => checker.react change

end Checker
end TwoWire
