import TwoWire.Checker.Progress
import TwoWire.Probe.Idle

/-! Runs: waiting for an idle bus, and then one reaction after the other until the bus fails. -/

namespace TwoWire.Checker

variable {β : Type} [LineBus β]

def startUp (checker : Checker β) : Outcome (Checker β) Unit :=
  (((checker.note (.started checker.config)).probe.settle checker.config.settleTime).mapState
    fun probe => { checker with probe }).andThen fun _ checker =>
      .ok () { checker with
        protocol := { checker.protocol with phase := .stopped, previous := .stopped } }

def watch (checker : Checker β) : BusError × Checker β :=
  match _ : checker.step with
  | .fail error stopped => (error, stopped)
  | .ok _ next => next.watch
termination_by checker.measure
decreasing_by exact step_lt ‹_›

/-- A run, from the idle bus to the failure that ends it. -/
def run (checker : Checker β) : BusError × Checker β :=
  let (error, stopped) :=
    match checker.startUp with
    | .fail error stopped => (error, stopped)
    | .ok _ ready => ready.watch
  (error, stopped.note (.ended error stopped.now))

end TwoWire.Checker
