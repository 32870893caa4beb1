import TwoWire.Probe.Still

/-! Waiting for an idle bus. Each wake-up takes work off the bus, so both lines come up or the bus
fails. -/

namespace TwoWire.Probe

variable {β : Type} [LineBus β]

theorem wait_change_refresh_work {probe after : Probe β}
    (h : ((probe.wait .change).andThen fun _ probe => probe.refresh) = .ok () after) :
    LineBus.work after.bus < LineBus.work probe.bus := by
  cases waited : probe.wait .change with
  | fail _ _ =>
    rw [waited] at h
    cases h
  | ok _ woken =>
    rw [waited, Outcome.andThen_ok] at h
    obtain ⟨bus, reached, rfl⟩ := wait_ok waited
    have refreshed := (probe.called (.waited .change) bus).refreshed_refresh
    rw [h] at refreshed
    exact refreshed.still.work ▸ LineBus.wait_change_work reached

def awaitIdle (probe : Probe β) : Outcome (Probe β) Unit :=
  match probe.look with
  | .error error => .fail error probe
  | .ok sight =>
    if probe.lines.level sight .clock && probe.lines.level sight .data then
      .ok () { probe with detector := probe.detector.prime true true }
    else
      match _ : (probe.wait .change).andThen fun _ probe => probe.refresh with
      | .fail error woken => .fail error woken
      | .ok _ woken => woken.awaitIdle
termination_by LineBus.work probe.bus
decreasing_by exact wait_change_refresh_work ‹_›

/-- Let go of both lines, pass over the glitches at the start and wait for an idle bus. -/
def settle (probe : Probe β) (time : Nat) : Outcome (Probe β) Unit :=
  (probe.drive .clock true).andThen fun _ probe =>
    (probe.drive .data true).andThen fun _ probe =>
      (probe.wait (.instant time)).andThen fun _ probe => probe.awaitIdle

end TwoWire.Probe
