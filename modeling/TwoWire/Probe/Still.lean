import TwoWire.Probe.Basic

/-! What a drive of ours leaves as it was: the time, the peer, the work left, the committed levels
and the stretch. -/

namespace TwoWire

namespace Lines

@[simp] theorem id_setWeak (lines : Lines) (line : Line) (level : Bool) (other : Line) :
    (lines.setWeak line level).id other = lines.id other := by
  cases line <;> cases other <;> rfl

@[simp] theorem weak_setWeak_self (lines : Lines) (line : Line) (level : Bool) :
    (lines.setWeak line level).weak line = level := by
  cases line <;> rfl

theorem setWeak_weak (lines : Lines) (line : Line) :
    lines.setWeak line (lines.weak line) = lines := by
  cases line <;> rfl

end Lines

namespace Probe

variable {β : Type} [LineBus β]

structure Still (before after : Probe β) : Prop where
  work : LineBus.work after.bus = LineBus.work before.bus
  now : after.now = before.now
  peer : ∀ id, LineBus.peer? after.bus id = LineBus.peer? before.bus id
  detector : after.detector = before.detector
  id : ∀ line, after.lines.id line = before.lines.id line

theorem Still.refl (probe : Probe β) : Still probe probe :=
  ⟨rfl, rfl, fun _ => rfl, rfl, fun _ => rfl⟩

theorem Still.trans {a b c : Probe β} (first : Still a b) (second : Still b c) : Still a c where
  work := second.work.trans first.work
  now := second.now.trans first.now
  peer id := (second.peer id).trans (first.peer id)
  detector := second.detector.trans first.detector
  id line := (second.id line).trans (first.id line)

theorem lines_drive (probe : Probe β) (line : Line) (level : Bool) :
    (probe.drive line level).state.lines = probe.lines.setWeak line level := by
  unfold drive
  rw [Outcome.state_mapState]
  rfl

theorem stretch_drive (probe : Probe β) (line : Line) (level : Bool) :
    (probe.drive line level).state.stretch = probe.stretch := by
  unfold drive
  rw [Outcome.state_mapState]
  rfl

theorem still_drive (probe : Probe β) (line : Line) (level : Bool) :
    Still probe (probe.drive line level).state := by
  constructor
  case id => exact fun other => by rw [lines_drive, Lines.id_setWeak]
  all_goals
    unfold drive
    rw [Outcome.state_mapState]
  case work => exact LineBus.drive_work probe.bus _ level
  case now => exact LineBus.drive_now probe.bus _ level
  case peer => exact LineBus.drive_peer probe.bus _ level
  case detector => rfl

structure Refreshed (before after : Probe β) : Prop where
  still : Still before after
  lines : after.lines = before.lines
  stretch : after.stretch = before.stretch

theorem Refreshed.trans {a b c : Probe β} (first : Refreshed a b) (second : Refreshed b c) :
    Refreshed a c where
  still := first.still.trans second.still
  lines := second.lines.trans first.lines
  stretch := second.stretch.trans first.stretch

theorem refreshed_refreshLine (probe : Probe β) (line : Line) :
    Refreshed probe (probe.refreshLine line).state := by
  unfold refreshLine
  split
  · exact ⟨.refl probe, rfl, rfl⟩
  · exact ⟨.refl probe, rfl, rfl⟩
  · refine ⟨still_drive .., ?_, stretch_drive ..⟩
    rw [lines_drive, Lines.setWeak_weak]

theorem refreshed_refresh (probe : Probe β) : Refreshed probe probe.refresh.state := by
  unfold refresh
  have clock := probe.refreshed_refreshLine .clock
  cases h : probe.refreshLine .clock with
  | ok _ woken =>
    rw [h] at clock
    exact clock.trans (woken.refreshed_refreshLine .data)
  | fail _ _ =>
    rw [h] at clock
    exact clock

theorem wait_ok {probe after : Probe β} {kind : WaitKind} (h : probe.wait kind = .ok () after) :
    ∃ bus, LineBus.wait probe.bus kind = .ok () bus ∧ after = probe.called (.waited kind) bus := by
  unfold wait at h
  cases reached : LineBus.wait probe.bus kind with
  | ok _ bus =>
    rw [reached] at h
    cases h
    exact ⟨bus, rfl, rfl⟩
  | fail _ _ =>
    rw [reached] at h
    cases h

end Probe
end TwoWire
