import TwoWire.Checker.Arrival
import TwoWire.Checker.Basic

/-! What a reaction to an edge leaves as it was: the bus's time and work, the peer, the committed
levels and, but for a few edges, the stretch and our drives. -/

namespace TwoWire.Checker

variable {β : Type} [LineBus β]

theorem report_ok {before after : Checker β} {notes : List Note}
    (h : before.report notes = .ok () after) :
    after = { before with probe := { before.probe with journal := after.probe.journal } } := by
  induction notes generalizing before with
  | nil =>
    cases h
    rfl
  | cons note rest ih =>
    cases note with
    | overflow => cases h
    | found finding =>
      have told := @ih (before.note (.recorded ⟨before.now, before.protocol.phase, finding⟩)) h
      exact told

structure Entered (before : Checker β) (arrival : Arrival) (forced? : Option Phase)
    (after : Checker β) : Prop where
  still : Probe.Still before.probe after.probe
  stretch : after.probe.stretch = before.probe.stretch
  protocol : after.protocol = arrival.protocol
  forced : forced? = arrival.forced?
  lines : after.probe.lines = match arrival.drive? with
    | none => before.probe.lines
    | some level => before.probe.lines.setWeak .data level

theorem drive_ok {before after : Checker β} {line : Line} {level : Bool}
    (h : before.drive line level = .ok () after) :
    Probe.Still before.probe after.probe ∧ after.probe.stretch = before.probe.stretch ∧
      after.protocol = before.protocol ∧
        after.probe.lines = before.probe.lines.setWeak line level := by
  unfold drive at h
  have still := before.probe.still_drive line level
  have stretch := before.probe.stretch_drive line level
  have lines := before.probe.lines_drive line level
  cases driven : before.probe.drive line level with
  | fail _ _ =>
    rw [driven] at h
    cases h
  | ok _ probe =>
    rw [driven] at h still stretch lines
    cases h
    exact ⟨still, stretch, rfl, lines⟩

theorem enter_ok {before after : Checker β} {sight : Sight} {phase : Phase}
    {forced? : Option Phase} (h : before.enter sight phase = .ok forced? after) :
    Entered before (before.protocol.enter (before.view sight) phase) forced? after := by
  unfold enter at h
  dsimp only at h
  generalize arrived : before.protocol.enter (before.view sight) phase = arrival at h ⊢
  generalize noted : ({ before.note (.entered before.protocol.phase phase before.now) with
    protocol := arrival.protocol } : Checker β) = checker at h
  cases reported : checker.report arrival.notes with
  | fail _ _ =>
    rw [reported] at h
    cases h
  | ok _ told =>
    rw [reported, Outcome.andThen_ok] at h
    have same := report_ok reported
    subst noted
    cases drive : arrival.drive? with
    | none =>
      rw [drive] at h
      cases h
      rw [same]
      exact ⟨⟨rfl, rfl, fun _ => rfl, rfl, fun _ => rfl⟩, rfl, rfl, rfl, by rw [drive]; rfl⟩
    | some level =>
      rw [drive] at h
      cases driven : told.drive .data level with
      | fail _ _ =>
        rw [driveData, driven] at h
        cases h
      | ok _ after =>
        rw [driveData, driven] at h
        cases h
        obtain ⟨still, stretch, protocol, lines⟩ := drive_ok driven
        rw [same] at still stretch protocol lines
        exact ⟨⟨still.work, still.now, still.peer, still.detector, still.id⟩, stretch, protocol,
          rfl, by rw [drive]; exact lines⟩

structure Followed (before : Checker β) (sight : Sight) (phase : Phase) (after : Checker β) :
    Prop where
  still : Probe.Still before.probe after.probe
  stretch : after.probe.stretch = before.probe.stretch
  lines : after.probe.lines = match (before.protocol.enter (before.view sight) phase).drive? with
    | none => before.probe.lines
    | some level => before.probe.lines.setWeak .data level
  protocol : match (before.protocol.enter (before.view sight) phase).forced? with
    | none => after.protocol = (before.protocol.enter (before.view sight) phase).protocol
    | some forced => after.protocol.phase = forced

theorem follow_ok {before after : Checker β} {sight : Sight} {phase : Phase}
    (h : before.follow sight phase = .ok () after) : Followed before sight phase after := by
  unfold follow at h
  cases first : before.enter sight phase with
  | fail _ _ =>
    rw [first] at h
    cases h
  | ok forced? middle =>
    rw [first, Outcome.andThen_ok] at h
    obtain ⟨still, stretch, protocol, rfl, lines⟩ := enter_ok first
    cases forced : (before.protocol.enter (before.view sight) phase).forced? with
    | none =>
      rw [forced] at h
      cases h
      exact ⟨still, stretch, lines, by rw [forced]; exact protocol⟩
    | some next =>
      rw [forced] at h
      dsimp only at h
      cases second : middle.enter sight next with
      | fail _ _ =>
        rw [second] at h
        cases h
      | ok _ last =>
        rw [second] at h
        cases h
        obtain ⟨still', stretch', protocol', -, lines'⟩ := enter_ok second
        rw [Protocol.drive?_enter _ _ (Protocol.rests_of_forced forced).2] at lines'
        refine ⟨still.trans still', stretch'.trans stretch, lines'.trans lines, ?_⟩
        rw [forced]
        dsimp only
        rw [protocol', Protocol.phase_enter]

def Fell (checker : Checker β) (change : Change) : Prop :=
  change.line = .clock ∧ checker.probe.detector.clock.level = false

structure Clocked (before : Checker β) (change : Change) (after : Checker β) : Prop where
  still : Probe.Still before.probe after.probe
  weakData : after.probe.lines.weakData = before.probe.lines.weakData
  weakClock : after.probe.lines.weakClock = before.probe.lines.weakClock ∨
    Fell before change ∧ after.probe.lines.weakClock = false
  stretch : ¬Fell before change → after.probe.stretch = before.probe.stretch
  protocol : { after.protocol with meter := before.protocol.meter } = before.protocol

theorem clockFell_ok {before after : Checker β} {change : Change} (fell : Fell before change)
    (h : before.clockFell change.time = .ok () after) : Clocked before change after := by
  unfold clockFell at h
  dsimp only at h
  split at h
  case isFalse =>
    cases h
    exact ⟨⟨rfl, rfl, fun _ => rfl, rfl, fun _ => rfl⟩, rfl, .inl rfl, fun rose => absurd fell rose,
      rfl⟩
  case isTrue =>
    generalize begun : ({ before with
      protocol := { before.protocol with meter := before.protocol.meter.clockFell change.time }
      probe := { before.probe with stretch := before.probe.stretch.begin change.time } } :
        Checker β) = checker at h
    cases driven : checker.drive .clock false with
    | fail _ _ =>
      rw [driven] at h
      cases h
    | ok _ low =>
      rw [driven] at h
      cases h
      obtain ⟨still, -, protocol, lines⟩ := drive_ok driven
      subst begun
      refine ⟨⟨still.work, still.now, still.peer, still.detector, still.id⟩, ?_,
        .inr ⟨fell, ?_⟩, fun rose => absurd fell rose, ?_⟩
      · have weakData := congrArg Lines.weakData lines
        exact weakData
      · have weakClock := congrArg Lines.weakClock lines
        exact weakClock
      · have same := congrArg (fun protocol : Protocol =>
          { protocol with meter := before.protocol.meter }) protocol
        exact same

theorem clockEdge_ok {before after : Checker β} {change : Change}
    (h : before.clockEdge change = .ok () after) : Clocked before change after := by
  unfold clockEdge at h
  split at h
  case isTrue fell => exact clockFell_ok fell h
  case isFalse =>
    cases h
    exact ⟨.refl _, rfl, .inl rfl, fun _ => rfl, rfl⟩

theorem react_ok {before after : Checker β} {change : Change}
    (h : before.react change = .ok () after) :
    ∃ middle, Clocked before change middle ∧
      Followed middle change.sight
        (middle.protocol.successor middle.probe.detector change.line) after := by
  unfold react at h
  cases reported : before.report
      (before.protocol.edgeNotes (before.view change.sight) change.edge) with
  | fail _ _ =>
    rw [reported] at h
    cases h
  | ok _ judged =>
    rw [reported, Outcome.andThen_ok] at h
    have first := report_ok reported
    cases clocked : judged.clockEdge change with
    | fail _ _ =>
      rw [clocked] at h
      cases h
    | ok _ middle =>
      rw [clocked, Outcome.andThen_ok] at h
      cases told : middle.report (simultaneousNotes change.edge) with
      | fail _ _ =>
        rw [told] at h
        cases h
      | ok _ last =>
        rw [told, Outcome.andThen_ok] at h
        have second := report_ok told
        refine ⟨last, ?_, follow_ok h⟩
        obtain ⟨still, weakData, weakClock, stretch, protocol⟩ := clockEdge_ok clocked
        rw [first] at still weakData weakClock stretch protocol
        rw [second]
        exact ⟨⟨still.work, still.now, still.peer, still.detector, still.id⟩, weakData, weakClock,
          stretch, protocol⟩

end TwoWire.Checker
