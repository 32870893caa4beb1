import TwoWire.Proofs.Framing

/-! Passages of a run: turns that go through, one after the other. Each replies to an edge or waits,
and `replied_or_waited` says all that either does. -/

namespace TwoWire.Checker

variable {β : Type} [LineBus β]

/-- Turns that go through, with what they report and the phases that they enter. -/
inductive Passes : Checker β → List Finding → List Phase → Checker β → Prop
  | none (checker : Checker β) : Passes checker [] [] checker
  | turn {first before next : Checker β} {told : List Finding} {entered : List Phase}
      (early : Passes first told entered before) (turned : before.turn = .ok next) :
      Passes first (told ++ before.reported) (entered ++ before.entered) next

theorem turned_of_turn {before next : Checker β} (turned : before.turn = .ok next) :
    before.turned = next := by
  unfold Checker.turned
  rw [turned]

theorem turns_succ {first before next : Checker β} {n : Nat} (early : first.turns n = .ok before)
    (turned : before.turn = .ok next) : first.turns (n + 1) = .ok next := by
  induction n generalizing first with
  | zero =>
    cases early
    unfold turns
    rw [turned]
    rfl
  | succ n ih =>
    unfold turns at early ⊢
    cases began : first.turn with
    | ok second =>
      rw [began] at early
      exact ih early
    | error stopped =>
      rw [began] at early
      cases early

theorem Passes.turns_after {ready first next : Checker β} {told : List Finding}
    {entered : List Phase} {n : Nat} (passes : first.Passes told entered next)
    (run : ready.turns n = .ok first) : ∃ m, ready.turns m = .ok next := by
  induction passes with
  | none => exact ⟨n, run⟩
  | turn _ turned ih =>
    obtain ⟨m, run⟩ := ih
    exact ⟨m + 1, turns_succ run turned⟩

theorem Passes.turns {first next : Checker β} {told : List Finding} {entered : List Phase}
    (passes : first.Passes told entered next) : ∃ n, first.turns n = .ok next :=
  passes.turns_after (show first.turns 0 = .ok first from rfl)

theorem passes_of_turns {first next : Checker β} {n : Nat} (run : first.turns n = .ok next) :
    ∃ told entered, first.Passes told entered next := by
  induction n generalizing next with
  | zero =>
    cases run
    exact ⟨[], [], .none first⟩
  | succ n ih =>
    obtain ⟨before, run, turned⟩ := exists_of_turns_succ run
    obtain ⟨told, entered, passes⟩ := ih run
    exact ⟨_, _, passes.turn turned⟩

theorem Passes.findings {first next : Checker β} {told : List Finding} {entered : List Phase}
    (passes : first.Passes told entered next) : next.findings = first.findings ++ told := by
  induction passes with
  | none => exact (List.append_nil _).symm
  | turn _ turned ih =>
    rw [← turned_of_turn turned, findings_turned, ih, List.append_assoc]

theorem phases_turned (checker : Checker β) :
    checker.turned.phases = checker.phases ++ checker.entered := by
  have grows : ∃ entered, checker.turned.phases = checker.phases ++ entered := by
    rcases checker.commits_or_silent with ⟨change, committed, commits⟩ | ⟨silent, -⟩
    · obtain ⟨notes, _, -, -, entered, -⟩ := extent_turn commits
      exact ⟨_, entered⟩
    · exact ⟨[], (Journal.phases_of_silent silent).trans (List.append_nil _).symm⟩
  obtain ⟨entered, grown⟩ := grows
  unfold Checker.entered
  rw [grown, List.drop_left]

theorem Passes.phases {first next : Checker β} {told : List Finding} {entered : List Phase}
    (passes : first.Passes told entered next) : next.phases = first.phases ++ entered := by
  induction passes with
  | none => exact (List.append_nil _).symm
  | turn _ turned ih =>
    rw [← turned_of_turn turned, phases_turned, ih, List.append_assoc]

theorem Passes.grown {first next : Checker β} {told : List Finding} {entered : List Phase}
    (passes : first.Passes told entered next) :
    next.findings.drop first.findings.length = told ∧
      next.phases.drop first.phases.length = entered := by
  rw [passes.findings, passes.phases, List.drop_left, List.drop_left]
  exact ⟨rfl, rfl⟩

theorem Passes.append {first middle next : Checker β} {early late : List Finding}
    {before after : List Phase} (left : first.Passes early before middle)
    (right : middle.Passes late after next) :
    first.Passes (early ++ late) (before ++ after) next := by
  induction right with
  | none => rwa [List.append_nil, List.append_nil]
  | turn _ turned ih =>
    rw [← List.append_assoc, ← List.append_assoc]
    exact ih.turn turned

def reply (checker : Checker β) (change : Change) : Arrival :=
  checker.protocol.answer checker.probe.stretch.isEnabled (checker.sees change) change.edge

structure Replied (before : Checker β) (change : Change) (next : Checker β) : Prop where
  detector : next.probe.detector = (before.sees change).detector
  protocol : next.protocol = (before.reply change).protocol
  weakData : next.weakData = ((before.reply change).drive?).getD before.weakData
  reported : before.reported = Note.findings (before.reply change).notes
  entered : before.entered = before.protocol.entries before.probe.stretch.isEnabled
    (before.sees change) change.edge
  calm : next.probe.differs .clock = false

structure Waited (before next : Checker β) : Prop where
  calm : ∀ line, before.probe.differs line = false
  detector : next.probe.detector = before.probe.detector
  protocol : next.protocol = before.protocol
  weakData : next.weakData = before.weakData
  reported : before.reported = []
  entered : before.entered = []

theorem level?_of_commits {probe committed : Probe β} {change : Change}
    (commits : probe.Commits change committed) :
    committed.level? .clock = some committed.detector.clock.level := by
  cases line : change.line with
  | clock =>
    have level := commits.level?
    rwa [line] at level
  | data =>
    have same : committed.level? .clock = probe.level? .clock := by rw [commits.after]; rfl
    have calm := (Probe.differs_of_edge commits.look commits.edge).2 line
    rw [Probe.differs_of_look commits.look, bne_eq_false_iff_eq] at calm
    rw [same, Probe.level?_of_look commits.look, calm, commits.sample_clock line]
    rfl

theorem replied_of_react {before next : Checker β} {change : Change} {committed : Probe β}
    (commits : before.probe.Commits change committed) (turned : before.turn = .ok next)
    (react : ({ before with probe := committed } : Checker β).react change = .ok () next) :
    Replied before change next := by
  have answered := answered react
  have view := view_of_commits commits
  have stretch : committed.stretch = before.probe.stretch := by rw [commits.after]; rfl
  have lines := answered.lines
  have findings := answered.findings
  have protocol := answered.protocol
  dsimp only at lines findings protocol
  rw [view, stretch] at lines findings protocol
  refine ⟨?_, protocol, ?_, ?_, ?_, (reacted react).differs_clock (level?_of_commits commits)⟩
  · rw [answered.still.detector, commits.after]
    rfl
  · unfold weakData reply
    rw [lines]
    cases (before.protocol.answer before.probe.stretch.isEnabled (before.sees change)
      change.edge).drive? with
    | none =>
      unfold View.driven View.held
      dsimp only
      split <;> rfl
    | some level => rfl
  · have quiet : ({ before with probe := committed } : Checker β).findings = before.findings := by
      change committed.findings = before.probe.findings
      rw [commits.after]
      exact Journal.findings_cons_of_none rfl _
    unfold reported
    rw [turned_of_turn turned, findings, quiet, List.drop_left]
    rfl
  · obtain ⟨notes, error?, extent, -, ends⟩ := extent_of_commits commits
    cases error? with
    | none => exact (Protocol.trail_of_extent extent).2
    | some error =>
      obtain ⟨stopped, fails⟩ := ends error rfl
      cases turned.symm.trans fails

theorem weakData_pause {probe woken : Probe β} (paused : probe.pause = .ok () woken) :
    woken.lines.weakData = probe.lines.weakData := by
  unfold Probe.pause at paused
  dsimp only at paused
  obtain ⟨_, early, wake, refreshing⟩ := Outcome.of_andThen paused
  have refreshed := early.refreshed_refresh
  rw [refreshing] at refreshed
  refine (congrArg Lines.weakData refreshed.lines).trans ?_
  split at wake
  case isFalse =>
    obtain ⟨bus, -, rfl⟩ := Probe.wait_ok wake
    rfl
  case isTrue =>
    obtain ⟨_, late, waited, wake⟩ := Outcome.of_andThen wake
    obtain ⟨bus, -, rfl⟩ := Probe.wait_ok waited
    unfold Probe.releaseWhenDue at wake
    split at wake
    case isFalse =>
      cases wake
      rfl
    case isTrue =>
      have lines := (probe.called (.waited .cycle) bus).lines_drive .clock true
      obtain ⟨_, free, driven, wake⟩ := Outcome.of_andThen wake
      rw [driven, Outcome.state_ok] at lines
      cases wake
      change free.lines.weakData = probe.lines.weakData
      rw [lines]
      rfl

/-- A turn that goes through replies to the edge that shows, or waits if none does. -/
theorem replied_or_waited {before next : Checker β} (turned : before.turn = .ok next) :
    (∃ change committed, before.probe.Commits change committed ∧ Replied before change next) ∨
      Waited before next := by
  have whole := turned
  unfold turn at turned
  split at turned
  case h_1 => cases turned
  case h_2 sight look =>
    split at turned
    case h_1 edge seen =>
      have commits : before.probe.Commits ⟨edge, sight⟩ (before.probe.commit sight edge) :=
        ⟨look, seen, rfl⟩
      exact .inl ⟨_, _, commits,
        replied_of_react commits whole (Outcome.eq_ok_of_verdict turned)⟩
    case h_2 unseen =>
      cases paused : before.probe.pause with
      | fail error woken =>
        rw [paused] at turned
        cases turned
      | ok _ woken =>
        have silent := before.probe.silent_pause
        rw [paused] at turned silent
        cases turned
        have quiet : before.probe.Silent before.turned.probe := by
          rw [turned_of_turn whole]
          exact silent
        exact .inr ⟨Probe.not_differs_of_no_edge look unseen, Probe.detector_pause paused, rfl,
          weakData_pause paused, reported_of_silent quiet, entered_of_silent quiet⟩

theorem Waited.not_commits {before next : Checker β} {change : Change} {committed : Probe β}
    (waited : Waited before next) : ¬before.probe.Commits change committed := by
  intro commits
  have differs := (Probe.differs_of_edge commits.look commits.edge).1
  rw [waited.calm] at differs
  cases differs

theorem Replied.moved {before next : Checker β} {change : Change} {committed : Probe β}
    (replied : Replied before change next) (commits : before.probe.Commits change committed) :
    before.probe.detector.Moved next.probe.detector change.edge.line := by
  rw [replied.detector]
  exact moved_of_commits commits

end TwoWire.Checker
