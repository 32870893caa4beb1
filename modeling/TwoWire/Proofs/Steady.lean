import TwoWire.Proofs.Passage

/-! The data line as we drive it stays as it is from one fall of the clock to the next
(`weakData_of_unfallen`). -/

namespace TwoWire

namespace Protocol

variable {protocol : Protocol} {view : View} {before : EdgeDetector} {edge : Edge}

theorem holds_follow (protocol : Protocol) (view : View) (phase : Phase) (weakData : Bool) :
    (protocol.follow view phase).protocol.holds
      ((protocol.follow view phase).drive?.getD weakData) = true := by
  by_cases drives : Drives phase
  case neg =>
    refine holds_of_not_drives ?_ _
    cases forced : (protocol.enter view phase).forced? with
    | none =>
      rw [follow_of_settled forced, phase_enter]
      exact drives
    | some next =>
      rw [follow_of_forced forced]
      dsimp only
      rw [phase_enter]
      exact (rests_of_forced forced).2
  case pos =>
    rcases drives with rfl | rfl
    · rw [drive?_follow_driveBit, follow_driveBit]
      exact beq_self_eq_true _
    · rw [drive?_follow_driveAck]
      cases ours : protocol.acknowledging with
      | true =>
        rw [follow_driveAck_of_ours ours]
        rfl
      | false =>
        rw [follow_driveAck_of_theirs ours]
        unfold holds
        dsimp only
        rw [ours]
        rfl

theorem holds_answer (protocol : Protocol) (stretches : Bool) (view : View) (edge : Edge)
    (weakData : Bool) :
    (protocol.answer stretches view edge).protocol.holds
      ((protocol.answer stretches view edge).drive?.getD weakData) = true :=
  holds_follow ..

/-- An answer to anything but a fall of the clock leaves the data line as we drive it. -/
theorem weakData_answer {weakData : Bool} (stretches : Bool) (lasts : protocol.phase.Lasts before)
    (moved : before.Moved view.detector edge.line) (held : protocol.holds weakData = true)
    (unfallen : view.falls edge = false) :
    (protocol.answer stretches view edge).drive?.getD weakData = weakData := by
  have reached := reached_successor lasts moved
  have same : (protocol.answer stretches view edge).drive? =
      ((protocol.measured view edge).follow (view.held edge stretches)
        (protocol.successor view.detector edge.line)).drive? := rfl
  rw [same]
  by_cases drives : Drives (protocol.successor view.detector edge.line)
  case neg =>
    rw [drive?_follow_of_not_drives drives]
    rfl
  case pos =>
    have low : view.clock.level = false := by
      rcases drives with target | target <;> rw [target] at reached <;>
        exact reached.clock false rfl
    -- the clock is low and has not fallen, so the phase is entered again
    have line : edge.line = .data := by
      unfold View.falls at unfallen
      rw [low] at unfallen
      revert unfallen
      cases edge.line <;> decide
    rw [line] at drives ⊢
    have stay := phase_of_drives_successor drives
    rw [stay] at drives ⊢
    unfold holds at held
    rcases drives with phase | phase
    · rw [phase] at held ⊢
      rw [drive?_follow_driveBit, shifter_measured]
      exact (beq_iff_eq.mp held).symm
    · rw [phase] at held ⊢
      dsimp only at held
      rw [drive?_follow_driveAck]
      have theirs : (protocol.measured view edge).acknowledging = false := by
        unfold measured
        split <;> simp_all
      rw [theirs]
      simp_all

end Protocol

namespace Checker

variable {β : Type} [LineBus β]

/-- The next turn commits a fall of the clock. -/
def FallsNext (checker : Checker β) : Prop :=
  ∃ change committed, checker.probe.Commits change committed ∧ change.line = .clock ∧
    committed.detector.clock.level = false

inductive Unfallen : Checker β → Checker β → Prop
  | none (checker : Checker β) : Unfallen checker checker
  | turn {first before next : Checker β} (early : Unfallen first before)
      (unfallen : ¬before.FallsNext) (turned : before.turn = .ok next) : Unfallen first next

theorem commits_unique {probe committed other : Probe β} {change second : Change}
    (commits : probe.Commits change committed) (again : probe.Commits second other) :
    second = change := by
  have sight := Except.ok.inj (commits.look.symm.trans again.look)
  have edge := again.edge
  rw [← sight, commits.edge] at edge
  cases change
  cases second
  cases sight
  cases edge
  rfl

theorem falls_iff_fallsNext {checker : Checker β} {change : Change} {committed : Probe β}
    (commits : checker.probe.Commits change committed) :
    (checker.sees change).falls change.edge = true ↔ checker.FallsNext := by
  have same : (checker.sees change).falls change.edge = true ↔
      change.line = .clock ∧ committed.detector.clock.level = false := by
    rw [commits.after]
    unfold View.falls
    rw [Bool.and_eq_true, decide_eq_true_eq, Bool.not_eq_true']
    rfl
  rw [same]
  constructor
  · exact fun falls => ⟨change, committed, commits, falls⟩
  · rintro ⟨second, other, again, falls⟩
    cases commits_unique commits again
    rw [again.after] at falls
    rw [commits.after]
    exact falls

theorem not_fallsNext_of_low {checker : Checker β}
    (low : checker.probe.detector.clock.level = false) : ¬checker.FallsNext := by
  rintro ⟨change, committed, commits, line, fell⟩
  have moved := (moved_of_commits commits).moved
  rw [show change.edge.line = .clock from line] at moved
  change (checker.sees change).detector.clock.level = !checker.probe.detector.clock.level at moved
  rw [commits.after] at fell
  change (checker.sees change).detector.clock.level = false at fell
  rw [low, fell] at moved
  cases moved

theorem holds_turn {before next : Checker β} (turned : before.turn = .ok next)
    (held : before.protocol.holds before.weakData = true) :
    next.protocol.holds next.weakData = true := by
  rcases replied_or_waited turned with ⟨change, committed, -, replied⟩ | waited
  · rw [replied.protocol, replied.weakData]
    exact Protocol.holds_answer ..
  · rw [waited.protocol, waited.weakData]
    exact held

theorem holds_startUp {checker ready : Checker β} (idle : checker.startUp = .ok () ready) :
    ready.protocol.holds ready.weakData = true :=
  Protocol.holds_of_not_drives (by rw [phase_startUp idle]; decide) _

theorem holds_turns {checker ready between : Checker β} {n : Nat}
    (idle : checker.startUp = .ok () ready) (run : ready.turns n = .ok between) :
    between.protocol.holds between.weakData = true :=
  turns_induct (motive := fun checker => checker.protocol.holds checker.weakData = true)
    (holds_startUp idle) holds_turn run

theorem weakData_turn {before next : Checker β} (turned : before.turn = .ok next)
    (lasts : before.protocol.phase.Lasts before.probe.detector)
    (held : before.protocol.holds before.weakData = true) (unfallen : ¬before.FallsNext) :
    next.weakData = before.weakData := by
  rcases replied_or_waited turned with ⟨change, committed, commits, replied⟩ | waited
  · rw [replied.weakData]
    refine Protocol.weakData_answer _ lasts (moved_of_commits commits) held ?_
    rw [← Bool.not_eq_true, falls_iff_fallsNext commits]
    exact unfallen
  · exact waited.weakData

theorem Unfallen.turns {first ready later : Checker β} {n : Nat} (unfallen : first.Unfallen later)
    (run : ready.turns n = .ok first) : ∃ m, ready.turns m = .ok later := by
  induction unfallen with
  | none => exact ⟨n, run⟩
  | turn _ _ turned ih =>
    obtain ⟨m, run⟩ := ih
    exact ⟨m + 1, turns_succ run turned⟩

theorem weakData_of_unfallen {checker ready first later : Checker β} {n : Nat}
    (idle : checker.startUp = .ok () ready) (run : ready.turns n = .ok first)
    (unfallen : first.Unfallen later) : later.weakData = first.weakData := by
  induction unfallen with
  | none => rfl
  | turn early unfallen turned ih =>
    obtain ⟨m, run⟩ := early.turns run
    exact (weakData_turn turned (lasts_turns idle run) (holds_turns idle run) unfallen).trans
      ih

/-- While the clock is low there has been a fall of it, and none since. -/
theorem fallen_of_low {checker ready between : Checker β} {told : List Finding}
    {entered : List Phase} (idle : checker.startUp = .ok () ready)
    (passes : ready.Passes told entered between)
    (low : between.probe.detector.clock.level = false) :
    ∃ fallen next told entered, ready.Passes told entered fallen ∧ fallen.FallsNext ∧
      fallen.turn = .ok next ∧ next.Unfallen between := by
  induction passes with
  | none =>
    have high := (lasts_startUp idle).clock true (by rw [phase_startUp idle]; rfl)
    cases high.symm.trans low
  | @turn before next told entered early turned ih =>
    by_cases falls : before.FallsNext
    · exact ⟨before, next, told, entered, early, falls, turned, .none next⟩
    · have still : before.probe.detector.clock.level = false := by
        rcases replied_or_waited turned with ⟨change, committed, commits, replied⟩ | waited
        · cases line : change.edge.line with
          | clock =>
            refine absurd ⟨change, committed, commits, line, ?_⟩ falls
            rw [commits.after]
            rw [replied.detector] at low
            exact low
          | data =>
            have kept := (replied.moved commits).kept .clock (by rw [line]; decide)
            exact kept.symm.trans low
        · rw [← waited.detector]
          exact low
      obtain ⟨fallen, after, told, entered, run, fell, turn, unfallen⟩ := ih still
      exact ⟨fallen, after, told, entered, run, fell, turn, unfallen.turn falls turned⟩

end Checker
end TwoWire
