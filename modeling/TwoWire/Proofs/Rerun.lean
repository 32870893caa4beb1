import TwoWire.Proofs.Course
import TwoWire.Proofs.Rest

/-! Runs after runs: a checker may run again on what an earlier run has left of it, also where that
run was cut short. -/

namespace TwoWire

namespace Protocol

variable {protocol : Protocol} {stretches : Bool} {view : View} {edge : Edge}

def OneWay (protocol : Protocol) : Prop :=
  (protocol.shifter.isSinking && protocol.shifter.isSourcing) = false

theorem shifter_of_forced {phase forced : Phase} (later : View)
    (h : (protocol.enter view phase).forced? = some forced) :
    ((protocol.enter view phase).protocol.enter later forced).protocol.shifter =
        (protocol.enter view phase).protocol.shifter ∨
      phase = .checkStartStop := by
  rcases forced_cases h with ⟨rfl, -, rfl⟩ | ⟨rfl, -⟩ | ⟨rfl, -, rfl⟩ | ⟨rfl, rfl⟩
  · exact .inl rfl
  · exact .inr rfl
  · exact .inl rfl
  · cases view.level .data <;> exact .inl rfl

theorem shifter_checkStartStop (protocol : Protocol) (view : View) :
    (protocol.enter view .checkStartStop).protocol.shifter = protocol.shifter := by
  unfold enter arrive onCheckStartStop
  dsimp only
  split <;> rfl

theorem oneWay_landing {before : EdgeDetector} (h : Coherent protocol before)
    (moved : before.Moved view.detector edge.line) :
    (protocol.landing stretches view edge).protocol.OneWay := by
  have answered := (coherent_answer stretches h moved).oneWay
  cases settled : (protocol.landing stretches view edge).forced? with
  | none =>
    rw [protocol_answer_of_settled settled] at answered
    exact answered
  | some forced =>
    rw [protocol_answer_of_forced settled] at answered
    unfold OneWay
    rcases shifter_of_forced _ settled with same | checks
    · rw [landing, ← same]
      exact answered
    · rw [landing, checks, shifter_checkStartStop, shifter_measured]
      exact h.oneWay

theorem oneWay_of_extent {before : EdgeDetector} {left : Protocol} {notes : List Note}
    {phases : List Phase} {error? : Option BusError} (h : Coherent protocol before)
    (moved : before.Moved view.detector edge.line)
    (extent : protocol.Extent stretches view edge left notes phases error?) : left.OneWay := by
  cases extent with
  | judged kept =>
    unfold OneWay
    rw [kept]
    exact h.oneWay
  | unread => exact oneWay_landing h moved
  | refused => exact oneWay_landing h moved
  | settled => exact oneWay_landing h moved
  | forced => exact (coherent_answer stretches h moved).oneWay

end Protocol

namespace Checker

variable {β : Type} [LineBus β]

/-- A checker that was made from a configuration. It may have run before. -/
inductive Made : Checker β → Prop
  | fresh {config : Config} {bus : β} {checker : Checker β}
      (made : ofConfig config bus = .ok checker) : Made checker
  | again {checker : Checker β} (made : Made checker) : Made checker.run.2

theorem oneWay_turned {before : Checker β}
    (h : before.protocol.Coherent before.probe.detector) : before.turned.protocol.OneWay := by
  rcases before.commits_or_silent with ⟨change, committed, commits⟩ | ⟨-, kept⟩
  · obtain ⟨notes, error?, extent, -⟩ := extent_of_commits commits
    have moved := commits.moved
    rw [commits.after] at moved
    exact Protocol.oneWay_of_extent h moved extent
  · unfold Protocol.OneWay
    rw [kept]
    exact h.oneWay

theorem oneWay_of_made {checker : Checker β} (made : Made checker) : checker.protocol.OneWay := by
  induction made with
  | fresh made => exact oneWay_ofConfig made
  | @again checker made ih =>
    unfold Protocol.OneWay
    cases idle : checker.startUp with
    | fail error stopped =>
      rw [(run_of_restless idle).2]
      exact ih
    | ok _ ready =>
      obtain ⟨n, last, run, -, -, protocol, -⟩ := run_of_ready idle
      rw [protocol]
      exact oneWay_turned (turns_induct
        (motive := fun checker => checker.protocol.Coherent checker.probe.detector)
        (coherent_startUp_of_oneWay ih idle) coherent_turn run)

theorem coherent_of_made {checker ready between : Checker β} {n : Nat} (made : Made checker)
    (idle : checker.startUp = .ok () ready) (run : ready.turns n = .ok between) :
    between.protocol.Coherent between.probe.detector :=
  turns_induct (motive := fun checker => checker.protocol.Coherent checker.probe.detector)
    (coherent_startUp_of_oneWay (oneWay_of_made made) idle) coherent_turn run

end Checker
end TwoWire
