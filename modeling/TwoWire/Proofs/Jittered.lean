import Mathlib.Data.List.ReduceOption
import TwoWire.Proofs.Laid

/-! Jitter only ever lengthens delays, by no more than each delay asked for may draw, and all else
is done in the same order (`lengthened_of_jitter`). -/

namespace TwoWire

theorem getD_modifyHead (f : Nat → Nat) {gaps : List Nat} (some : gaps ≠ []) (i : Nat) :
    (gaps.modifyHead f).getD i 0 = if i = 0 then f (gaps.getD 0 0) else gaps.getD i 0 := by
  cases gaps with
  | nil => exact absurd rfl some
  | cons gap gaps => cases i <;> rfl

namespace Step

def isDelay : Step → Bool
  | .delay _ => true
  | _ => false

def deeds (steps : List Step) : List Step := steps.filter fun step => !step.isDelay

/-- How long is waited before the first deed, between one deed and the next, and after the last. -/
def gaps (steps : List Step) : List Nat := (steps.splitOnP fun step => !step.isDelay).map total

theorem gaps_ne_nil (steps : List Step) : gaps steps ≠ [] := by
  simp [gaps, List.splitOnP_ne_nil]

theorem gaps_cons (step : Step) (steps : List Step) :
    gaps (step :: steps) =
      if step.isDelay then (gaps steps).modifyHead (step.duration + ·) else 0 :: gaps steps := by
  unfold gaps
  rw [List.splitOnP_cons_eq_if_modifyHead]
  cases delays : step.isDelay with
  | false => rfl
  | true =>
    simp only [Bool.not_true, Bool.false_eq_true, if_false, if_true]
    cases steps.splitOnP fun step => !step.isDelay <;> rfl

theorem gaps_delayed (delay : Nat) (steps : List Step) :
    gaps (delayed delay ++ steps) = (gaps steps).modifyHead (delay + ·) := by
  unfold delayed
  split
  case isTrue none =>
    subst none
    cases known : gaps steps <;> simp [known]
  case isFalse => exact gaps_cons (.delay delay) steps

end Step

/-- What a move asks for, in order: a step, or `none` for a delay that jitter may lengthen. -/
def Move.asks : Move → List (Option Step)
  | .act step => [some step]
  | .pause _ => [none]
  | .lowPhase level => [none, some (.drive .data level), none, some (.drive .clock none)]
  | .shortenNextLow _ => []
  | .jitter .. => []

namespace Asks

def gaps (asks : List (Option Step)) : List Nat :=
  (asks.splitOnP fun ask => ask.any fun step => !step.isDelay).map (List.count none)

theorem gaps_ne_nil (asks : List (Option Step)) : gaps asks ≠ [] := by
  simp [gaps, List.splitOnP_ne_nil]

theorem gaps_delay (asks : List (Option Step)) :
    gaps (none :: asks) = (gaps asks).modifyHead (· + 1) := by
  unfold gaps
  rw [List.splitOnP_cons_eq_if_modifyHead]
  simp only [Option.any_none, Bool.false_eq_true, if_false]
  cases asks.splitOnP fun ask => ask.any fun step => !step.isDelay <;> simp

theorem gaps_step (step : Step) (asks : List (Option Step)) :
    gaps (some step :: asks) = if step.isDelay then gaps asks else 0 :: gaps asks := by
  unfold gaps
  rw [List.splitOnP_cons_eq_if_modifyHead]
  cases delays : step.isDelay with
  | false => simp [delays]
  | true =>
    simp only [Option.any_some, delays, Bool.not_true, Bool.false_eq_true, if_false, if_true]
    cases asks.splitOnP fun ask => ask.any fun step => !step.isDelay <;> simp

end Asks

open Step in
/-- Two programs that do what is asked, the second with every delay that is asked for lengthened by
`most` at most. -/
inductive Slowed (most : Nat) : List (Option Step) → List Step → List Step → Prop
  | nil : Slowed most [] [] []
  | step (step : Step) {asks : List (Option Step)} {plain slowed : List Step}
    (rest : Slowed most asks plain slowed) :
    Slowed most (some step :: asks) (step :: plain) (step :: slowed)
  | delay {short long : Nat} (fits : Lengthened most short long) {asks : List (Option Step)}
    {plain slowed : List Step} (rest : Slowed most asks plain slowed) :
    Slowed most (none :: asks) (delayed short ++ plain) (delayed long ++ slowed)

namespace Slowed

variable {most : Nat} {asks : List (Option Step)} {plain slowed : List Step}

theorem append {others : List (Option Step)} {plain' slowed' : List Step}
    (first : Slowed most asks plain slowed) (second : Slowed most others plain' slowed') :
    Slowed most (asks ++ others) (plain ++ plain') (slowed ++ slowed') := by
  induction first with
  | nil => exact second
  | step step _ ih => exact .step step ih
  | delay fits _ ih =>
    rw [List.append_assoc, List.append_assoc]
    exact .delay fits ih

theorem deeds_delayed (delay : Nat) (steps : List Step) :
    Step.deeds (Step.delayed delay ++ steps) = Step.deeds steps := by
  unfold Step.delayed
  split <;> rfl

theorem deeds (h : Slowed most asks plain slowed) :
    Step.deeds plain = Step.deeds asks.reduceOption ∧ Step.deeds slowed = Step.deeds plain := by
  induction h with
  | nil => exact ⟨rfl, rfl⟩
  | step step _ ih =>
    simp only [Step.deeds, List.filter_cons, List.reduceOption_cons_of_some] at ih ⊢
    rw [ih.2, ih.1]
    exact ⟨rfl, rfl⟩
  | delay _ _ ih =>
    rw [deeds_delayed, deeds_delayed, List.reduceOption_cons_of_none]
    exact ih

theorem fits_delayed {short long : Nat} (least : short ≤ long)
    (fits : ∀ step ∈ Step.delayed long, step.fits = true) :
    ∀ step ∈ Step.delayed short, step.fits = true := by
  unfold Step.delayed
  split
  case isTrue => exact fun _ mem => nomatch mem
  case isFalse positive =>
    rw [Step.delayed_of_pos (by omega), List.forall_mem_singleton] at fits
    rw [List.forall_mem_singleton]
    exact decide_eq_true (Nat.lt_of_le_of_lt least (of_decide_eq_true fits))

theorem fits (h : Slowed most asks plain slowed)
    (all : ∀ step ∈ slowed, step.fits = true) : ∀ step ∈ plain, step.fits = true := by
  induction h with
  | nil => exact fun _ mem => nomatch mem
  | step step _ ih =>
    rw [List.forall_mem_cons] at all ⊢
    exact ⟨all.1, ih all.2⟩
  | delay fits _ ih =>
    rw [List.forall_mem_append] at all ⊢
    exact ⟨fits_delayed fits.least all.1, ih all.2⟩

theorem duration_le (h : Slowed most asks plain slowed) :
    ∀ step ∈ slowed, step.duration ≤ Step.total plain + most := by
  induction h with
  | nil => exact fun _ mem => nomatch mem
  | @step step _ plain _ _ ih =>
    have total : Step.total (step :: plain) = step.duration + Step.total plain := rfl
    intro other mem
    rcases List.mem_cons.mp mem with rfl | mem
    · omega
    · have := ih other mem
      omega
  | @delay short long fits _ plain _ _ ih =>
    have longest := fits.most
    intro other mem
    rw [Step.total_append, Step.total_delayed]
    rcases List.mem_append.mp mem with mem | mem
    · rw [Step.eq_of_mem_delayed mem, Step.duration]
      omega
    · have := ih other mem
      omega

theorem gaps (h : Slowed most asks plain slowed) (i : Nat) :
    (Step.gaps plain).getD i 0 ≤ (Step.gaps slowed).getD i 0 ∧
      (Step.gaps slowed).getD i 0 ≤
        (Step.gaps plain).getD i 0 + most * (Asks.gaps asks).getD i 0 := by
  induction h generalizing i with
  | nil => exact ⟨Nat.le_refl _, Nat.le_add_right _ _⟩
  | @step step asks plain slowed _ ih =>
    rw [Step.gaps_cons, Step.gaps_cons, Asks.gaps_step]
    cases step.isDelay with
    | false =>
      cases i with
      | zero => exact ⟨Nat.le_refl 0, Nat.zero_le _⟩
      | succ i => exact ih i
    | true =>
      have gap := ih i
      simp only [if_true, getD_modifyHead _ (Step.gaps_ne_nil _)]
      split
      case isTrue first =>
        rw [first] at gap ⊢
        omega
      case isFalse => exact gap
  | @delay short long fits asks plain slowed _ ih =>
    have gap := ih i
    rw [Step.gaps_delayed, Step.gaps_delayed, Asks.gaps_delay,
      getD_modifyHead _ (Step.gaps_ne_nil _), getD_modifyHead _ (Step.gaps_ne_nil _),
      getD_modifyHead _ (Asks.gaps_ne_nil _)]
    split
    case isTrue first =>
      have least := fits.least
      have longest := fits.most
      rw [first] at gap
      rw [Nat.mul_add]
      omega
    case isFalse => exact gap

end Slowed

namespace Layout

/-- Two layouts that differ in what is laid out and in jitter only, the first having none unless they
have it in common. -/
structure Alongside [RandomSource] (most : Nat) (plain jittered : Layout) : Prop where
  nextLow : jittered.nextLow = plain.nextLow
  jitter : plain.jitter = none ∧ (∀ jitter, jittered.jitter = some jitter → jitter.most ≤ most) ∨
    jittered.jitter = plain.jitter

namespace Alongside

variable [RandomSource] {timing : ControllerTiming} {most : Nat} {plain jittered : Layout}

theorem lengthened (h : Alongside most plain jittered) (duration : Nat) :
    Lengthened most (plain.lengthened duration) (jittered.lengthened duration) := by
  rcases h.jitter with ⟨calm, limited⟩ | same
  · have within : ({ jittered with nextLow := none } : Layout).Within most := ⟨rfl, limited⟩
    have drawn := (extra_le within).1
    rw [← (jittered.extra_congr { jittered with nextLow := none } rfl).1] at drawn
    unfold Layout.lengthened
    rw [extra_of_calm calm]
    exact ⟨Nat.le_add_right _ _, by omega⟩
  · rw [jittered.lengthened_congr plain same]
    exact ⟨Nat.le_refl _, Nat.le_add_right _ _⟩

theorem act (h : Alongside most plain jittered) (step : Step) :
    Alongside most (plain.act step) (jittered.act step) :=
  ⟨h.nextLow, h.jitter⟩

theorem pause (h : Alongside most plain jittered) (duration : Nat) :
    Alongside most (plain.pause duration) (jittered.pause duration) := by
  refine ⟨by rw [nextLow_pause, nextLow_pause, h.nextLow], ?_⟩
  rw [jitter_pause, jitter_pause]
  rcases h.jitter with ⟨calm, limited⟩ | same
  · have within : ({ jittered with nextLow := none } : Layout).Within most := ⟨rfl, limited⟩
    have kept := (extra_le within).2.1.jitter
    rw [← (jittered.extra_congr { jittered with nextLow := none } rfl).2] at kept
    rw [extra_of_calm calm]
    exact .inl ⟨calm, kept⟩
  · exact .inr (jittered.extra_congr plain same).2

theorem low (h : Alongside most plain jittered) : jittered.low timing = plain.low timing := by
  unfold Layout.low
  rw [h.nextLow]

theorem lead (h : Alongside most plain jittered) : jittered.lead timing = plain.lead timing := by
  unfold Layout.lead
  rw [h.low]

theorem midLow (h : Alongside most plain jittered) :
    Alongside most (plain.midLow timing) (jittered.midLow timing) := by
  have start : Alongside most { plain with nextLow := none } { jittered with nextLow := none } :=
    ⟨rfl, h.jitter⟩
  unfold Layout.midLow
  rw [h.lead]
  exact start.pause _

theorem apply (h : Alongside most plain jittered) (move : Move) :
    Alongside most (plain.apply timing move) (jittered.apply timing move) := by
  cases move with
  | act step => exact h.act step
  | pause duration => exact h.pause duration
  | lowPhase level =>
    simp only [Layout.apply, lowPhase_eq, h.low, h.lead]
    exact ((h.midLow.act _).pause _).act _
  | shortenNextLow duration => exact ⟨rfl, h.jitter⟩
  | jitter seed most => exact ⟨h.nextLow, .inr rfl⟩

theorem added (h : Alongside most plain jittered) (move : Move) :
    Slowed most move.asks (plain.added timing move) (jittered.added timing move) := by
  cases move with
  | act step => exact .step step .nil
  | pause duration =>
    have paused := Slowed.delay (h.lengthened duration) .nil
    rw [List.append_nil, List.append_nil] at paused
    exact paused
  | lowPhase level =>
    simp only [Layout.added, h.low, h.lead]
    exact .delay (h.lengthened _) (.step _ (.delay (h.midLow.lengthened _) (.step _ .nil)))
  | shortenNextLow | jitter => exact .nil

/-- Whatever the moves, jitter only lengthens the delays that they ask for. -/
theorem laid (h : Alongside most plain jittered) (moves : List Move) :
    Slowed most (moves.flatMap Move.asks) (plain.laid timing moves)
      (jittered.laid timing moves) := by
  induction moves generalizing plain jittered with
  | nil => exact .nil
  | cons move moves ih => exact (h.added move).append (ih (h.apply move))

end Alongside

end Layout

theorem Call.jitter_of_moves {timing : ControllerTiming} {call : Call} {seed : UInt64} {most : Nat}
    (mem : .jitter seed most ∈ call.moves timing) : call = .jitter seed most := by
  have common : Move.Common timing (· = .jitter seed most → call = .jitter seed most) :=
    ⟨fun _ _ => nofun, fun _ _ => nofun, fun _ _ => nofun⟩
  refine common.moves (fun move mem same => ?_) _ mem rfl
  subst same
  cases call with
  | jitter => cases List.mem_singleton.mp mem; rfl
  | idle | shortenNextLow | bit => cases List.mem_singleton.mp mem
  | _ => cases mem

namespace Program

def asks (timing : ControllerTiming) (calls : List Call) : List (Option Step) :=
  (moves timing calls).flatMap Move.asks

section Sourced

variable [RandomSource] (timing : ControllerTiming) {before after : List Call} (seed : UInt64)
  (most : Nat) (calm : ∀ seed most, .jitter seed most ∉ before)

include calm

theorem slowed_of_jitter :
    Slowed most (asks timing (before ++ after)) (ofCalls timing (before ++ after))
      (ofCalls timing (before ++ .jitter seed most :: after)) := by
  have none : (layout timing before).jitter = none := by
    refine Layout.foldl_of_calm timing rfl fun seed most mem => ?_
    obtain ⟨call, called, mem⟩ := List.mem_flatMap.mp mem
    exact calm seed most (Call.jitter_of_moves mem ▸ called)
  have common : Layout.Alongside most {} {} := ⟨rfl, .inr rfl⟩
  have apart : Layout.Alongside most (layout timing before)
      ((layout timing before).apply timing (.jitter seed most)) := by
    refine ⟨rfl, .inl ⟨none, fun jitter set => ?_⟩⟩
    cases set
    exact Nat.le_refl most
  rw [ofCalls_append, ofCalls_append, asks, moves, List.flatMap_append, List.flatMap_append]
  refine Slowed.append ?_ (apart.laid (moves timing after))
  rw [ofCalls_eq_laid]
  exact common.laid (moves timing before)

/-- Up to the call for jitter a program is what it is without it, and from there on jitter only
lengthens delays. All else is done in the same order; and between two things that are done, before the
first and after the last, it takes no less time than without jitter, and no more than `most` longer for
each delay that is asked for in between. -/
theorem lengthened_of_jitter {jittered : List Step}
    (built : ofCalls? timing (before ++ .jitter seed most :: after) = .ok jittered) :
    ∃ plain, ofCalls? timing (before ++ after) = .ok plain ∧
      (∃ rest rest', plain = ofCalls timing before ++ rest ∧
        jittered = ofCalls timing before ++ rest') ∧
      Step.deeds jittered = Step.deeds plain ∧
      Step.deeds (asks timing (before ++ after)).reduceOption = Step.deeds plain ∧
      ∀ i,
        let short := (Step.gaps plain).getD i 0
        let long := (Step.gaps jittered).getD i 0
        let asked := (Asks.gaps (asks timing (before ++ after))).getD i 0
        short ≤ long ∧ long ≤ short + most * asked := by
  have slowed := @slowed_of_jitter _ timing before after seed most calm
  obtain ⟨rfl, fits⟩ := (ofCalls?_eq_ok_iff ..).mp built
  exact ⟨_, (ofCalls?_eq_ok_iff ..).mpr ⟨rfl, slowed.fits fits⟩,
    ⟨_, _, ofCalls_append .., ofCalls_append ..⟩, slowed.deeds.2, slowed.deeds.1.symm,
    fun i => slowed.gaps i⟩

end Sourced

/-- The low phase is so short that nothing is left of it after the data line has changed: what jitter
draws there is a delay of its own. -/
theorem lengthened_of_jitter_in_byte :
    let before := [Call.start, .shortenNextLow 200]
    let after := [Call.writeByte 0x5a, .stop]
    ∃ plain jittered, ofCalls? .fast (before ++ after) = .ok plain ∧
      ofCalls? .fast (before ++ .jitter 300 60 :: after) = .ok jittered ∧
      (∀ seed most, .jitter seed most ∉ before) ∧
      Step.deeds jittered = Step.deeds plain ∧
      (Step.gaps plain).getD 3 0 = 0 ∧ (Step.gaps jittered).getD 3 0 ≤ 60 := by
  intro before after
  have calm : ∀ seed most, .jitter seed most ∉ before := by simp [before]
  have short : Step.total (ofCalls .fast (before ++ after)) + 60 < Time.limit := by decide
  have within := (@slowed_of_jitter _ .fast before after 300 60 calm).duration_le
  have built := (ofCalls?_eq_ok_iff .fast (before ++ .jitter 300 60 :: after)).mpr
    ⟨rfl, fun step mem => Step.fits_of_lt (Nat.lt_of_le_of_lt (within step mem) short)⟩
  obtain ⟨plain, plainly, -, deeds, -, gaps⟩ := lengthened_of_jitter .fast 300 60 calm built
  obtain ⟨rfl, -⟩ := (ofCalls?_eq_ok_iff ..).mp plainly
  have gap := gaps 3
  have none : (Step.gaps (ofCalls .fast (before ++ after))).getD 3 0 = 0 := by decide
  have one : (Asks.gaps (asks .fast (before ++ after))).getD 3 0 = 1 := by decide
  rw [none, one] at gap
  exact ⟨_, _, plainly, built, calm, deeds, none, gap.2⟩

end Program
end TwoWire
