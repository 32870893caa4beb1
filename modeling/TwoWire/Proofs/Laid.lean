import Mathlib.Algebra.Order.Ring.Nat
import TwoWire.Proofs.Pace

/-! The steps that moves add to a program. A move never looks at what has been laid out before it,
so a program is what its moves add one after the other (`ofCalls_eq_laid`). -/

namespace TwoWire

namespace Step

/-- The low phase of a clock pulse, with the data line changing between its two delays. -/
def lowPhase (level : Option Bool) (first second : Nat) : List Step :=
  delayed first ++ .drive .data level :: (delayed second ++ [.drive .clock none])

def duration : Step → Nat
  | .delay duration => duration
  | _ => 0

def total (steps : List Step) : Nat := (steps.map duration).sum

@[simp] theorem total_nil : total [] = 0 := rfl

@[simp] theorem total_cons (step : Step) (steps : List Step) :
    total (step :: steps) = step.duration + total steps := rfl

@[simp] theorem total_append (steps more : List Step) :
    total (steps ++ more) = total steps + total more := by
  simp [total]

@[simp] theorem total_delayed (delay : Nat) : total (delayed delay) = delay := by
  unfold delayed
  split
  case isTrue none => exact none.symm
  case isFalse => rfl

theorem fits_of_lt {step : Step} (lt : step.duration < Time.limit) : step.fits = true := by
  cases step with
  | delay duration => exact decide_eq_true lt
  | _ => rfl

theorem eq_of_mem_delayed {delay : Nat} {step : Step} (mem : step ∈ delayed delay) :
    step = .delay delay := by
  unfold delayed at mem
  split at mem
  · cases mem
  · exact List.mem_singleton.mp mem

end Step

namespace Layout

variable [RandomSource] (timing : ControllerTiming) (layout : Layout)

def lengthened (duration : Nat) : Nat := duration + layout.extra.1

def low : Nat := layout.nextLow.getD timing.clockLow

def lead : Nat := min timing.dataDelay (layout.low timing)

/-- The layout in the middle of a low phase, when the data line is about to change. -/
def midLow : Layout := { layout with nextLow := none }.pause (layout.lead timing)

def added : Move → List Step
  | .act step => [step]
  | .pause duration => Step.delayed (layout.lengthened duration)
  | .lowPhase level =>
    Step.lowPhase level (layout.lengthened (layout.lead timing))
      ((layout.midLow timing).lengthened (layout.low timing - layout.lead timing))
  | .shortenNextLow _ => []
  | .jitter .. => []

def laid (layout : Layout) : List Move → List Step
  | [] => []
  | move :: moves => layout.added timing move ++ (layout.apply timing move).laid moves

theorem laid_append (moves more : List Move) :
    layout.laid timing (moves ++ more) =
      layout.laid timing moves ++ (moves.foldl (apply timing) layout).laid timing more := by
  induction moves generalizing layout with
  | nil => rfl
  | cons move moves ih =>
    rw [List.cons_append, laid, ih, laid, List.append_assoc, List.foldl_cons]

theorem lowPhase_eq (level : Option Bool) :
    layout.lowPhase timing level =
      (((layout.midLow timing).act (.drive .data level)).pause
        (layout.low timing - layout.lead timing)).act (.drive .clock none) := rfl

theorem extra_congr (other : Layout) (same : layout.jitter = other.jitter) :
    layout.extra.1 = other.extra.1 ∧ layout.extra.2.jitter = other.extra.2.jitter := by
  unfold extra
  rw [same]
  cases known : other.jitter with
  | none => exact ⟨rfl, same⟩
  | some jitter =>
    dsimp only
    split
    · exact ⟨rfl, same⟩
    · exact ⟨rfl, rfl⟩

theorem lengthened_congr (other : Layout) (same : layout.jitter = other.jitter) (duration : Nat) :
    layout.lengthened duration = other.lengthened duration :=
  congrArg (duration + ·) (layout.extra_congr other same).1

theorem steps_extra : layout.extra.2.steps = layout.steps := by
  unfold extra
  split
  · rfl
  · split <;> rfl

theorem nextLow_extra : layout.extra.2.nextLow = layout.nextLow := by
  unfold extra
  split
  · rfl
  · split <;> rfl

theorem steps_pause (duration : Nat) :
    (layout.pause duration).steps =
      (Step.delayed (layout.lengthened duration)).reverse ++ layout.steps := by
  unfold pause Step.delayed lengthened
  dsimp only
  split
  · exact layout.steps_extra
  · exact congrArg (List.cons _) layout.steps_extra

theorem nextLow_pause (duration : Nat) : (layout.pause duration).nextLow = layout.nextLow := by
  unfold pause
  dsimp only
  split <;> exact layout.nextLow_extra

theorem jitter_pause (duration : Nat) : (layout.pause duration).jitter = layout.extra.2.jitter := by
  unfold pause
  dsimp only
  split <;> rfl

section Calm

variable {layout : Layout} (calm : layout.jitter = none)

include calm

theorem extra_of_calm : layout.extra = (0, layout) := by
  unfold extra
  rw [calm]

theorem lengthened_of_calm (duration : Nat) : layout.lengthened duration = duration := by
  rw [lengthened, extra_of_calm calm, Nat.add_zero]

theorem pause_of_calm (duration : Nat) : (layout.pause duration).jitter = none := by
  rw [jitter_pause, extra_of_calm calm, calm]

theorem apply_of_calm {move : Move} (other : ∀ seed most, move ≠ .jitter seed most) :
    (layout.apply timing move).jitter = none := by
  cases move with
  | act | shortenNextLow => exact calm
  | pause duration => exact pause_of_calm calm duration
  | lowPhase level =>
    have middle : ((layout.midLow timing).act (.drive .data level)).jitter = none :=
      @pause_of_calm _ { layout with nextLow := none } calm _
    exact pause_of_calm middle _
  | jitter seed most => exact absurd rfl (other seed most)

theorem foldl_of_calm {moves : List Move} (others : ∀ seed most, .jitter seed most ∉ moves) :
    (moves.foldl (apply timing) layout).jitter = none := by
  induction moves generalizing layout with
  | nil => exact calm
  | cons move moves ih =>
    refine ih (apply_of_calm timing calm fun seed most same => ?_)
      fun seed most mem => others seed most (List.mem_cons_of_mem _ mem)
    exact others seed most (same ▸ List.mem_cons_self)

end Calm

theorem steps_apply (move : Move) :
    (layout.apply timing move).steps = (layout.added timing move).reverse ++ layout.steps := by
  cases move with
  | act step => rfl
  | pause duration => exact layout.steps_pause duration
  | lowPhase level =>
    let rest := layout.low timing - layout.lead timing
    let changed := (layout.midLow timing).act (.drive .data level)
    have lead : (layout.midLow timing).steps =
        (Step.delayed (layout.lengthened (layout.lead timing))).reverse ++ layout.steps := by
      rw [layout.lengthened_congr { layout with nextLow := none } rfl]
      exact steps_pause { layout with nextLow := none } (layout.lead timing)
    have drawn := changed.lengthened_congr (layout.midLow timing) rfl rest
    calc (layout.apply timing (.lowPhase level)).steps
      _ = .drive .clock none :: (changed.pause rest).steps := rfl
      _ = .drive .clock none :: ((Step.delayed ((layout.midLow timing).lengthened rest)).reverse ++
            .drive .data level :: (layout.midLow timing).steps) := by
          rw [steps_pause, drawn]
          rfl
      _ = _ := by
          rw [lead]
          simp [added, Step.lowPhase, rest]
  | shortenNextLow | jitter => rfl

theorem steps_foldl (moves : List Move) :
    (moves.foldl (apply timing) layout).steps = (layout.laid timing moves).reverse ++ layout.steps := by
  induction moves generalizing layout with
  | nil => rfl
  | cons move moves ih =>
    rw [List.foldl_cons, ih, steps_apply, laid, List.reverse_append, List.append_assoc]

end Layout

namespace Program

variable [RandomSource] (timing : ControllerTiming) (calls more : List Call)

def moves : List Move := calls.flatMap (Call.moves timing)

def layout : Layout := (moves timing calls).foldl (Layout.apply timing) {}

theorem ofCalls_eq_laid : ofCalls timing calls = Layout.laid timing {} (moves timing calls) := by
  unfold ofCalls
  rw [Layout.steps_foldl, List.append_nil, List.reverse_reverse]
  rfl

theorem ofCalls_append :
    ofCalls timing (calls ++ more) =
      ofCalls timing calls ++ (layout timing calls).laid timing (moves timing more) := by
  rw [ofCalls_eq_laid, ofCalls_eq_laid, moves, List.flatMap_append, Layout.laid_append]
  rfl

theorem ofCalls?_eq_ok_iff {steps : List Step} :
    ofCalls? timing calls = .ok steps ↔
      ofCalls timing calls = steps ∧ ∀ step ∈ steps, step.fits = true := by
  unfold ofCalls?
  dsimp only
  constructor
  · intro built
    split at built
    case isTrue fits =>
      cases built
      exact ⟨rfl, List.all_eq_true.mp fits⟩
    case isFalse => cases built
  · rintro ⟨rfl, fits⟩
    exact if_pos (List.all_eq_true.mpr fits)

end Program
end TwoWire
