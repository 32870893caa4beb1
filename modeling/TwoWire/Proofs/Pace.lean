import TwoWire.Controller.Program

/-! Programs that keep the pace of a scenario: each delay is as long as asked for, or longer by at
most `slack`. Laying out calls gives such a program, whatever the jitter draws. -/

namespace TwoWire

namespace Step

/-- The steps of a delay; one of no length takes none. -/
def delayed (delay : Nat) : List Step := if delay = 0 then [] else [.delay delay]

theorem delayed_of_pos {delay : Nat} (h : 0 < delay) : delayed delay = [.delay delay] := by
  simp [delayed]
  omega

end Step

/-- A delay asked for, and what has become of it. -/
structure Lengthened (slack duration delay : Nat) : Prop where
  least : duration ≤ delay
  most : delay ≤ duration + slack

open Step in
inductive Paced (timing : ControllerTiming) (slack : Nat) : List Move → List Step → Prop
  | nil : Paced timing slack [] []
  | act (step : Step) {moves : List Move} {steps : List Step}
    (rest : Paced timing slack moves steps) :
    Paced timing slack (.act step :: moves) (step :: steps)
  | pause {duration delay : Nat} (fits : Lengthened slack duration delay) {moves : List Move}
    {steps : List Step} (rest : Paced timing slack moves steps) :
    Paced timing slack (.pause duration :: moves) (delayed delay ++ steps)
  | lowPhase (level : Option Bool) {first second : Nat}
    (fits : Lengthened slack timing.dataDelay first)
    (fits' : Lengthened slack (timing.clockLow - timing.dataDelay) second) {moves : List Move}
    {steps : List Step} (rest : Paced timing slack moves steps) :
    Paced timing slack (.lowPhase level :: moves)
      (delayed first ++ .drive .data level :: (delayed second ++ .drive .clock none :: steps))

namespace Paced

variable {timing : ControllerTiming} {slack : Nat} {moves : List Move} {steps : List Step}

theorem of_nil (paced : Paced timing slack [] steps) : steps = [] := by
  cases paced
  rfl

theorem of_act {step : Step} (paced : Paced timing slack (.act step :: moves) steps) :
    ∃ rest, steps = step :: rest ∧ Paced timing slack moves rest := by
  cases paced with
  | act _ rest => exact ⟨_, rfl, rest⟩

theorem of_acts {sample : List Step}
    (paced : Paced timing slack (sample.map .act ++ moves) steps) :
    ∃ rest, steps = sample ++ rest ∧ Paced timing slack moves rest := by
  induction sample generalizing steps with
  | nil => exact ⟨steps, rfl, paced⟩
  | cons step sample ih =>
    obtain ⟨others, rfl, second⟩ := paced.of_act
    obtain ⟨rest, rfl, last⟩ := ih second
    exact ⟨rest, rfl, last⟩

theorem of_pause {duration : Nat} (positive : 0 < duration)
    (paced : Paced timing slack (.pause duration :: moves) steps) :
    ∃ delay rest, Lengthened slack duration delay ∧ steps = .delay delay :: rest ∧
      Paced timing slack moves rest := by
  cases paced with
  | @pause _ delay fits _ rest paced =>
    refine ⟨delay, rest, fits, ?_, paced⟩
    rw [Step.delayed_of_pos (Nat.lt_of_lt_of_le positive fits.least)]
    rfl

theorem of_pulse (early : timing.dataDelay < timing.clockLow) {level : Option Bool}
    {sample : List Step} {dwell : Nat} (positive : 0 < dwell)
    (paced : Paced timing slack (Move.pullLow .clock :: .lowPhase level :: .act .waitClockHigh ::
      (sample.map .act ++ .pause dwell :: moves)) steps) :
    ∃ first second third rest, Lengthened slack timing.dataDelay first ∧
      Lengthened slack (timing.clockLow - timing.dataDelay) second ∧
      Lengthened slack dwell third ∧ Paced timing slack moves rest ∧
      steps = .drive .clock (some false) :: (Step.delayed first ++ .drive .data level ::
        .delay second :: .drive .clock none :: .waitClockHigh ::
          (sample ++ .delay third :: rest)) := by
  obtain ⟨others, rfl, low⟩ := paced.of_act
  cases low with
  | @lowPhase _ first second fits fits' _ others waits =>
    obtain ⟨others, rfl, sampled⟩ := waits.of_act
    obtain ⟨others, rfl, high⟩ := sampled.of_acts
    obtain ⟨third, rest, fits'', rfl, last⟩ := high.of_pause positive
    refine ⟨first, second, third, rest, fits, fits', fits'', last, ?_⟩
    have := fits'.least
    have later : Step.delayed second = [.delay second] := Step.delayed_of_pos (by omega)
    rw [later]
    rfl

end Paced

def Move.isPlain : Move → Bool
  | .act _ | .pause _ | .lowPhase _ => true
  | .shortenNextLow _ | .jitter .. => false

def Call.isPlain : Call → Bool
  | .shortenNextLow _ | .jitter .. => false
  | _ => true

/-- The moves of a call that its own arguments fix. -/
def Call.own : Call → List Move
  | .idle duration => [.pause duration]
  | .jitter seed most => [.jitter seed most]
  | .shortenNextLow duration => [.shortenNextLow duration]
  | .bit level => [.lowPhase level]
  | _ => []

namespace Move

def deeds : List Step :=
  [.drive .clock (some false), .drive .data (some false), .drive .data none, .waitClockHigh,
    .sampleData, .sampleAck]

def pauses (timing : ControllerTiming) : List Nat :=
  [timing.clockHigh, timing.startHold, timing.startSetup, timing.stopSetup, timing.busFree]

/-- What is true of every move that a timing makes, whatever the arguments of the calls. -/
structure Common (timing : ControllerTiming) (P : Move → Prop) : Prop where
  act : ∀ step ∈ deeds, P (.act step)
  pause : ∀ duration ∈ pauses timing, P (.pause duration)
  low : ∀ level, level ≠ some true → P (.lowPhase level)

namespace Common

variable {timing : ControllerTiming} {P : Move → Prop} (common : Common timing P)

include common

theorem pulse {level : Option Bool} (low : P (.lowPhase level)) {sample : List Step}
    (sampled : sample ⊆ deeds) : ∀ move ∈ pulse timing level sample, P move := by
  intro move mem
  simp only [Move.pulse, pullLow, List.mem_append, List.mem_cons, List.mem_map, List.not_mem_nil,
    or_false] at mem
  rcases mem with ((rfl | rfl) | ⟨step, mem, rfl⟩) | rfl | rfl
  · exact low
  · exact common.act _ (by decide)
  · exact common.act step (sampled mem)
  · exact common.pause _ List.mem_cons_self
  · exact common.act _ (by decide)

theorem start : ∀ move ∈ start timing, P move := by
  intro move mem
  simp only [Move.start, pullLow, List.mem_cons, List.not_mem_nil, or_false] at mem
  rcases mem with rfl | rfl | rfl
  · exact common.act _ (by decide)
  · exact common.pause _ (by simp [pauses])
  · exact common.act _ (by decide)

theorem repeatedStart : ∀ move ∈ repeatedStart timing, P move := by
  intro move mem
  rcases List.mem_append.mp mem with mem | mem
  · simp only [List.mem_cons, List.not_mem_nil, or_false] at mem
    rcases mem with rfl | rfl | rfl
    · exact common.low none nofun
    · exact common.act _ (by decide)
    · exact common.pause _ (by simp [pauses])
  · exact common.start move mem

theorem stop : ∀ move ∈ stop timing, P move := by
  intro move mem
  simp only [Move.stop, letGo, List.mem_cons, List.not_mem_nil, or_false] at mem
  rcases mem with rfl | rfl | rfl | rfl | rfl
  · exact common.low _ nofun
  · exact common.act _ (by decide)
  · exact common.pause _ (by simp [pauses])
  · exact common.act _ (by decide)
  · exact common.pause _ (by simp [pauses])

theorem bit (bit : Bool) : P (.lowPhase (bitDrive bit)) :=
  common.low _ (by cases bit <;> decide)

theorem writeByte (byte : UInt8) : ∀ move ∈ writeByte timing byte, P move := by
  intro move mem
  rcases List.mem_append.mp mem with mem | mem
  · obtain ⟨bit, -, mem⟩ := List.mem_flatMap.mp mem
    exact common.pulse (common.bit bit) (List.nil_subset _) move mem
  · exact common.pulse (common.low none nofun) (by decide) move mem

theorem readByte (ack : Bool) : ∀ move ∈ readByte timing ack, P move := by
  intro move mem
  rcases List.mem_append.mp mem with mem | mem
  · obtain ⟨moves, same, mem⟩ := List.mem_flatten.mp mem
    rw [List.eq_of_mem_replicate same] at mem
    exact common.pulse (common.low none nofun) (by decide) move mem
  · exact common.pulse (common.bit _) (List.nil_subset _) move mem

theorem moves {call : Call} (own : ∀ move ∈ call.own, P move) :
    ∀ move ∈ call.moves timing, P move := by
  intro move mem
  cases call with
  | idle | jitter | shortenNextLow => exact own move mem
  | start => exact common.start move mem
  | repeatedStart => exact common.repeatedStart move mem
  | stop => exact common.stop move mem
  | bit level => exact common.pulse (own _ List.mem_cons_self) (List.nil_subset _) move mem
  | writeByte byte => exact common.writeByte byte move mem
  | readByte ack => exact common.readByte ack move mem
  | writeTransaction address bytes =>
    rcases List.mem_append.mp mem with mem | mem
    · rcases List.mem_append.mp mem with mem | mem
      · exact common.start move mem
      · obtain ⟨byte, -, mem⟩ := List.mem_flatMap.mp mem
        exact common.writeByte byte move mem
    · exact common.stop move mem
  | readTransaction address count =>
    rcases List.mem_append.mp mem with mem | mem
    · rcases List.mem_append.mp mem with mem | mem
      · rcases List.mem_append.mp mem with mem | mem
        · exact common.start move mem
        · exact common.writeByte _ move mem
      · obtain ⟨i, -, mem⟩ := List.mem_flatMap.mp mem
        exact common.readByte _ move mem
    · exact common.stop move mem

end Common
end Move

theorem Call.plain_moves (timing : ControllerTiming) {call : Call} (plain : call.isPlain = true) :
    ∀ move ∈ call.moves timing, move.isPlain = true := by
  have common : Move.Common timing (·.isPlain = true) :=
    ⟨fun _ _ => rfl, fun _ _ => rfl, fun _ _ => rfl⟩
  refine common.moves fun move mem => ?_
  cases call with
  | jitter | shortenNextLow => cases plain
  | idle | bit => rw [List.mem_singleton.mp mem]; rfl
  | _ => cases mem

namespace Layout

variable [RandomSource]

structure Within (layout : Layout) (slack : Nat) : Prop where
  nextLow : layout.nextLow = none
  jitter : ∀ jitter, layout.jitter = some jitter → jitter.most ≤ slack

theorem upTo_le (stream : RandomSource.Stream) (most : Nat) :
    (RandomSource.upTo stream (UInt64.ofNat most)).1.toNat ≤ most := by
  have drawn := UInt64.le_iff_toNat_le.mp (RandomSource.upTo_le stream (UInt64.ofNat most))
  rw [UInt64.toNat_ofNat'] at drawn
  exact Nat.le_trans drawn (Nat.mod_le _ _)

variable {layout : Layout} {slack : Nat}

theorem extra_le (within : layout.Within slack) :
    layout.extra.1 ≤ slack ∧ layout.extra.2.Within slack ∧
      layout.extra.2.steps = layout.steps := by
  unfold extra
  cases known : layout.jitter with
  | none => exact ⟨Nat.zero_le _, within, rfl⟩
  | some jitter =>
    have most := within.jitter jitter known
    dsimp only
    split
    · exact ⟨Nat.zero_le _, within, rfl⟩
    · refine ⟨Nat.le_trans (upTo_le _ _) most, ⟨within.nextLow, ?_⟩, rfl⟩
      intro other same
      cases same
      exact most

theorem pause_paced (within : layout.Within slack) (duration : Nat) :
    ∃ delay, Lengthened slack duration delay ∧ (layout.pause duration).Within slack ∧
      (layout.pause duration).steps = (Step.delayed delay).reverse ++ layout.steps := by
  obtain ⟨most, within', steps⟩ := extra_le within
  refine ⟨duration + layout.extra.1, ⟨Nat.le_add_right _ _, by omega⟩, ?_, ?_⟩
  · unfold pause
    dsimp only
    split
    · exact within'
    · exact ⟨within'.nextLow, within'.jitter⟩
  · unfold pause Step.delayed
    dsimp only
    split
    · exact steps
    · exact congrArg (List.cons _) steps

theorem act_within (within : layout.Within slack) (step : Step) : (layout.act step).Within slack :=
  ⟨within.nextLow, within.jitter⟩

theorem lowPhase_paced {timing : ControllerTiming} (early : timing.dataDelay < timing.clockLow)
    (within : layout.Within slack) (level : Option Bool) :
    ∃ first second, Lengthened slack timing.dataDelay first ∧
      Lengthened slack (timing.clockLow - timing.dataDelay) second ∧
      (layout.lowPhase timing level).Within slack ∧
      (layout.lowPhase timing level).steps =
        (Step.delayed first ++ Step.drive .data level ::
          (Step.delayed second ++ [Step.drive .clock none])).reverse ++ layout.steps := by
  have same : ({ layout with nextLow := none } : Layout) = layout := by
    rw [← within.nextLow]
  unfold lowPhase
  dsimp only
  rw [within.nextLow, Option.getD_none, Nat.min_eq_left (Nat.le_of_lt early), same]
  obtain ⟨first, fits, within', steps⟩ := pause_paced within timing.dataDelay
  obtain ⟨second, fits', within'', steps'⟩ :=
    pause_paced (act_within within' (.drive .data level)) (timing.clockLow - timing.dataDelay)
  refine ⟨first, second, fits, fits', act_within within'' _, ?_⟩
  change Step.drive .clock none :: Layout.steps _ = _
  rw [steps']
  change Step.drive .clock none :: ((Step.delayed second).reverse ++ Step.drive .data level ::
    (layout.pause timing.dataDelay).steps) = _
  rw [steps]
  simp

/-- A move that may stand in a scenario without a changed low phase. -/
def Allowed (slack : Nat) (move : Move) : Prop :=
  move.isPlain = true ∨ ∃ seed most, move = .jitter seed most ∧ most ≤ slack

theorem foldl_paced {timing : ControllerTiming} (early : timing.dataDelay < timing.clockLow)
    (moves : List Move) (within : layout.Within slack) (h : ∀ move ∈ moves, Allowed slack move) :
    ∃ steps, Paced timing slack (moves.filter Move.isPlain) steps ∧
      (moves.foldl (apply timing) layout).steps = steps.reverse ++ layout.steps := by
  induction moves generalizing layout with
  | nil => exact ⟨[], .nil, rfl⟩
  | cons move moves ih =>
    have rest : ∀ move ∈ moves, Allowed slack move :=
      fun other mem => h other (List.mem_cons_of_mem _ mem)
    cases move with
    | act step =>
      obtain ⟨steps, paced, ended⟩ := ih (act_within within step) rest
      refine ⟨step :: steps, .act step paced, ended.trans ?_⟩
      simp [act]
    | pause duration =>
      obtain ⟨delay, fits, within', taken⟩ := pause_paced within duration
      obtain ⟨steps, paced, ended⟩ := ih within' rest
      refine ⟨Step.delayed delay ++ steps, .pause fits paced, ended.trans ?_⟩
      rw [taken]
      simp
    | lowPhase level =>
      obtain ⟨first, second, fits, fits', within', taken⟩ := lowPhase_paced early within level
      obtain ⟨steps, paced, ended⟩ := ih within' rest
      refine ⟨_, .lowPhase level fits fits' paced, ended.trans ?_⟩
      rw [taken]
      simp
    | shortenNextLow duration =>
      rcases h _ List.mem_cons_self with plain | ⟨seed, most, same, -⟩
      · cases plain
      · cases same
    | jitter seed most =>
      rcases h _ List.mem_cons_self with plain | ⟨seed, most, same, fits⟩
      · cases plain
      · cases same
        refine ih ⟨within.nextLow, ?_⟩ rest
        intro other known
        cases known
        exact fits

end Layout

namespace Program

theorem filter_moves (timing : ControllerTiming) (calls : List Call) :
    (calls.flatMap (Call.moves timing)).filter Move.isPlain =
      (calls.filter Call.isPlain).flatMap (Call.moves timing) := by
  induction calls with
  | nil => rfl
  | cons call calls ih =>
    rw [List.flatMap_cons, List.filter_append, ih]
    cases plain : call.isPlain with
    | true =>
      rw [List.filter_eq_self.mpr (call.plain_moves timing plain), List.filter_cons_of_pos plain,
        List.flatMap_cons]
    | false =>
      rw [List.filter_cons_of_neg (by simp [plain])]
      cases call <;> first | rfl | cases plain

def Allowed (slack : Nat) (call : Call) : Prop :=
  call.isPlain = true ∨ ∃ seed most, call = .jitter seed most ∧ most ≤ slack

/-- The program of a scenario keeps the pace of its moves. -/
theorem paced_ofCalls [RandomSource] {timing : ControllerTiming} {slack : Nat}
    (early : timing.dataDelay < timing.clockLow) {calls : List Call}
    (h : ∀ call ∈ calls, Allowed slack call) :
    Paced timing slack ((calls.filter Call.isPlain).flatMap (Call.moves timing))
      (ofCalls timing calls) := by
  have moves : ∀ move ∈ calls.flatMap (Call.moves timing), Layout.Allowed slack move := by
    intro move mem
    obtain ⟨call, mem, mem'⟩ := List.mem_flatMap.mp mem
    rcases h call mem with plain | ⟨seed, most, rfl, fits⟩
    · exact .inl (Call.plain_moves timing plain move mem')
    · exact .inr ⟨seed, most, List.mem_singleton.mp mem', fits⟩
  obtain ⟨steps, paced, ended⟩ :=
    Layout.foldl_paced early _ (⟨rfl, nofun⟩ : Layout.Within {} slack) moves
  rw [← filter_moves]
  unfold ofCalls
  rw [ended]
  simpa using paced

end Program
end TwoWire
