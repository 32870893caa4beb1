import TwoWire.Proofs.Laid

/-! Programs without jitter. A call takes the time of the phases it contains, and what is said about
the next low phase changes that one phase and nothing else (`shortened_once`). -/

namespace TwoWire

/-- The steps of a move that nothing lengthens or shortens. -/
def Move.steps (timing : ControllerTiming) : Move → List Step
  | .act step => [step]
  | .pause duration => Step.delayed duration
  | .lowPhase level =>
    Step.lowPhase level timing.dataDelay (timing.clockLow - timing.dataDelay)
  | .shortenNextLow _ => []
  | .jitter .. => []

def Move.isLow : Move → Bool
  | .lowPhase _ => true
  | _ => false

/-- The phases that a call contains, added up. A byte takes nine periods of the clock. -/
def Call.time (timing : ControllerTiming) : Call → Nat
  | .idle duration => duration
  | .jitter .. => 0
  | .shortenNextLow _ => 0
  | .start => timing.startHold
  | .repeatedStart => timing.clockLow + timing.startSetup + timing.startHold
  | .stop => timing.clockLow + timing.stopSetup + timing.busFree
  | .bit _ => timing.clockLow + timing.clockHigh
  | .writeByte _ => 9 * (timing.clockLow + timing.clockHigh)
  | .readByte _ => 9 * (timing.clockLow + timing.clockHigh)
  | .writeTransaction _ bytes =>
    timing.startHold + (1 + bytes.length) * (9 * (timing.clockLow + timing.clockHigh)) +
      (timing.clockLow + timing.stopSetup + timing.busFree)
  | .readTransaction _ count =>
    timing.startHold + (1 + count) * (9 * (timing.clockLow + timing.clockHigh)) +
      (timing.clockLow + timing.stopSetup + timing.busFree)

namespace Step

theorem fits_delayed {delay : Nat} (lt : delay < Time.limit) :
    ∀ step ∈ delayed delay, step.fits = true := by
  intro step mem
  rw [eq_of_mem_delayed mem]
  exact fits_of_lt lt

theorem fits_lowPhase (level : Option Bool) {first second : Nat} (lt : first < Time.limit)
    (lt' : second < Time.limit) : ∀ step ∈ lowPhase level first second, step.fits = true := by
  intro step mem
  rcases List.mem_append.mp mem with mem | mem
  · exact fits_delayed lt step mem
  · rcases List.mem_cons.mp mem with rfl | mem
    · rfl
    · rcases List.mem_append.mp mem with mem | mem
      · exact fits_delayed lt' step mem
      · rw [List.mem_singleton.mp mem]
        rfl

@[simp] theorem total_lowPhase (level : Option Bool) (first second : Nat) :
    total (lowPhase level first second) = first + second := by
  simp only [lowPhase, total_append, total_delayed, total_cons, total_nil, duration]
  omega

end Step

namespace Layout

variable [RandomSource] {timing : ControllerTiming} {layout : Layout}

theorem added_lowPhase (calm : layout.jitter = none) (level : Option Bool) :
    layout.added timing (.lowPhase level) =
      Step.lowPhase level (layout.lead timing) (layout.low timing - layout.lead timing) := by
  have middle : (layout.midLow timing).jitter = none :=
    @pause_of_calm _ { layout with nextLow := none } calm _
  rw [added, lengthened_of_calm calm, lengthened_of_calm middle]

theorem nextLow_lowPhase (level : Option Bool) :
    (layout.apply timing (.lowPhase level)).nextLow = none :=
  (nextLow_pause ..).trans (nextLow_pause ..)

theorem laid_of_calm (early : timing.dataDelay ≤ timing.clockLow) {moves : List Move}
    (plain : ∀ move ∈ moves, move.isPlain = true) (calm : layout.jitter = none)
    (steady : layout.nextLow = none ∨ ∀ move ∈ moves, move.isLow = false) :
    layout.laid timing moves = moves.flatMap (Move.steps timing) ∧
      (moves.foldl (apply timing) layout).nextLow = layout.nextLow := by
  induction moves generalizing layout with
  | nil => exact ⟨rfl, rfl⟩
  | cons move moves ih =>
    obtain ⟨one, plain⟩ := List.forall_mem_cons.mp plain
    have calm' : (layout.apply timing move).jitter = none :=
      apply_of_calm timing calm fun seed most same => by rw [same] at one; cases one
    have here : layout.added timing move = move.steps timing ∧
        (layout.apply timing move).nextLow = layout.nextLow := by
      cases move with
      | act step => exact ⟨rfl, rfl⟩
      | pause duration =>
        exact ⟨congrArg Step.delayed (lengthened_of_calm calm duration),
          layout.nextLow_pause duration⟩
      | lowPhase level =>
        have unchanged : layout.nextLow = none := by
          rcases steady with unchanged | nothing
          · exact unchanged
          · cases nothing _ List.mem_cons_self
        refine ⟨?_, (nextLow_lowPhase level).trans unchanged.symm⟩
        rw [added_lowPhase calm, lead, low, unchanged, Option.getD_none, Nat.min_eq_left early]
        rfl
      | shortenNextLow | jitter => cases one
    have steady' : (layout.apply timing move).nextLow = none ∨
        ∀ move ∈ moves, move.isLow = false :=
      steady.imp (here.2.trans ·) fun nothing => (List.forall_mem_cons.mp nothing).2
    have rest := ih plain calm' steady'
    rw [laid, here.1, rest.1, List.foldl_cons, rest.2]
    exact ⟨rfl, here.2⟩

theorem laid_of_changed (early : timing.dataDelay ≤ timing.clockLow) {before after : List Move}
    {level : Option Bool} (plain : ∀ move ∈ before ++ .lowPhase level :: after, move.isPlain = true)
    (first : ∀ move ∈ before, move.isLow = false) (calm : layout.jitter = none) {duration : Nat}
    (changed : layout.nextLow = some duration) :
    layout.laid timing (before ++ .lowPhase level :: after) =
      before.flatMap (Move.steps timing) ++
        Step.lowPhase level (min timing.dataDelay duration)
          (duration - min timing.dataDelay duration) ++ after.flatMap (Move.steps timing) := by
  obtain ⟨plain, -, plain'⟩ := List.forall_mem_append.mp plain |>.imp_right List.forall_mem_cons.mp
  obtain ⟨start, kept⟩ := laid_of_calm early plain calm (.inr first)
  have calm' : (before.foldl (apply timing) layout).jitter = none :=
    foldl_of_calm timing calm fun seed most mem => by cases plain _ mem
  have calm'' : ((before.foldl (apply timing) layout).apply timing (.lowPhase level)).jitter = none :=
    apply_of_calm timing calm' fun _ _ same => nomatch same
  have rest := (laid_of_calm early plain' calm'' (.inl (nextLow_lowPhase level))).1
  rw [laid_append, start, laid, rest, added_lowPhase calm', lead, low, kept, changed,
    Option.getD_some, List.append_assoc]

end Layout

structure ControllerTiming.InRange (timing : ControllerTiming) : Prop where
  clockLow : timing.clockLow < Time.limit
  pauses : ∀ duration ∈ Move.pauses timing, duration < Time.limit

namespace Move

variable {timing : ControllerTiming}

theorem low_of_release {call : Call} {move : Move} (mem : move ∈ call.moves timing)
    (releases : .drive .clock none ∈ move.steps timing) : move.isLow = true := by
  have common : Common timing fun move =>
      .drive .clock none ∈ move.steps timing → move.isLow = true :=
    ⟨fun step deed mem => absurd (List.mem_singleton.mp mem ▸ deed) (by decide),
      fun _ _ mem => (nomatch Step.eq_of_mem_delayed mem), fun _ _ _ => rfl⟩
  refine common.moves (fun move mem => ?_) move mem releases
  cases call with
  | idle duration =>
    rw [List.mem_singleton.mp mem]
    exact fun mem => nomatch Step.eq_of_mem_delayed mem
  | bit level => rw [List.mem_singleton.mp mem]; exact fun _ => rfl
  | jitter | shortenNextLow => rw [List.mem_singleton.mp mem]; exact fun mem => nomatch mem
  | _ => cases mem

theorem fits_of_inRange (inRange : timing.InRange) (early : timing.dataDelay ≤ timing.clockLow)
    {call : Call} (idle : ∀ duration, call = .idle duration → duration < Time.limit) :
    ∀ move ∈ call.moves timing, ∀ step ∈ move.steps timing, step.fits = true := by
  have low (level : Option Bool) :
      ∀ step ∈ steps timing (.lowPhase level), step.fits = true := by
    have := inRange.clockLow
    exact Step.fits_lowPhase level (by omega) (by omega)
  have common : Common timing fun move => ∀ step ∈ move.steps timing, step.fits = true := by
    refine ⟨fun step deed other mem => ?_, fun duration mem => ?_, fun level _ => low level⟩
    · rw [List.mem_singleton.mp mem]
      exact (by decide : ∀ step ∈ deeds, step.fits = true) step deed
    · exact Step.fits_delayed (inRange.pauses duration mem)
  refine common.moves fun move mem => ?_
  cases call with
  | idle duration =>
    rw [List.mem_singleton.mp mem]
    exact Step.fits_delayed (idle duration rfl)
  | bit level =>
    rw [List.mem_singleton.mp mem]
    exact low level
  | jitter | shortenNextLow => rw [List.mem_singleton.mp mem]; exact fun _ mem => nomatch mem
  | _ => cases mem

variable (timing)

def time : Move → Nat
  | .act step => step.duration
  | .pause duration => duration
  | .lowPhase _ => timing.clockLow
  | .shortenNextLow _ => 0
  | .jitter .. => 0

def timeOf (moves : List Move) : Nat := (moves.map (time timing)).sum

variable {timing}

@[simp] theorem timeOf_nil : timeOf timing [] = 0 := rfl

@[simp] theorem timeOf_cons (move : Move) (moves : List Move) :
    timeOf timing (move :: moves) = move.time timing + timeOf timing moves := rfl

@[simp] theorem timeOf_append (moves more : List Move) :
    timeOf timing (moves ++ more) = timeOf timing moves + timeOf timing more := by
  simp [timeOf]

theorem timeOf_flatMap {items : List α} {moves : α → List Move} {each : Nat}
    (same : ∀ item, timeOf timing (moves item) = each) :
    timeOf timing (items.flatMap moves) = items.length * each := by
  induction items with
  | nil => exact (Nat.zero_mul each).symm
  | cons item items ih =>
    rw [List.flatMap_cons, timeOf_append, same, ih, List.length_cons, Nat.succ_mul, Nat.add_comm]

theorem total_steps (early : timing.dataDelay ≤ timing.clockLow) (moves : List Move) :
    Step.total (moves.flatMap (steps timing)) = timeOf timing moves := by
  induction moves with
  | nil => rfl
  | cons move moves ih =>
    rw [List.flatMap_cons, Step.total_append, ih, timeOf_cons]
    congr 1
    cases move with
    | act step => rfl
    | pause duration => exact Step.total_delayed duration
    | lowPhase level =>
      rw [steps, Step.total_lowPhase, time]
      omega
    | shortenNextLow | jitter => rfl

theorem timeOf_acts (sample : List Step) :
    timeOf timing (sample.map .act) = Step.total sample := by
  unfold timeOf Step.total
  rw [List.map_map]
  rfl

theorem timeOf_pulse (level : Option Bool) {sample : List Step} (instant : Step.total sample = 0) :
    timeOf timing (pulse timing level sample) = timing.clockLow + timing.clockHigh := by
  simp [pulse, pullLow, timeOf_acts, instant, time, Step.duration]

theorem timeOf_start : timeOf timing (start timing) = timing.startHold := by
  simp [start, pullLow, time, Step.duration]

theorem timeOf_stop :
    timeOf timing (stop timing) = timing.clockLow + timing.stopSetup + timing.busFree := by
  simp [stop, letGo, time, Step.duration, Nat.add_assoc]

theorem timeOf_writeByte (byte : UInt8) :
    timeOf timing (writeByte timing byte) = 9 * (timing.clockLow + timing.clockHigh) := by
  rw [writeByte, timeOf_append, timeOf_flatMap fun bit => timeOf_pulse (bitDrive bit) rfl,
    timeOf_pulse none rfl, bitsOf, List.length_map, List.length_range]
  omega

theorem timeOf_replicate (count : Nat) (moves : List Move) :
    timeOf timing (List.replicate count moves).flatten = count * timeOf timing moves := by
  induction count with
  | zero => exact (Nat.zero_mul _).symm
  | succ count ih =>
    rw [List.replicate_succ, List.flatten_cons, timeOf_append, ih, Nat.succ_mul, Nat.add_comm]

theorem timeOf_readByte (ack : Bool) :
    timeOf timing (readByte timing ack) = 9 * (timing.clockLow + timing.clockHigh) := by
  rw [readByte, timeOf_append, timeOf_replicate, timeOf_pulse none rfl, timeOf_pulse _ rfl]
  omega

end Move

variable {timing : ControllerTiming}

theorem Call.timeOf_moves {call : Call} :
    Move.timeOf timing (call.moves timing) = call.time timing := by
  cases call with
  | idle | jitter | shortenNextLow => rfl
  | start => exact Move.timeOf_start
  | repeatedStart =>
    rw [Call.moves, Move.repeatedStart, Move.timeOf_append, Move.timeOf_start]
    simp [Call.time, Move.time, Step.duration]
  | stop => exact Move.timeOf_stop
  | bit level => exact Move.timeOf_pulse level rfl
  | writeByte byte => exact Move.timeOf_writeByte byte
  | readByte ack => exact Move.timeOf_readByte ack
  | writeTransaction address bytes =>
    rw [Call.moves, Move.writeTransaction, Move.timeOf_append, Move.timeOf_append,
      Move.timeOf_start, Move.timeOf_stop, Move.timeOf_flatMap Move.timeOf_writeByte,
      List.length_cons, Nat.add_comm bytes.length]
    rfl
  | readTransaction address count =>
    rw [Call.moves, Move.readTransaction, Move.timeOf_append, Move.timeOf_append,
      Move.timeOf_append, Move.timeOf_start, Move.timeOf_stop, Move.timeOf_writeByte,
      Move.timeOf_flatMap fun _ => Move.timeOf_readByte _, List.length_range, Call.time, Nat.add_mul,
      Nat.one_mul]
    omega

namespace Program

theorem timeOf_moves (calls : List Call) :
    Move.timeOf timing (moves timing calls) = (calls.map (Call.time timing)).sum := by
  induction calls with
  | nil => rfl
  | cons call calls ih =>
    have first : moves timing (call :: calls) = call.moves timing ++ moves timing calls := rfl
    rw [first, Move.timeOf_append, ih, Call.timeOf_moves]
    rfl

theorem plain_moves {calls : List Call} (plain : ∀ call ∈ calls, call.isPlain = true) :
    ∀ move ∈ moves timing calls, move.isPlain = true := by
  intro move mem
  obtain ⟨call, called, mem⟩ := List.mem_flatMap.mp mem
  exact call.plain_moves timing (plain call called) move mem

section Sourced

variable [RandomSource]

theorem calm_of_plain {calls : List Call} (plain : ∀ call ∈ calls, call.isPlain = true) :
    (layout timing calls).jitter = none :=
  Layout.foldl_of_calm timing rfl fun _ _ mem => nomatch plain_moves plain _ mem

theorem ofCalls_shortenNextLow (before after : List Call) (low : Nat) :
    ofCalls timing (before ++ .shortenNextLow low :: after) =
      ofCalls timing before ++
        ((layout timing before).apply timing (.shortenNextLow low)).laid timing (moves timing after) :=
  ofCalls_append ..

variable (early : timing.dataDelay ≤ timing.clockLow)

include early

theorem ofCalls_of_plain {calls : List Call} (plain : ∀ call ∈ calls, call.isPlain = true) :
    ofCalls timing calls = (moves timing calls).flatMap (Move.steps timing) := by
  rw [ofCalls_eq_laid]
  exact (Layout.laid_of_calm early (plain_moves plain) rfl (.inl rfl)).1

theorem nextLow_of_plain {calls : List Call} (plain : ∀ call ∈ calls, call.isPlain = true) :
    (layout timing calls).nextLow = none :=
  (Layout.laid_of_calm early (plain_moves plain) rfl (.inl rfl)).2

variable {before after : List Call} (plainBefore : ∀ call ∈ before, call.isPlain = true)
  (plainAfter : ∀ call ∈ after, call.isPlain = true) (low : Nat)

include plainBefore plainAfter

theorem shortened_of_none (nothing : ∀ move ∈ moves timing after, move.isLow = false) :
    ofCalls timing (before ++ .shortenNextLow low :: after) = ofCalls timing (before ++ after) := by
  have calm := @calm_of_plain timing _ before plainBefore
  have still : ∀ layout : Layout, layout.jitter = none → layout.laid timing (moves timing after) =
      (moves timing after).flatMap (Move.steps timing) := fun layout calm =>
    (Layout.laid_of_calm early (plain_moves plainAfter) calm (.inr nothing)).1
  rw [ofCalls_shortenNextLow, ofCalls_append, still _ calm,
    still ((layout timing before).apply timing (.shortenNextLow low)) calm]

theorem shortened_of_low {first late : List Move} {level : Option Bool}
    (follow : moves timing after = first ++ .lowPhase level :: late)
    (nothing : ∀ move ∈ first, move.isLow = false) :
    ofCalls timing (before ++ after) =
        ofCalls timing before ++ first.flatMap (Move.steps timing) ++
          Step.lowPhase level timing.dataDelay (timing.clockLow - timing.dataDelay) ++
            late.flatMap (Move.steps timing) ∧
      ofCalls timing (before ++ .shortenNextLow low :: after) =
        ofCalls timing before ++ first.flatMap (Move.steps timing) ++
          Step.lowPhase level (min timing.dataDelay low) (low - min timing.dataDelay low) ++
            late.flatMap (Move.steps timing) := by
  have calm := @calm_of_plain timing _ before plainBefore
  have nextLow := nextLow_of_plain early plainBefore
  have plain := @plain_moves timing _ plainAfter
  rw [follow] at plain
  constructor
  · rw [ofCalls_append, follow, (Layout.laid_of_calm early plain calm (.inl nextLow)).1,
      List.flatMap_append, List.flatMap_cons]
    simp only [List.append_assoc]
    rfl
  · rw [ofCalls_shortenNextLow, follow, @Layout.laid_of_changed _ timing
      ((layout timing before).apply timing (.shortenNextLow low)) early _ _ _ plain nothing calm low rfl]
    simp only [List.append_assoc]

omit plainBefore plainAfter in
theorem fits_of_plain (inRange : timing.InRange) {calls : List Call}
    (plain : ∀ call ∈ calls, call.isPlain = true)
    (idle : ∀ duration, .idle duration ∈ calls → duration < Time.limit) :
    ∀ step ∈ ofCalls timing calls, step.fits = true := by
  rw [ofCalls_of_plain early plain]
  intro step mem
  obtain ⟨move, made, mem⟩ := List.mem_flatMap.mp mem
  obtain ⟨call, called, made⟩ := List.mem_flatMap.mp made
  exact Move.fits_of_inRange inRange early (fun duration same => idle duration (same ▸ called))
    move made step mem

omit early plainBefore plainAfter

/-- Without jitter the next low phase takes the time that it is given, and nothing else of a program
changes; the data line changes at its usual time in it, or at its end if it is shorter than that. If
no low phase follows, nothing changes at all. A program that nothing is said about takes the time of
the phases of its calls. -/
theorem shortened_once (valid : timing.check = .ok ()) (inRange : timing.InRange)
    (ordinary : ∀ call ∈ before ++ after, call.isPlain = true)
    (idle : ∀ duration, .idle duration ∈ before ++ after → duration < Time.limit)
    (lt : low < Time.limit) :
    ∃ plain shortened,
      ofCalls? timing (before ++ after) = .ok plain ∧
      ofCalls? timing (before ++ .shortenNextLow low :: after) = .ok shortened ∧
      ((∀ level, .lowPhase level ∉ moves timing after) → shortened = plain) ∧
      (∀ level, .lowPhase level ∈ moves timing after →
        ∃ early level late second, .drive .clock none ∉ early ∧
          min timing.dataDelay low + second = low ∧
          plain = ofCalls timing before ++ early ++
            Step.lowPhase level timing.dataDelay (timing.clockLow - timing.dataDelay) ++ late ∧
          shortened = ofCalls timing before ++ early ++
            Step.lowPhase level (min timing.dataDelay low) second ++ late) ∧
      Step.total plain = ((before ++ after).map (Call.time timing)).sum := by
  have early := Nat.le_of_lt (ControllerTiming.check_eq_ok_iff.mp valid).1
  obtain ⟨plainBefore, plainAfter⟩ := List.forall_mem_append.mp ordinary
  have fits := fits_of_plain early inRange ordinary idle
  have total : Step.total (ofCalls timing (before ++ after)) =
      ((before ++ after).map (Call.time timing)).sum := by
    rw [ofCalls_of_plain early ordinary, Move.total_steps early, timeOf_moves]
  have plainly := (ofCalls?_eq_ok_iff timing _).mpr ⟨rfl, fits⟩
  cases found : (moves timing after).find? Move.isLow with
  | none =>
    have nothing : ∀ move ∈ moves timing after, move.isLow = false := by simpa using found
    have same := shortened_of_none early plainBefore plainAfter low nothing
    refine ⟨_, _, plainly, (ofCalls?_eq_ok_iff ..).mpr ⟨same, fits⟩, fun _ => rfl, ?_, total⟩
    exact fun level mem => nomatch nothing _ mem
  | some move =>
    obtain ⟨isLow, first, late, follow, nothing⟩ := List.find?_eq_some_iff_append.mp found
    obtain ⟨level, rfl⟩ : ∃ level, move = .lowPhase level := by
      cases move with
      | lowPhase level => exact ⟨level, rfl⟩
      | _ => cases isLow
    have nothing : ∀ move ∈ first, move.isLow = false := by simpa using nothing
    obtain ⟨unchanged, changed⟩ :=
      shortened_of_low early plainBefore plainAfter low follow nothing
    have free : .drive .clock none ∉ first.flatMap (Move.steps timing) := by
      intro mem
      obtain ⟨move, made, mem⟩ := List.mem_flatMap.mp mem
      have inside : move ∈ moves timing after := follow ▸ List.mem_append_left _ made
      obtain ⟨call, -, inside⟩ := List.mem_flatMap.mp inside
      exact absurd (Move.low_of_release inside mem) (by rw [nothing move made]; decide)
    refine ⟨_, _, plainly, (ofCalls?_eq_ok_iff ..).mpr ⟨changed, ?_⟩, fun none => ?_,
      fun _ _ => ⟨_, level, _, _, free, Nat.add_sub_cancel' (Nat.min_le_right ..), unchanged, rfl⟩, total⟩
    · rw [unchanged] at fits
      simp only [List.forall_mem_append] at fits ⊢
      exact ⟨⟨fits.1.1, Step.fits_lowPhase level (by omega) (by omega)⟩, fits.2⟩
    · exact absurd (follow ▸ List.mem_append_right _ List.mem_cons_self) (none level)

end Sourced

/-- A short low phase is asked for, and only after a wait and a start comes the first bit of a byte.
No time is left in it after the data line has changed. -/
theorem shortened_once_in_transaction :
    let timing := ControllerTiming.fast
    let before := [Call.idle 40]
    let after := [Call.idle 7, .writeTransaction 0x2a [0xff], .stop]
    timing.check = .ok () ∧ timing.InRange ∧ (∀ call ∈ before ++ after, call.isPlain = true) ∧
      (∀ duration, .idle duration ∈ before ++ after → duration < Time.limit) ∧
      ∃ plain shortened, ofCalls? timing (before ++ after) = .ok plain ∧
        ofCalls? timing (before ++ .shortenNextLow 200 :: after) = .ok shortened ∧
        Step.total plain = 47 + 1100 + 18 * 2500 + (1400 + 1100 + 1500) + (1400 + 1100 + 1500) ∧
        ∃ early level late, plain = early ++ Step.lowPhase level 300 1100 ++ late ∧
          shortened = early ++ Step.lowPhase level 200 0 ++ late := by
  intro timing before after
  have valid : timing.check = .ok () := rfl
  have inRange : timing.InRange := ⟨by decide, by decide⟩
  have ordinary : ∀ call ∈ before ++ after, call.isPlain = true := by decide
  have idle : ∀ duration, .idle duration ∈ before ++ after → duration < Time.limit := by
    simp only [before, after, List.cons_append, List.nil_append, List.mem_cons, Call.idle.injEq,
      reduceCtorEq, List.not_mem_nil, or_false]
    rintro duration (rfl | rfl) <;> decide
  obtain ⟨plain, shortened, built, built', -, changed, total⟩ :=
    shortened_once 200 valid inRange ordinary idle (by decide)
  have follows : Move.lowPhase (some false) ∈ moves timing after :=
    List.mem_flatMap.mpr ⟨.stop, by simp [after], List.mem_cons_self⟩
  obtain ⟨early, level, late, second, -, rest, usual, short⟩ := changed _ follows
  have lead : min timing.dataDelay 200 = 200 := by decide
  have remaining : timing.clockLow - timing.dataDelay = 1100 := by decide
  obtain rfl : second = 0 := by omega
  rw [remaining] at usual
  rw [lead] at short
  have sum : ((before ++ after).map (Call.time timing)).sum =
      47 + 1100 + 18 * 2500 + (1400 + 1100 + 1500) + (1400 + 1100 + 1500) := by
    simp [before, after, timing, Call.time, ControllerTiming.fast]
  exact ⟨valid, inRange, ordinary, idle, plain, shortened, built, built', total.trans sum,
    ofCalls timing before ++ early, level, late, usual, short⟩

end Program
end TwoWire
