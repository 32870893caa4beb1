import Mathlib.Data.List.DropRight
import TwoWire.Proofs.Range
import TwoWire.Proofs.Intervals
import TwoWire.Proofs.Stray
import TwoWire.Proofs.Ways

/-! What the speed of a byte is measured over: the seven intervals between its bits, and the one
from the acknowledge pulse before it if it is not the first after a start (`bytes_metered`). -/

namespace TwoWire

namespace SpeedMeter

def ofFalls (falls : List Nat) : SpeedMeter := falls.foldl clockFell {}

theorem ofFalls_concat (falls : List Nat) (time : Nat) :
    ofFalls (falls ++ [time]) = (ofFalls falls).clockFell time := List.foldl_concat ..

/-- As long as time goes on and stays in its range the intervals add up to the time between the
first fall and the last. -/
theorem ofFalls_of_ordered {falls : List Nat} {first last : Nat} (head : falls.head? = some first)
    (latest : falls.getLast? = some last) (ordered : falls.Pairwise (· ≤ ·))
    (few : falls.length ≤ UInt32.size) (inRange : ∀ time ∈ falls, time < Time.limit) :
    first ≤ last ∧ ofFalls falls = ⟨some last, last - first, falls.length - 1⟩ := by
  induction falls using List.reverseRecOn generalizing last with
  | nil => cases head
  | append_singleton early time ih =>
    rw [List.getLast?_concat] at latest
    cases latest
    rw [List.length_append, List.length_singleton] at few
    obtain ⟨before, -, later⟩ := List.pairwise_append.mp ordered
    cases ended : early.getLast? with
    | none =>
      rw [List.getLast?_eq_none_iff.mp ended] at head ⊢
      cases head
      exact ⟨Nat.le_refl _, by rw [Nat.sub_self]; rfl⟩
    | some middle =>
      have mem := List.mem_of_getLast? ended
      have some := List.length_pos_of_mem mem
      rw [List.head?_append_of_ne_nil _ (List.ne_nil_of_mem mem)] at head
      obtain ⟨past, known⟩ := ih head ended before (by omega)
        fun time mem => inRange time (List.mem_append_left _ mem)
      have next : middle ≤ time := later middle mem time (List.mem_singleton_self _)
      have instant : time < Time.limit :=
        inRange time (List.mem_append_right _ (List.mem_singleton_self _))
      refine ⟨Nat.le_trans past next, ?_⟩
      rw [ofFalls_concat, known]
      unfold clockFell
      dsimp only
      rw [Time.saturate_of_lt (by omega), Nat.min_eq_left (by omega), List.length_append,
        List.length_singleton]
      congr 1 <;> omega

theorem isSome_throughput? {meter : SpeedMeter} (counted : meter.count ≠ 0) :
    meter.throughput?.isSome = true ↔ meter.total ≠ 0 := by
  unfold throughput? average?
  rw [if_neg counted]
  split
  case isTrue still => exact ⟨nofun, fun moved => absurd still moved⟩
  case isFalse moved => exact ⟨fun _ => moved, fun _ => rfl⟩

end SpeedMeter

namespace Event

def resets (event : Event) : Bool := event.isStart || event.isByte

end Event

namespace Moment

def fall? (moment : Moment) : Option Nat :=
  if moment.edge.line = .clock ∧ moment.edge.level = false then some moment.edge.time else none

def falls (moments : List Moment) : List Nat := moments.filterMap fall?

/-- What came after the last byte or start. -/
def window (moments : List Moment) : List Moment :=
  moments.rtakeWhile fun moment => !moment.tells Event.resets

/-- No byte was told since the last start. -/
def opening (moments : List Moment) : Bool :=
  (moments.rtakeWhile fun moment => !moment.starts).all fun moment => !moment.tells Event.isByte

theorem falls_window_concat (moments : List Moment) (moment : Moment) :
    falls (window (moments ++ [moment])) = if moment.tells Event.resets then []
      else falls (window moments) ++ moment.fall?.toList := by
  unfold window
  rw [List.rtakeWhile_concat]
  cases moment.tells Event.resets with
  | true => rfl
  | false =>
    rw [if_pos Bool.not_false, if_neg Bool.false_ne_true]
    unfold falls
    rw [List.filterMap_append]
    cases fell : moment.fall? <;> simp [fell]

theorem length_falls_concat (moments : List Moment) (moment : Moment) :
    (falls (window (moments ++ [moment]))).length = if moment.tells Event.resets then 0
      else (falls (window moments)).length + moment.fall?.isSome.toNat := by
  rw [falls_window_concat]
  split
  · rfl
  · rw [List.length_append]
    cases moment.fall? <;> rfl

theorem falls_suffix (moments : List Moment) : falls (window moments) <:+ falls moments :=
  (List.rtakeWhile_suffix ..).filterMap _

theorem time_of_fall? {moment : Moment} {time : Nat} (fell : moment.fall? = some time) :
    moment.edge.time = time := by
  unfold fall? at fell
  split at fell
  · exact Option.some.inj fell
  · cases fell

theorem ordered_falls {moments : List Moment}
    (ordered : (moments.map edge).Pairwise (·.time ≤ ·.time)) :
    (falls moments).Pairwise (· ≤ ·) := by
  refine List.Pairwise.filterMap fall? ?_ (List.pairwise_map.mp ordered)
  intro first second later early fell late fell'
  rwa [← time_of_fall? fell, ← time_of_fall? fell']

theorem exists_of_mem_falls {moments : List Moment} {time : Nat} (mem : time ∈ falls moments) :
    ∃ fall ∈ moments.map edge, fall.time = time := by
  obtain ⟨moment, mem, fell⟩ := List.mem_filterMap.mp mem
  exact ⟨_, List.mem_map_of_mem mem, time_of_fall? fell⟩

theorem opening_concat (moments : List Moment) (moment : Moment) :
    opening (moments ++ [moment]) =
      (moment.starts || (opening moments && !moment.tells Event.isByte)) := by
  unfold opening
  rw [List.rtakeWhile_concat]
  cases moment.starts with
  | true => rfl
  | false =>
    rw [if_pos Bool.not_false, List.all_append, Bool.false_or]
    simp

end Moment

/-- What the meter holds as a byte is told of: the intervals between the falls of the clock since
the byte or the start before it. It is the clock that has moved, and it has risen, so no fall is
missed. -/
structure SpeedMeter.Measures (meter : SpeedMeter) (early : List Moment) (moment : Moment) :
    Prop where
  rises : moment.edge.line = .clock ∧ moment.edge.level = true
  spans : ∃ first last, (Moment.falls (Moment.window early)).head? = some first ∧
    (Moment.falls early).getLast? = some last ∧ first ≤ last ∧
      meter = ⟨some last, last - first, if Moment.opening early then 7 else 8⟩ ∧
      ((∃ kbps, .event (.speed kbps) ∈ moment.told) ↔ first ≠ last)

namespace Finding

theorem any_shows {p : Event → Bool} (quiet : ∀ kbps, p (.speed kbps) = false)
    (findings : List Finding) : findings.any (shows p) = (findings.filterMap spoken?).any p := by
  rw [List.any_filterMap]
  congr 1
  funext finding
  cases finding with
  | violation => rfl
  | event told =>
    cases told with
    | speed kbps => exact quiet kbps
    | _ => rfl

end Finding

namespace Protocol

open Note

variable {protocol : Protocol} {view : View}

theorem meter_onByteDone (protocol : Protocol) (notes : List Note) :
    (protocol.onByteDone notes).protocol.meter = {} := by
  unfold onByteDone
  split
  · unfold byteReceived command
    dsimp only
    split
    · split <;> rfl
    · rfl
  · rfl

theorem bytes_byteTalk (protocol : Protocol) (shifter : Shifter) :
    (protocol.byteTalk shifter).any Event.isByte = true := by
  unfold byteTalk
  split <;> rfl

theorem resets_byteTalk (protocol : Protocol) (shifter : Shifter) :
    (protocol.byteTalk shifter).any Event.resets = true := by
  unfold byteTalk
  split <;> rfl

theorem meter_enter (protocol : Protocol) (view : View) (phase : Phase) :
    (protocol.enter view phase).protocol.meter =
      if (protocol.phaseTalk view phase).any Event.resets then {} else protocol.meter := by
  cases phase with
  | stopped | starting | repeatStart | driveBit | byteDone | ackSent | acked | nacked | illegal =>
    rfl
  | sampleBit =>
    unfold enter arrive onSampleBit phaseTalk
    dsimp only
    split
    case isTrue full => rw [meter_onByteDone, resets_byteTalk, if_pos rfl]
    case isFalse => rfl
  | checkStartStop =>
    unfold enter arrive onCheckStartStop
    dsimp only
    split <;> rfl
  | driveAck =>
    unfold enter arrive onDriveAck phaseTalk
    dsimp only
    cases protocol.acknowledging with
    | false => rfl
    | true => cases protocol.responses.nextAck.1 <;> rfl
  | sampleAck =>
    unfold enter arrive onSampleAck endByte peerAnswered phaseTalk
    dsimp only
    cases protocol.acknowledging <;> cases view.level .data <;> rfl

theorem meter_follow (protocol : Protocol) (view : View) (phase : Phase) :
    (protocol.follow view phase).protocol.meter =
      if (talk (protocol.follow view phase).notes).any Event.resets then {}
      else protocol.meter := by
  have first := protocol.meter_enter view phase
  cases forces : (protocol.enter view phase).forced? with
  | none => rw [follow_of_settled forces, talk_enter, first]
  | some forced =>
    rw [follow_of_forced forces]
    dsimp only
    rw [meter_enter, talk_append, talk_enter, talk_enter, List.any_append, first]
    cases (protocol.phaseTalk view phase).any Event.resets <;> simp

theorem meter_answer (protocol : Protocol) (stretches : Bool) (view : View) (edge : Edge) :
    (protocol.answer stretches view edge).protocol.meter =
      if (talk (protocol.answer stretches view edge).notes).any Event.resets then {}
      else (protocol.measured view edge).meter := by
  have same := (protocol.measured view edge).meter_follow (view.held edge stretches)
    (protocol.successor view.detector edge.line)
  unfold answer
  dsimp only
  rw [talk_append, talk_append, talk_edgeNotes, talk_simultaneousNotes]
  exact same

end Protocol

/-- How many falls of the clock there have been since the last byte or start while a phase lasts, if
so many bits of the byte in flight have been sampled. The first byte after a start has no
acknowledge pulse before it. -/
def Phase.Counts (bits count : Nat) (opening : Bool) : Phase → Prop
  | .starting | .repeatStart => count = 0 ∧ opening = true
  | .driveBit => count = bits + if opening then 1 else 2
  | .sampleBit => count = bits + if opening then 0 else 1
  | .byteDone => count = 0 ∧ opening = false
  | .driveAck | .ackSent | .acked | .nacked => count = 1 ∧ opening = false
  | .stopped | .checkStartStop | .sampleAck | .illegal => True

namespace Protocol

open Note

variable {protocol after : Protocol} {detector : EdgeDetector} {level weakData driven : Bool}
  {line : Line} {talk : List Event} {count : Nat} {opening : Bool}

theorem counts_fall (coherent : protocol.Coherent detector)
    (high : protocol.phase.isHigh = true ∨ protocol.phase = .repeatStart)
    (counts : protocol.phase.Counts protocol.shifter.bits count opening) :
    protocol.fall.phase.Counts protocol.fall.shifter.bits (count + 1) opening := by
  have bits := coherent.bits
  unfold fall
  cases phase : protocol.phase with
  | starting | repeatStart | acked | nacked =>
    rw [phase] at counts bits
    obtain ⟨rfl, rfl⟩ := counts
    rw [if_neg (by decide)]
    change _ = protocol.shifter.bits + _
    rw [show protocol.shifter.bits = 0 from bits]
    rfl
  | sampleBit =>
    rw [phase] at counts
    obtain rfl := counts
    rw [if_neg (by decide)]
    change _ = protocol.shifter.bits + _
    cases opening <;> rfl
  | byteDone =>
    rw [phase] at counts
    obtain ⟨rfl, rfl⟩ := counts
    rw [if_pos rfl]
    split <;> exact ⟨rfl, rfl⟩
  | stopped | driveBit | checkStartStop | driveAck | ackSent | sampleAck | illegal =>
    rw [phase] at high
    rcases high with high | high <;> cases high

theorem counts_rise (coherent : protocol.Coherent detector) (low : protocol.phase.isLow = true)
    (counts : protocol.phase.Counts protocol.shifter.bits count opening) :
    (protocol.rise level).phase.Counts (protocol.rise level).shifter.bits
      (if (protocol.riseTalk level).any Event.resets then 0 else count)
      (opening && !(protocol.riseTalk level).any Event.isByte) := by
  cases phase : protocol.phase with
  | driveBit =>
    have few := coherent.bits
    rw [phase] at counts few
    obtain rfl := counts
    by_cases full : (protocol.shifter.clock level).isComplete = true
    case pos =>
      have done : (protocol.rise level).phase = .byteDone := by
        unfold rise
        rw [if_pos phase]
        dsimp only
        rw [if_pos full]
        split <;> rfl
      have told : protocol.riseTalk level = protocol.byteTalk (protocol.shifter.clock level) := by
        unfold riseTalk
        rw [if_pos phase]
        dsimp only
        rw [if_pos full]
        rfl
      rw [done, told, resets_byteTalk, bytes_byteTalk]
      exact ⟨rfl, Bool.and_false _⟩
    case neg =>
      have sampled : protocol.rise level =
          { protocol with phase := .sampleBit, shifter := protocol.shifter.clock level } := by
        unfold rise
        rw [if_pos phase]
        dsimp only
        rw [if_neg full]
      have told : protocol.riseTalk level = [] := by
        unfold riseTalk
        rw [if_pos phase]
        dsimp only
        rw [if_neg full]
      have next : (protocol.shifter.clock level).bits = protocol.shifter.bits + 1 :=
        Nat.min_eq_left (Nat.succ_le_succ few)
      rw [sampled, told]
      change protocol.shifter.bits + _ = (protocol.shifter.clock level).bits + _
      rw [next]
      cases opening <;> rfl
  | driveAck | ackSent =>
    rw [phase] at counts
    obtain ⟨rfl, rfl⟩ := counts
    have answered : (protocol.rise level).phase = if level then .nacked else .acked := by
      unfold rise
      rw [if_neg (by rw [phase]; decide)]
    have told : protocol.riseTalk level = if protocol.acknowledging then []
        else if level then [.peerNack, .waitingForStop] else [.peerAck] := by
      unfold riseTalk
      rw [if_neg (by rw [phase]; decide)]
    rw [answered, told]
    cases protocol.acknowledging <;> cases level <;> exact ⟨rfl, rfl⟩
  | stopped | starting | sampleBit | checkStartStop | byteDone | sampleAck | acked | nacked
    | repeatStart | illegal =>
    rw [phase] at low
    cases low

theorem Way.counts (way : protocol.Way level weakData line after driven talk) (fell : Bool)
    (coherent : protocol.Coherent detector)
    (counts : protocol.phase.Counts protocol.shifter.bits count opening)
    (falls : line = .clock → protocol.phase ≠ .illegal → fell = !protocol.phase.isLow)
    (still : line = .data → fell = false) :
    after.phase.Counts after.shifter.bits
      (if talk.any Event.resets then 0 else count + fell.toNat)
      (talk.any Event.isStart || (opening && !talk.any Event.isByte)) := by
  cases way with
  | fall clock high core _ told =>
    obtain ⟨phase, shifter, -⟩ := eq_of_core core
    have quiet : ∀ p : Event → Bool, p .sendingAck = false → p .sendingNack = false →
        talk.any p = false := by
      intro p ack nack
      rw [told]
      unfold fallTalk
      split
      · split <;> simp [ack, nack]
      · rfl
    have falling : fell = true := by
      rw [falls clock]
      · rcases high with high | high
        · cases phase : protocol.phase <;> rw [phase] at high <;> first | rfl | cases high
        · rw [high]
          rfl
      · rintro illegal
        rw [illegal] at high
        rcases high with high | high <;> cases high
    rw [quiet _ rfl rfl, quiet Event.isStart rfl rfl, quiet Event.isByte rfl rfl, phase, shifter,
      falling]
    simpa using counts_fall coherent high counts
  | rise clock low core _ told =>
    obtain ⟨phase, shifter, -⟩ := eq_of_core core
    have rising : fell = false := by
      rw [falls clock, low]
      · rfl
      · rintro illegal
        rw [illegal] at low
        cases low
    have quiet : talk.any Event.isStart = false := by
      rw [told, List.any_eq_false]
      exact fun event mem => Bool.eq_false_iff.mp (quiet_riseTalk mem)
    rw [phase, shifter, quiet, rising, told]
    simpa using counts_rise coherent low counts
  | stay data _ core _ told =>
    obtain ⟨phase, shifter, -⟩ := eq_of_core core
    rw [phase, shifter, still data, told]
    simpa using counts
  | start _ _ phase _ told =>
    obtain ⟨event, starts, rfl⟩ := told
    have both : ([event].any Event.resets) = true := by simp [Event.resets, starts]
    have begun : ([event].any Event.isStart) = true := by simp [starts]
    rw [both, begun]
    rcases phase with phase | phase <;> rw [phase] <;> exact ⟨rfl, rfl⟩
  | leave _ _ phase =>
    rcases phase with phase | phase <;> rw [phase] <;> trivial

theorem exists_speed_speedNotes (protocol : Protocol) :
    (∃ kbps, .found (.event (.speed kbps)) ∈ protocol.speedNotes) ↔
      protocol.meter.throughput?.isSome = true := by
  unfold speedNotes
  cases protocol.meter.throughput? with
  | none => exact ⟨fun ⟨_, mem⟩ => absurd mem List.not_mem_nil, nofun⟩
  | some kbps => exact ⟨fun _ => rfl, fun _ => ⟨_, List.mem_cons_self⟩⟩

/-- The speed of a byte is told after the byte and before the transaction. -/
theorem exists_speed_onByteDone (protocol : Protocol) :
    (∃ kbps, .found (.event (.speed kbps)) ∈ (protocol.onByteDone []).notes) ↔
      protocol.meter.throughput?.isSome = true := by
  rw [← exists_speed_speedNotes]
  refine exists_congr fun kbps => ?_
  unfold onByteDone receivedNotes
  split
  · dsimp only
    split <;> simp [Note.event]
  · simp [Note.event]

theorem told_of_byte {stretches : Bool} {view : View} {edge : Edge} {left : Protocol}
    {notes : List Note} {phases : List Phase} {error? : Option BusError} {event : Event}
    (suits : (view.held edge stretches).Suits (protocol.successor view.detector edge.line))
    (extent : protocol.Extent stretches view edge left notes phases error?)
    (samples : .sampleBit ∈ phases)
    (full : (protocol.shifter.clock (view.level .data)).isComplete = true)
    (told : .event event ∈ Note.told notes) :
    ∃ early, (∀ event, .event event ∉ Note.findings early) ∧
      Note.told notes = Note.findings early ++ Note.findings
        (((protocol.measured view edge).sampled (view.level .data)).onByteDone []).notes := by
  have target := (phases_of_sampleBit extent samples).1
  let measured := protocol.measured view edge
  let held := view.held edge stretches
  let early := protocol.edgeNotes view edge ++ Checker.simultaneousNotes edge ++
    (mismatch .sampleBit held .clock ++ mismatch .sampleBit held .data ++
      (measured.setupNotes held ++
        if ({ measured with shifter := measured.shifter.clock (held.level .data) } :
          Protocol).strayActivity then [.fault .activityAfterNack] else []))
  have whole : (protocol.answer stretches view edge).notes =
      early ++ ((measured.sampled (view.level .data)).onByteDone []).notes := by
    rw [← shifter_measured protocol view edge, ← data_held view edge stretches] at full
    rw [notes_answer, forcedNotes_of_sampleBit target, List.append_nil]
    unfold landing
    rw [target]
    unfold enter
    dsimp only
    rw [arrive_sampleBit, if_pos full, data_held]
    simp only [early, measured, held, data_held, List.append_assoc]
  have quiet : Within [.timing, .lineMismatch, .sequence] early := by
    have bare : Within [.timing, .lineMismatch, .sequence] _ :=
      within_append ((within_edgeNotes protocol view edge).mono (by decide))
        ((within_simultaneousNotes edge).mono (by decide))
    have levels : Within [.timing, .lineMismatch, .sequence] _ :=
      within_append ((within_mismatch .sampleBit held .clock).mono (by decide))
        ((within_mismatch .sampleBit held .data).mono (by decide))
    refine within_append bare (within_append levels
      (within_append ((within_setupNotes measured held).mono (by decide)) ?_))
    split
    · exact within_fault (by decide)
    · exact within_nil _
  have silent (event : Event) : .found (.event event) ∉ early := by
    intro mem
    obtain ⟨broken, same, -⟩ := quiet _ mem
    cases same
  rw [told_of_landed suits extent (List.ne_nil_of_mem samples), whole] at told ⊢
  by_cases sound : Note.Sound early
  case neg =>
    rw [told_append_of_not_sound sound] at told
    exact absurd (mem_of_mem_told told) (silent event)
  case pos =>
    refine ⟨early, fun event mem => silent event (mem_findings.mp mem), ?_⟩
    rw [told_append_of_sound sound, told_of_sound (sound_onByteDone sound_nil)]

theorem exists_speed_told {stretches : Bool} {view : View} {edge : Edge} {left : Protocol}
    {notes : List Note} {phases : List Phase} {error? : Option BusError} {event : Event}
    (suits : (view.held edge stretches).Suits (protocol.successor view.detector edge.line))
    (extent : protocol.Extent stretches view edge left notes phases error?)
    (samples : .sampleBit ∈ phases)
    (full : (protocol.shifter.clock (view.level .data)).isComplete = true)
    (told : .event event ∈ Note.told notes) :
    (∃ kbps, .event (.speed kbps) ∈ Note.told notes) ↔
      (protocol.measured view edge).meter.throughput?.isSome = true := by
  obtain ⟨early, quiet, whole⟩ := told_of_byte suits extent samples full told
  rw [whole]
  refine Iff.trans (exists_congr fun kbps => ?_)
    ((protocol.measured view edge).sampled (view.level .data)).exists_speed_onByteDone
  rw [List.mem_append, ← mem_findings]
  exact or_iff_right (quiet _)

structure Metered (protocol : Protocol) (moments : List Moment) : Prop where
  meter : protocol.meter = .ofFalls (Moment.falls (Moment.window moments))
  counts : protocol.phase.Counts protocol.shifter.bits
    (Moment.falls (Moment.window moments)).length (Moment.opening moments)

end Protocol

namespace Checker

variable {β : Type} [LineBus β] {checker ready before next : Checker β} {change : Change}
  {committed : Probe β} {moment : Moment} {n : Nat}

theorem tells_of_replied (replied : Replied before change next) {kind : Event → Bool}
    (quiet : ∀ kbps, kind (.speed kbps) = false) :
    before.reported.any (Finding.shows kind) =
      (Note.talk (before.reply change).notes).any kind := by
  rw [replied.reported]
  exact Finding.any_shows quiet _

theorem falls_of_commits (lasts : before.protocol.phase.Lasts before.probe.detector)
    (commits : before.probe.Commits change committed) (clock : change.line = .clock)
    (legal : before.protocol.phase ≠ .illegal) :
    (before.sees change).falls change.edge = !before.protocol.phase.isLow := by
  have turned := (live_of_commits commits).1.symm.trans (turns_of_commits commits clock)
  unfold View.falls
  rw [turned, show change.edge.line = .clock from clock, Bool.not_not]
  cases phase : before.protocol.phase with
  | illegal => exact absurd phase legal
  | checkStartStop => exact absurd phase lasts.rests.1
  | sampleAck => exact absurd phase lasts.rests.2
  | driveBit | driveAck | ackSent =>
    rw [lasts.clock false (by rw [phase]; rfl)]
    rfl
  | stopped | starting | repeatStart | sampleBit | byteDone | acked | nacked =>
    rw [lasts.clock true (by rw [phase]; rfl)]
    rfl

theorem fall?_of_commits (commits : before.probe.Commits change committed)
    (edge : moment.edge = ⟨change.time, change.line, (before.sees change).level change.line⟩) :
    moment.fall? =
      if (before.sees change).falls change.edge then some (before.sees change).now else none := by
  unfold Moment.fall? View.falls
  rw [edge, ← (live_of_commits commits).1]
  dsimp only
  cases moved : change.line with
  | data => simp [show change.edge.line = .data from moved]
  | clock =>
    simp only [show change.edge.line = .clock from moved, decide_true, Bool.true_and, true_and,
      Bool.not_eq_true']
    rfl

theorem metered_turn (made : Made checker) (idle : checker.startUp = .ok () ready)
    (run : ready.turns n = .ok before) (turned : before.turn = .ok next)
    (metered : before.protocol.Metered (ready.moments n)) :
    next.protocol.Metered (ready.moments (n + 1)) := by
  rcases way_of_run idle run turned with ⟨change, committed, commits, replied, way⟩ | waited
  case inr =>
    rw [moments_of_waited run waited, waited.protocol]
    exact metered
  case inl =>
    rw [moments_of_commits run commits]
    generalize same : (⟨_, _, _, _⟩ : Moment) = moment
    have tells {kind : Event → Bool} (quiet : ∀ kbps, kind (.speed kbps) = false) :
        moment.tells kind = (Note.talk (before.reply change).notes).any kind := by
      rw [← tells_of_replied replied quiet, ← same]
      rfl
    have fell := fall?_of_commits commits (show moment.edge = _ by rw [← same])
    constructor
    · have meter := Protocol.meter_answer before.protocol before.probe.stretch.isEnabled
        (before.sees change) change.edge
      rw [Moment.falls_window_concat, tells fun _ => rfl, fell, replied.protocol]
      refine meter.trans ?_
      unfold reply Protocol.measured
      cases (Note.talk (before.protocol.answer before.probe.stretch.isEnabled (before.sees change)
        change.edge).notes).any Event.resets with
      | true => rfl
      | false =>
        cases (before.sees change).falls change.edge with
        | true =>
          exact (congrArg (SpeedMeter.clockFell · _) metered.meter).trans
            (SpeedMeter.ofFalls_concat _ _).symm
        | false => exact metered.meter.trans (congrArg _ (List.append_nil _).symm)
    · have counts := way.counts moment.fall?.isSome (coherent_of_made made idle run) metered.counts
        (fun clock legal => ?_) fun data => ?_
      · rw [Moment.length_falls_concat, Moment.opening_concat, tells fun _ => rfl,
          tells fun _ => rfl, Moment.starts, tells fun _ => rfl]
        exact counts
      · rw [fell, ← falls_of_commits (lasts_turns idle run) commits clock legal]
        cases (before.sees change).falls change.edge <;> rfl
      · rw [fell]
        unfold View.falls
        rw [show change.edge.line = .data from data]
        rfl

theorem metered_turns {config : Config} {bus : β} (made : ofConfig config bus = .ok checker)
    (idle : checker.startUp = .ok () ready) (run : ready.turns n = .ok before) :
    before.protocol.Metered (ready.moments n) := by
  induction n generalizing before with
  | succ n ih =>
    obtain ⟨early, run, turned⟩ := exists_of_turns_succ run
    exact metered_turn (.fresh made) idle run turned (ih run)
  | zero =>
    cases run
    obtain ⟨-, responses, fresh⟩ := fresh_of_made made
    obtain ⟨late, -, rfl⟩ := ready_of_startUp idle
    exact ⟨congrArg Protocol.meter fresh, trivial⟩

theorem seven_of_byte {event : Event} (made : Made checker) (idle : checker.startUp = .ok () ready)
    (run : ready.turns n = .ok before) (commits : before.probe.Commits change committed)
    (told : .event event ∈ before.reported) (byte : event.isByte = true) :
    change.line = .clock ∧ before.protocol.phase = .driveBit ∧
      before.protocol.shifter.bits = 7 ∧ .sampleBit ∈ before.entered := by
  obtain ⟨-, samples, seven, -⟩ := byte_of_reported made idle run told byte
  obtain ⟨notes, error?, extent, -⟩ := extent_of_commits commits
  obtain ⟨phase, clock⟩ :=
    Protocol.driveBit_of_sampleBit (Protocol.phases_of_sampleBit extent samples).1
  obtain ⟨-, gathered, -⟩ := shifter_of_driveBit made idle run phase
  exact ⟨clock, phase, gathered.trans seven, samples⟩

theorem exists_speed_reported {event : Event} (made : Made checker)
    (idle : checker.startUp = .ok () ready) (run : ready.turns n = .ok before)
    (told : .event event ∈ before.reported) (byte : event.isByte = true) :
    (∃ kbps, .event (.speed kbps) ∈ before.reported) ↔
      before.protocol.meter.throughput?.isSome = true := by
  obtain ⟨change, committed, commits⟩ := commits_of_reported told
  obtain ⟨clock, phase, seven, samples⟩ := seven_of_byte made idle run commits told byte
  obtain ⟨notes, error?, extent, reported, -⟩ := extent_of_commits commits
  have lasts := lasts_turns idle run
  have still : (before.protocol.measured (before.sees change) change.edge).meter =
      before.protocol.meter := by
    unfold Protocol.measured
    rw [falls_of_commits lasts commits clock (by rw [phase]; decide), phase]
    rfl
  have full := (Protocol.complete_iff (Nat.le_of_eq seven)
    ((before.sees change).level .data)).mpr seven
  rw [reported] at told ⊢
  rw [← still]
  exact Protocol.exists_speed_told (suits_of_commits lasts commits) extent samples full told

section

variable {config : Config} {bus : β} (forward : LineBus.Forward β) (ranged : LineBus.Ranged bus)
  (now : LineBus.now bus < Time.limit) (settled : config.settleTime < Time.limit)
  (made : ofConfig config bus = .ok checker) (idle : checker.startUp = .ok () ready)
  (run : ready.turns n = .ok before)

include forward ranged now settled made idle run

theorem meter_of_run (fallen : Moment.falls (Moment.window (ready.moments n)) ≠ [])
    (few : (Moment.falls (Moment.window (ready.moments n))).length ≤ UInt32.size) :
    ∃ first last, (Moment.falls (Moment.window (ready.moments n))).head? = some first ∧
      (Moment.falls (ready.moments n)).getLast? = some last ∧ first ≤ last ∧
      before.protocol.meter =
        ⟨some last, last - first, (Moment.falls (Moment.window (ready.moments n))).length - 1⟩ := by
  obtain ⟨ordered, past⟩ := ordered_edges forward run
  have early := inRange_turns made ranged now settled idle run
  have window := Moment.falls_suffix (ready.moments n)
  have inRange (time : Nat) (mem : time ∈ Moment.falls (Moment.window (ready.moments n))) :
      time < Time.limit := by
    obtain ⟨fall, known, rfl⟩ := Moment.exists_of_mem_falls (window.subset mem)
    exact Nat.lt_of_le_of_lt (past fall known) early
  obtain ⟨grows, measured⟩ := SpeedMeter.ofFalls_of_ordered (List.head?_eq_some_head fallen)
    (List.getLast?_eq_some_getLast fallen)
    ((Moment.ordered_falls ordered).sublist window.sublist) few inRange
  refine ⟨_, _, List.head?_eq_some_head fallen, ?_, grows,
    (metered_turns made idle run).meter.trans measured⟩
  obtain ⟨earlier, whole⟩ := window
  rw [← whole, List.getLast?_append_of_ne_nil _ fallen, List.getLast?_eq_some_getLast fallen]

theorem measures_of_turn (seen : before.moment? = some moment)
    (tells : moment.tells Event.isByte = true) :
    before.protocol.meter.Measures (ready.moments n) moment := by
  obtain ⟨edge, shown, rfl⟩ := Option.map_eq_some_iff.mp seen
  obtain ⟨event, told, byte⟩ : ∃ event, .event event ∈ before.reported ∧ event.isByte = true := by
    obtain ⟨finding, mem, shows⟩ := List.any_eq_true.mp tells
    cases finding with
    | violation => cases shows
    | event event => exact ⟨event, mem, shows⟩
  obtain ⟨change, committed, commits, rfl⟩ := commits_of_edge? shown
  obtain ⟨clock, phase, seven, -⟩ := seven_of_byte (.fresh made) idle run commits told byte
  have low : before.probe.detector.clock.level = false :=
    (lasts_turns idle run).clock false (by rw [phase]; rfl)
  have counts := (metered_turns made idle run).counts
  rw [phase, seven] at counts
  have length : (Moment.falls (Moment.window (ready.moments n))).length =
      7 + if Moment.opening (ready.moments n) then 1 else 2 := counts
  obtain ⟨first, last, head, latest, grows, meter⟩ :=
    meter_of_run forward ranged now settled made idle run
      (fun none => by rw [none, List.length_nil] at length; omega)
      (by rw [length]; split <;> decide)
  rw [show (Moment.falls (Moment.window (ready.moments n))).length - 1 =
    if Moment.opening (ready.moments n) then 7 else 8 by rw [length]; split <;> rfl] at meter
  refine ⟨⟨clock, ?_⟩, first, last, head, latest, grows, meter, ?_⟩
  · dsimp only
    rw [show change.line = .clock from clock, turns_of_commits commits clock, low]
    rfl
  · have counted : before.protocol.meter.count ≠ 0 := by
      rw [meter]
      dsimp only
      split <;> decide
    refine (exists_speed_reported (.fresh made) idle run told byte).trans ?_
    rw [SpeedMeter.isSome_throughput? counted, meter]
    dsimp only
    omega

end

/-- Each byte that a run tells of is told with what the meter holds then. -/
structure BytesMetered (checker : Checker β) (moments : List Moment) : Prop where
  told : checker.run.2.findings = moments.flatMap Moment.told
  metered : ∀ early moment late, moments = early ++ moment :: late →
    moment.tells Event.isByte = true →
      ∃ ready n before, checker.startUp = .ok () ready ∧ ready.turns n = .ok before ∧
        ready.moments n = early ∧ before.moment? = some moment ∧
        before.protocol.meter.Measures early moment

theorem bytesMetered_of_recounts {config : Config} {bus : β} {moments : List Moment}
    (forward : LineBus.Forward β) (ranged : LineBus.Ranged bus) (now : LineBus.now bus < Time.limit)
    (settled : config.settleTime < Time.limit) (made : ofConfig config bus = .ok checker)
    (recounts : checker.Recounts moments) : BytesMetered checker moments where
  told := told_of_recounts made recounts
  metered early moment late split told := by
    obtain ⟨ready, n, before, idle, run, rfl, seen⟩ := turn_of_recounts recounts split
    exact ⟨ready, n, before, idle, run, rfl, seen,
      measures_of_turn forward ranged now settled made idle run seen told⟩

/-- The speed of a byte is measured over the falls of the clock since the last byte or start, on
every recorded trace and in every program: over seven intervals for the first byte after a start and
over eight for any other. -/
theorem bytes_metered (config : Config) (cycle : Nat) (settled : config.settleTime < Time.limit) :
    (∀ (clock data : LineId) (trace : List PeerDrive) (checker : Checker Replay),
      (∀ entry ∈ trace, entry.time < Time.limit) →
        ofConfig config ((Replay.ofTrace clock data trace).withCycle cycle) = .ok checker →
        ∃ moments, checker.Recounts moments ∧ BytesMetered checker moments) ∧
    ∀ (clock data : LineId) (program : List Step) (bus : Simulation)
      (checker : Checker Simulation), Simulation.ofProgram clock data program = .ok bus →
        ofConfig config (bus.withCycle cycle) = .ok checker →
        ∃ moments, checker.Recounts moments ∧ BytesMetered checker moments := by
  constructor
  · intro clock data trace checker instants made
    obtain ⟨moments, recounts⟩ := exists_recounts checker
    exact ⟨moments, recounts, bytesMetered_of_recounts Replay.forward (Replay.ranged instants)
      (show 0 < Time.limit by decide) settled made recounts⟩
  · intro clock data program bus checker fits made
    obtain ⟨moments, recounts⟩ := exists_recounts checker
    have now : LineBus.now (bus.withCycle cycle) < Time.limit := by
      unfold Simulation.ofProgram at fits
      split at fits
      · cases fits
      · cases fits
        exact (show 0 < Time.limit by decide)
    exact ⟨moments, recounts, bytesMetered_of_recounts Simulation.forward (Simulation.ranged _)
      now settled made recounts⟩

/-- Two bytes of zeros with an acknowledge pulse between them, ten clock pulses a microsecond. -/
theorem bytes_metered_of_two_bytes :
    ({ clock := 0, data := 1 } : Config).settleTime < Time.limit ∧
    (∃ checker : Checker Replay,
      ofConfig { clock := 0, data := 1 }
        ((Replay.ofTrace 0 1 (⟨200, 1, some false⟩ :: (List.range 17).flatMap fun pulse =>
          [⟨300 + 100 * pulse, 0, some false⟩, ⟨350 + 100 * pulse, 0, none⟩])).withCycle 20) =
        .ok checker ∧
      checker.run.2.findings.countP (Finding.shows Event.isByte) = 2 ∧
      ∃ moments, checker.Recounts moments ∧ BytesMetered checker moments) ∧
    ∃ (bus : Simulation) (checker : Checker Simulation),
      Simulation.ofProgram 0 1 ([.delay 200, .drive .data (some false), .delay 100] ++
        (List.replicate 17 [.drive .clock (some false), .delay 50, .drive .clock none,
          .delay 50]).flatten) = .ok bus ∧
      ofConfig { clock := 0, data := 1 } (bus.withCycle 20) = .ok checker ∧
      checker.run.2.findings.countP (Finding.shows Event.isByte) = 2 ∧
      ∃ moments, checker.Recounts moments ∧ BytesMetered checker moments := by
  have metered := bytes_metered { clock := 0, data := 1 } 20 (by decide)
  refine ⟨by decide, ?_, ?_⟩
  · have seen : ((ofConfig { clock := 0, data := 1 }
        ((Replay.ofTrace 0 1 (⟨200, 1, some false⟩ :: (List.range 17).flatMap fun pulse =>
          [⟨300 + 100 * pulse, 0, some false⟩, ⟨350 + 100 * pulse, 0, none⟩])).withCycle
            20)).toOption.bind fun checker => (checker.final? 200).map fun last =>
          last.findings.countP (Finding.shows Event.isByte)) = some 2 := by decide +kernel
    obtain ⟨checker, made, seen⟩ := Option.bind_eq_some_iff.mp seen
    obtain ⟨last, ended, told⟩ := Option.map_eq_some_iff.mp seen
    have made := eq_ok_of_toOption made
    exact ⟨checker, made, (run_of_final? ended).2 ▸ told,
      metered.1 0 1 _ checker (by decide) made⟩
  · have seen : ((Simulation.ofProgram 0 1 ([.delay 200, .drive .data (some false), .delay 100] ++
        (List.replicate 17 [.drive .clock (some false), .delay 50, .drive .clock none,
          .delay 50]).flatten)).toOption.bind fun bus =>
        (ofConfig { clock := 0, data := 1 } (bus.withCycle 20)).toOption.bind fun checker =>
        (checker.final? 200).map fun last =>
          last.findings.countP (Finding.shows Event.isByte)) = some 2 := by decide +kernel
    obtain ⟨bus, fits, seen⟩ := Option.bind_eq_some_iff.mp seen
    obtain ⟨checker, made, seen⟩ := Option.bind_eq_some_iff.mp seen
    obtain ⟨last, ended, told⟩ := Option.map_eq_some_iff.mp seen
    have fits := eq_ok_of_toOption fits
    have made := eq_ok_of_toOption made
    exact ⟨bus, checker, fits, made, (run_of_final? ended).2 ▸ told,
      metered.2 0 1 _ bus checker fits made⟩

end Checker
end TwoWire
