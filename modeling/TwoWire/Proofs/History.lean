import Mathlib.Data.Nat.Digits.Lemmas
import TwoWire.Proofs.Levels
import TwoWire.Proofs.Rerun
import TwoWire.Proofs.Telling

/-! The bits of the byte in flight as a history of what was seen: the shifter holds the levels of
the data line at the rises of the clock since the last start or acknowledge bit. -/

namespace TwoWire

namespace Shifter

theorem toNat_shiftIn (byte : UInt8) (bit : Bool) :
    (shiftIn byte bit).toNat = (2 * byte.toNat + bit.toNat) % 256 := by
  revert byte
  apply forall_byte
  revert bit
  decide +kernel

theorem ofDigits_append_bit (bits : List Bool) (bit : Bool) :
    Nat.ofDigits 2 ((bits ++ [bit]).reverse.map Bool.toNat) =
      2 * Nat.ofDigits 2 (bits.reverse.map Bool.toNat) + bit.toNat := by
  rw [List.reverse_append]
  simp [Nat.ofDigits_cons]
  omega

theorem ofDigits_bits_lt (bits : List Bool) :
    Nat.ofDigits 2 (bits.reverse.map Bool.toNat) < 2 ^ bits.length := by
  have bound : Nat.ofDigits 2 (bits.reverse.map Bool.toNat) <
      2 ^ (bits.reverse.map Bool.toNat).length := by
    apply Nat.ofDigits_lt_base_pow_length (by decide)
    intro digit mem
    obtain ⟨bit, -, rfl⟩ := List.mem_map.mp mem
    exact bit.toNat_lt
  rwa [List.length_map, List.length_reverse] at bound

theorem toNat_foldl_shiftIn {bits : List Bool} (few : bits.length ≤ bitsPerByte) :
    (bits.foldl shiftIn 0).toNat = Nat.ofDigits 2 (bits.reverse.map Bool.toNat) := by
  induction bits using List.reverseRecOn with
  | nil => rfl
  | append_singleton bits bit ih =>
    have small := ofDigits_bits_lt (bits ++ [bit])
    have bound : 2 ^ (bits ++ [bit]).length ≤ 2 ^ 8 := Nat.pow_le_pow_right (by decide) few
    rw [ofDigits_append_bit] at small ⊢
    rw [List.length_append] at few
    rw [List.foldl_append, List.foldl_cons, List.foldl_nil, toNat_shiftIn,
      ih (Nat.le_of_succ_le few)]
    exact Nat.mod_eq_of_lt (Nat.lt_of_lt_of_le small bound)

end Shifter

namespace Phase

/-- The bits of the byte in flight once a phase is entered while the data line reads `level?`. -/
def gather (level? : Option Bool) (bits : List Bool) : Phase → List Bool
  | .sampleBit => bits ++ level?.toList
  | .starting | .repeatStart | .acked | .nacked => []
  | _ => bits

/-- The shifter has counted these bits and, while sinking, taken them in. -/
def Gathers (shifter : Shifter) (bits : List Bool) : Phase → Prop
  | .driveBit | .sampleBit =>
    shifter.bits = bits.length ∧
      ∀ byte, shifter.incoming = some byte → byte = bits.foldl Shifter.shiftIn 0
  | .starting | .repeatStart | .acked | .nacked =>
    bits = [] ∧ ∀ byte, shifter.incoming = some byte → byte = 0
  | .byteDone | .driveAck | .ackSent =>
    bits.length = 8 ∧ ∀ byte, shifter.incoming = some byte → byte = 0
  | .stopped | .checkStartStop | .sampleAck | .illegal => True

end Phase

namespace Protocol

variable {protocol : Protocol} {view : View} {bits : List Bool}

/-- The phases that are entered when one is: that one, and the one that it forces. -/
def trail (protocol : Protocol) (view : View) (phase : Phase) : List Phase :=
  phase :: (protocol.enter view phase).forced?.toList

def gatherTrail (protocol : Protocol) (view : View) (bits : List Bool) (phase : Phase) :
    List Bool :=
  (protocol.trail view phase).foldl (Phase.gather (some (view.level .data))) bits

/-- Once a phase has been entered and the one that it forces, the bits are gathered as they are. -/
def GathersOn (protocol : Protocol) (view : View) (bits : List Bool) (phase : Phase) : Prop :=
  (protocol.follow view phase).protocol.phase.Gathers (protocol.follow view phase).protocol.shifter
    (protocol.gatherTrail view bits phase)

theorem gathers_started {phase : Phase} (start : phase = .starting ∨ phase = .repeatStart) :
    protocol.GathersOn view bits phase := by
  rcases start with rfl | rfl <;> exact ⟨rfl, fun byte h => (Option.some.inj h).symm⟩

theorem gathers_driveBit (counted : protocol.shifter.bits = bits.length)
    (taken : ∀ byte, protocol.shifter.incoming = some byte →
      byte = bits.foldl Shifter.shiftIn 0) :
    protocol.GathersOn view bits .driveBit :=
  ⟨counted, taken⟩

theorem gathers_illegal : protocol.GathersOn view bits .illegal := trivial

theorem gathers_stopped : protocol.GathersOn view bits .stopped := trivial

theorem gathers_checkStartStop : protocol.GathersOn view bits .checkStartStop := by
  unfold GathersOn
  cases rose : view.data.level with
  | true =>
    rw [follow_checkStartStop_of_stop rose]
    trivial
  | false =>
    have trail : protocol.gatherTrail view bits .checkStartStop = [] := by
      unfold gatherTrail trail
      rw [forced?_enter_checkStartStop, rose]
      by_cases first : protocol.shifter.bits = 1 <;> simp [first, Phase.gather]
    rw [follow_checkStartStop_of_start rose, trail]
    have taken : ∀ byte, Shifter.sink.incoming = some byte → byte = 0 := fun byte h =>
      (Option.some.inj h).symm
    by_cases first : protocol.shifter.bits = 1
    · rw [if_pos first]
      exact ⟨rfl, taken⟩
    · rw [if_neg first]
      exact ⟨rfl, taken⟩

theorem gathers_ackSent (full : bits.length = 8)
    (cleared : ∀ byte, protocol.shifter.incoming = some byte → byte = 0) :
    protocol.GathersOn view bits .ackSent :=
  ⟨full, cleared⟩

theorem gathers_driveAck (full : bits.length = 8)
    (cleared : ∀ byte, protocol.shifter.incoming = some byte → byte = 0) :
    protocol.GathersOn view bits .driveAck := by
  have trail : protocol.gatherTrail view bits .driveAck = bits := by
    unfold gatherTrail trail
    rw [forced?_enter_driveAck]
    split <;> rfl
  unfold GathersOn
  rw [trail]
  cases ours : protocol.acknowledging with
  | true =>
    rw [follow_driveAck_of_ours ours]
    exact ⟨full, cleared⟩
  | false =>
    rw [follow_driveAck_of_theirs ours]
    exact ⟨full, cleared⟩

theorem gathers_answered {phase : Phase} (after : phase = .acked ∨ phase = .nacked)
    (cleared : ∀ byte, protocol.shifter.incoming = some byte → byte = 0) :
    protocol.GathersOn view bits phase := by
  rcases after with rfl | rfl <;> exact ⟨rfl, cleared⟩

theorem gathers_sampleAck
    (cleared : ∀ byte, protocol.shifter.incoming = some byte → byte = 0) :
    protocol.GathersOn view bits .sampleAck := by
  have kept : ∀ nack, (if protocol.acknowledging then protocol
      else protocol.peerAnswered nack).shifter.incoming = protocol.shifter.incoming := by
    intro nack
    unfold peerAnswered
    split
    · rfl
    · split <;> rfl
  have trail : protocol.gatherTrail view bits .sampleAck = [] := by
    unfold gatherTrail trail
    rw [forced?_enter_sampleAck]
    cases view.level .data <;> rfl
  unfold GathersOn
  rw [follow_sampleAck, trail]
  cases view.level .data <;> exact ⟨rfl, fun byte h => cleared byte ((kept _).symm.trans h)⟩

theorem gathers_sampleBit (few : protocol.shifter.bits ≤ 7)
    (counted : protocol.shifter.bits = bits.length)
    (taken : ∀ byte, protocol.shifter.incoming = some byte →
      byte = bits.foldl Shifter.shiftIn 0) :
    protocol.GathersOn view bits .sampleBit := by
  have trail : protocol.gatherTrail view bits .sampleBit = bits ++ [view.level .data] := by
    unfold gatherTrail trail
    rw [forced?_enter_sampleBit]
    split <;> rfl
  have count : (protocol.shifter.clock (view.level .data)).bits =
      (bits ++ [view.level .data]).length := by
    rw [List.length_append, ← counted]
    exact Nat.min_eq_left (Nat.succ_le_succ few)
  unfold GathersOn
  rw [trail]
  cases full : (protocol.shifter.clock (view.level .data)).isComplete with
  | false =>
    rw [follow_sampleBit_of_incomplete full]
    refine ⟨count, fun byte h => ?_⟩
    obtain ⟨early, incoming, rfl⟩ := Option.map_eq_some_iff.mp h
    rw [taken early incoming, List.foldl_append]
    rfl
  | true =>
    have eight : (bits ++ [view.level .data]).length = 8 := by
      unfold Shifter.isComplete Shifter.bitsPerByte at full
      rw [count, decide_eq_true_eq] at full
      refine Nat.le_antisymm ?_ full
      rw [List.length_append, ← counted]
      exact Nat.succ_le_succ few
    cases incoming : (protocol.shifter.clock (view.level .data)).incoming with
    | some byte =>
      rw [follow_sampleBit_of_received full incoming]
      refine ⟨eight, fun taken h => ?_⟩
      rcases shifter_byteReceived (protocol.sampled (view.level .data)) byte with sink | source
      · rw [show _ = Shifter.sink from sink] at h
        exact (Option.some.inj h).symm
      · rw [show _ = Shifter.source _ from source] at h
        cases h
    | none =>
      rw [follow_sampleBit_of_sent full incoming]
      refine ⟨eight, fun byte h => ?_⟩
      cases incoming.symm.trans h

theorem gathers_clock {before : EdgeDetector} (h : Coherent protocol before)
    (gathers : protocol.phase.Gathers protocol.shifter bits) :
    protocol.GathersOn view bits (protocol.successor view.detector .clock) := by
  have count := h.bits
  cases phase : protocol.phase with
  | illegal =>
    rw [successor, if_neg (by simp), phase]
    exact gathers_illegal
  | checkStartStop => exact absurd phase h.rests.1
  | sampleAck => exact absurd phase h.rests.2
  | stopped =>
    rw [successor_of_legal (by simp [phase]), phase]
    exact gathers_illegal
  | starting | repeatStart | acked | nacked =>
    rw [successor_of_legal (by simp [phase])]
    rw [phase] at gathers count ⊢
    obtain ⟨rfl, taken⟩ := gathers
    exact gathers_driveBit count taken
  | driveBit =>
    rw [successor_of_legal (by simp [phase])]
    rw [phase] at gathers count ⊢
    exact gathers_sampleBit count gathers.1 gathers.2
  | sampleBit =>
    rw [successor_of_legal (by simp [phase])]
    rw [phase] at gathers ⊢
    exact gathers_driveBit gathers.1 gathers.2
  | byteDone =>
    rw [successor_of_legal (by simp [phase])]
    rw [phase] at gathers ⊢
    exact gathers_driveAck gathers.1 gathers.2
  | driveAck | ackSent =>
    rw [successor_of_legal (by simp [phase])]
    rw [phase] at gathers ⊢
    exact gathers_sampleAck gathers.2

theorem gathers_data {before : EdgeDetector} (h : Coherent protocol before)
    (gathers : protocol.phase.Gathers protocol.shifter bits) :
    protocol.GathersOn view bits (protocol.successor view.detector .data) := by
  cases phase : protocol.phase with
  | illegal =>
    rw [successor_of_illegal phase]
    cases view.detector.clock.level with
    | false => exact gathers_illegal
    | true =>
      cases view.detector.data.level with
      | true => exact gathers_stopped
      | false => exact gathers_started (.inl rfl)
  | checkStartStop => exact absurd phase h.rests.1
  | sampleAck => exact absurd phase h.rests.2
  | stopped =>
    rw [successor_of_legal (by simp [phase]), phase]
    exact gathers_started (.inl rfl)
  | starting | repeatStart | byteDone =>
    rw [successor_of_legal (by simp [phase]), phase]
    exact gathers_illegal
  | driveBit =>
    rw [successor_of_legal (by simp [phase])]
    rw [phase] at gathers ⊢
    exact gathers_driveBit gathers.1 gathers.2
  | sampleBit =>
    rw [successor_of_legal (by simp [phase]), phase]
    exact gathers_checkStartStop
  | driveAck =>
    rw [successor_of_legal (by simp [phase])]
    rw [phase] at gathers ⊢
    exact gathers_driveAck gathers.1 gathers.2
  | ackSent =>
    rw [successor_of_legal (by simp [phase])]
    rw [phase] at gathers ⊢
    exact gathers_ackSent gathers.1 gathers.2
  | acked =>
    rw [successor_of_legal (by simp [phase])]
    rw [phase] at gathers ⊢
    exact gathers_answered (.inl rfl) gathers.2
  | nacked =>
    rw [successor_of_legal (by simp [phase])]
    rw [phase] at gathers ⊢
    exact gathers_answered (.inr rfl) gathers.2

variable {before : EdgeDetector} {stretches : Bool} {edge : Edge}

/-- The phases that are entered in answer to an edge, if nothing cuts it short. -/
def entries (protocol : Protocol) (stretches : Bool) (view : View) (edge : Edge) : List Phase :=
  (protocol.measured view edge).trail (view.held edge stretches)
    (protocol.successor view.detector edge.line)

theorem gathers_answer (h : Coherent protocol before)
    (gathers : protocol.phase.Gathers protocol.shifter bits) :
    (protocol.answer stretches view edge).protocol.phase.Gathers
      (protocol.answer stretches view edge).protocol.shifter
      ((protocol.entries stretches view edge).foldl
        (Phase.gather (some (view.level .data))) bits) := by
  have start := coherent_measured view edge h
  rw [← phase_measured protocol view edge, ← shifter_measured protocol view edge] at gathers
  have on : (protocol.measured view edge).GathersOn (view.held edge stretches) bits
      (protocol.successor view.detector edge.line) := by
    rw [← successor_measured protocol view edge, ← view.detector_held edge stretches]
    cases edge.line with
    | clock => exact gathers_clock start gathers
    | data => exact gathers_data start gathers
  unfold GathersOn gatherTrail at on
  rw [data_held] at on
  exact on

theorem trail_of_extent {left : Protocol} {notes : List Note} {phases : List Phase}
    (extent : protocol.Extent stretches view edge left notes phases none) :
    left = (protocol.answer stretches view edge).protocol ∧
      phases = protocol.entries stretches view edge := by
  cases extent with
  | settled _ _ rests =>
    refine ⟨(protocol_answer_of_settled rests).symm, ?_⟩
    unfold landing at rests
    rw [entries, trail, rests]
    rfl
  | forced _ _ next =>
    refine ⟨rfl, ?_⟩
    unfold landing at next
    rw [entries, trail, next]
    rfl

theorem countP_byteTalk (protocol : Protocol) (shifter : Shifter) :
    (protocol.byteTalk shifter).countP Event.isByte = 1 := by
  unfold byteTalk
  split
  · split <;> rfl
  · rfl

theorem byte_of_phaseTalk {phase : Phase} {event : Event}
    (h : event ∈ protocol.phaseTalk view phase) (byte : event.isByte = true) :
    phase = .sampleBit ∧
      (protocol.shifter.clock (view.level .data)).isComplete = true ∧
      ∀ value, event = .byteReceived value →
        (protocol.shifter.clock (view.level .data)).incoming = some value := by
  rcases mem_phaseTalk h with condition | ⟨phase, full, talk⟩ | ⟨none, -⟩
  · cases phase <;> cases condition <;> cases byte
  · exact ⟨phase, full, (mem_byteTalk talk).2⟩
  · cases none.symm.trans byte

theorem driveBit_of_sampleBit {detector : EdgeDetector} {line : Line}
    (h : protocol.successor detector line = .sampleBit) :
    protocol.phase = .driveBit ∧ line = .clock := by
  unfold successor at h
  split at h
  · split at h <;> cases h
  · revert h
    cases protocol.phase <;> cases line <;> decide

theorem forced_ne_sampleBit {phase forced : Phase}
    (h : (protocol.enter view phase).forced? = some forced) : forced ≠ .sampleBit := by
  rintro rfl
  exact absurd (rests_of_forced h).1 (by decide)

theorem phases_of_sampleBit {left : Protocol} {notes : List Note} {phases : List Phase}
    {error? : Option BusError}
    (extent : protocol.Extent stretches view edge left notes phases error?)
    (samples : .sampleBit ∈ phases) :
    protocol.successor view.detector edge.line = .sampleBit ∧
      (phases = [.sampleBit] ∨ phases = [.sampleBit, .byteDone]) := by
  cases extent with
  | judged => cases samples
  | unread | refused | settled =>
    have target := List.mem_singleton.mp samples
    rw [← target]
    exact ⟨rfl, .inl rfl⟩
  | forced _ _ next =>
    unfold landing at next
    rcases List.mem_cons.mp samples with target | again
    · rw [← target] at next ⊢
      rw [forced?_enter_sampleBit] at next
      split at next <;> cases next
      exact ⟨rfl, .inr rfl⟩
    · exact absurd (List.mem_singleton.mp again).symm (forced_ne_sampleBit next)

theorem foldl_gather_of_sampleBit {phases : List Phase} (level : Bool)
    (h : phases = [.sampleBit] ∨ phases = [.sampleBit, .byteDone]) (bits : List Bool) :
    phases.foldl (Phase.gather (some level)) bits = bits ++ [level] := by
  rcases h with rfl | rfl <;> rfl

theorem complete_iff (few : protocol.shifter.bits ≤ 7) (level : Bool) :
    (protocol.shifter.clock level).isComplete = true ↔ protocol.shifter.bits = 7 := by
  unfold Shifter.isComplete Shifter.clock Shifter.bitsPerByte
  rw [decide_eq_true_eq]
  dsimp only
  omega

end Protocol

namespace Note

theorem not_overflow_of_sound {notes : List Note} (sound : Sound notes) (kind : Overflow) :
    .overflow kind ∉ notes := by
  intro mem
  obtain ⟨finding, same⟩ := sound _ mem
  cases same

theorem unmeasured_of_overflow {judge : Int → Option Violation} {start? : Option Nat} {stop : Nat}
    {kind : Overflow} (h : .overflow kind ∈ measure judge start? stop) :
    kind = .subtract ∧
      ∃ start, start? = some start ∧ Time.elapsed start stop = .error .subtract := by
  unfold measure at h
  split at h
  · cases h
  case h_2 start =>
    cases elapsed : Time.elapsed start stop with
    | ok interval =>
      rw [elapsed] at h
      obtain ⟨broken, -, same⟩ := List.mem_map.mp h
      cases same
    | error reason =>
      rw [elapsed] at h
      cases List.mem_singleton.mp h
      cases kind with
      | subtract => exact ⟨rfl, start, rfl, elapsed⟩
      | add =>
        unfold Time.elapsed at elapsed
        dsimp only at elapsed
        split at elapsed <;> cases elapsed

end Note

namespace Protocol

variable {protocol : Protocol} {view : View}

/-- The one interval measured at a bit is the time since the data line last moved. -/
theorem unmeasured_of_sampleBit {kind : Overflow}
    (h : .overflow kind ∈ (protocol.enter view .sampleBit).notes) :
    kind = .subtract ∧ ∃ since, view.data.changedAt = some since ∧
      Time.elapsed since view.now = .error .subtract := by
  have stray : ∀ stray : Bool,
      .overflow kind ∉ if stray then [Note.fault .activityAfterNack] else [] := by
    intro stray
    cases stray <;> simp [Note.fault, Note.violation]
  have byte : .overflow kind ∉
      if (protocol.shifter.clock (view.level .data)).isComplete then
        ((protocol.sampled (view.level .data)).onByteDone []).notes
      else [] := by
    split
    · exact Note.not_overflow_of_sound (sound_onByteDone Note.sound_nil) kind
    · exact List.not_mem_nil
  have levels := Note.not_overflow_of_sound (Note.sound_append
    (sound_mismatch .sampleBit view .clock) (sound_mismatch .sampleBit view .data)) kind
  unfold enter at h
  dsimp only at h
  rw [arrive_sampleBit] at h
  rcases List.mem_append.mp h with h | h
  · exact absurd h levels
  · rcases List.mem_append.mp h with h | h
    · rcases List.mem_append.mp h with h | h
      · unfold setupNotes at h
        split at h
        · exact Note.unmeasured_of_overflow h
        · cases h
      · exact absurd h (stray _)
    · exact absurd h byte

variable {stretches : Bool} {edge : Edge}

theorem forcedNotes_of_sampleBit
    (target : protocol.successor view.detector edge.line = .sampleBit) :
    protocol.forcedNotes stretches view edge = [] := by
  unfold forcedNotes
  dsimp only
  cases forced : (protocol.landing stretches view edge).forced? with
  | none => rfl
  | some next =>
    unfold landing at forced
    rw [target, forced?_enter_sampleBit] at forced
    split at forced <;> cases forced
    rfl

theorem told_of_sampleBit {left : Protocol} {notes : List Note} {phases : List Phase}
    {error? : Option BusError}
    (extent : protocol.Extent stretches view edge left notes phases error?)
    (samples : .sampleBit ∈ phases) :
    Note.told notes = Note.findings (protocol.edgeNotes view edge ++
        Checker.simultaneousNotes edge ++ (protocol.landing stretches view edge).notes) ∨
      error? = some (.overflow .subtract) ∧ ∃ since, view.data.changedAt = some since ∧
        Time.elapsed since view.now = .error .subtract := by
  have target := (phases_of_sampleBit extent samples).1
  have whole (measured : Note.Sound (protocol.edgeNotes view edge))
      (sound : Note.Sound (protocol.landing stretches view edge).notes) :=
    Note.told_of_sound (Note.sound_append
      (Note.sound_append measured (Checker.sound_simultaneousNotes edge)) sound)
  cases extent with
  | judged => cases samples
  | unread _ overflow =>
    unfold landing at overflow
    rw [target] at overflow
    obtain ⟨rfl, since, moved, unmeasured⟩ := unmeasured_of_sampleBit overflow
    rw [View.data, view.detector_held] at moved
    rw [View.now, view.sight_held] at unmeasured
    exact .inr ⟨rfl, since, moved, unmeasured⟩
  | refused _ _ drives =>
    unfold landing at drives
    rw [target, drive?_enter _ _ (by decide)] at drives
    cases drives
  | settled measured sound => exact .inl (whole measured sound)
  | forced measured sound =>
    rw [notes_answer, forcedNotes_of_sampleBit target, List.append_nil]
    exact .inl (whole measured sound)

theorem countP_of_eighth {left : Protocol} {notes : List Note} {phases : List Phase}
    {error? : Option BusError}
    (extent : protocol.Extent stretches view edge left notes phases error?)
    (samples : .sampleBit ∈ phases)
    (full : (protocol.shifter.clock (view.level .data)).isComplete = true) :
    (Note.told notes).countP (Finding.shows Event.isByte) = 1 ∨
      error? = some (.overflow .subtract) ∧ ∃ since, view.data.changedAt = some since ∧
        Time.elapsed since view.now = .error .subtract := by
  have target := (phases_of_sampleBit extent samples).1
  rw [← shifter_measured protocol view edge, ← data_held view edge stretches] at full
  rcases told_of_sampleBit extent samples with whole | unmeasured
  case inr => exact .inr unmeasured
  case inl =>
    have talk : Note.talk (protocol.landing stretches view edge).notes =
        (protocol.measured view edge).phaseTalk (view.held edge stretches) .sampleBit := by
      rw [← target]
      exact talk_enter ..
    refine .inl ?_
    rw [whole, Finding.countP_shows (fun _ => rfl)]
    change (Note.talk _).countP Event.isByte = 1
    rw [Note.talk_append, Note.talk_append, talk_edgeNotes, talk_simultaneousNotes, talk]
    unfold phaseTalk
    dsimp only
    rw [if_pos full]
    exact countP_byteTalk ..

end Protocol

namespace Checker

variable {β : Type} [LineBus β]

def reads (checker : Checker β) (line : Line) : Option Bool :=
  (checker.probe.lines.read checker.probe.bus line).toOption.map Reading.level

/-- The levels that the data line showed at each bit that was sampled in so many turns, since the
last start of either kind or the last acknowledge bit. -/
def gathered (ready : Checker β) : Nat → List Bool
  | 0 => []
  | n + 1 =>
    match ready.turns n with
    | .ok before => before.entered.foldl (Phase.gather (before.reads .data)) (gathered ready n)
    | .error _ => gathered ready n

theorem gathered_succ {ready before : Checker β} {n : Nat} (run : ready.turns n = .ok before) :
    gathered ready (n + 1) =
      before.entered.foldl (Phase.gather (before.reads .data)) (gathered ready n) := by
  rw [gathered, run]

theorem reads_of_commits {checker : Checker β} {committed : Probe β} {change : Change}
    (commits : checker.probe.Commits change committed) (line : Line) :
    checker.reads line = some ((checker.sees change).level line) := by
  unfold reads Lines.read
  rw [Probe.peer_of_look commits.look line]
  rfl

/-- Between any two turns the shifter holds the bits of the byte in flight. -/
theorem gathers_turns {checker ready between : Checker β} {n : Nat} (made : Made checker)
    (idle : checker.startUp = .ok () ready) (run : ready.turns n = .ok between) :
    between.protocol.phase.Gathers between.protocol.shifter (gathered ready n) := by
  induction n generalizing between with
  | zero =>
    cases run
    rw [phase_startUp idle]
    trivial
  | succ n ih =>
    obtain ⟨before, run, turned⟩ := exists_of_turns_succ run
    have gathers := ih run
    rw [gathered_succ run]
    have left : before.turned = between := by
      unfold Checker.turned
      rw [turned]
    rcases before.commits_or_silent with ⟨change, committed, commits⟩ | ⟨silent, kept⟩
    · obtain ⟨notes, error?, extent, -, ends⟩ := extent_of_commits commits
      cases error? with
      | some error =>
        obtain ⟨stopped, fails⟩ := ends error rfl
        cases turned.symm.trans fails
      | none =>
        obtain ⟨protocol, entered⟩ := Protocol.trail_of_extent extent
        rw [← left, protocol, entered, reads_of_commits commits]
        exact Protocol.gathers_answer (coherent_of_made made idle run) gathers
    · rw [entered_of_silent silent, ← left, kept]
      exact gathers

theorem bit_of_sampleBit {checker ready before : Checker β} {n : Nat} {committed : Probe β}
    {change : Change} {notes : List Note} {error? : Option BusError}
    (idle : checker.startUp = .ok () ready) (run : ready.turns n = .ok before)
    (commits : before.probe.Commits change committed)
    (extent : before.protocol.Extent before.probe.stretch.isEnabled (before.sees change)
      change.edge before.turned.protocol notes before.entered error?)
    (samples : .sampleBit ∈ before.entered) :
    change.line = .clock ∧ committed.detector.clock.level = true ∧
      before.protocol.phase = .driveBit ∧
      gathered ready (n + 1) = gathered ready n ++ [(before.sees change).level .data] := by
  obtain ⟨target, phases⟩ := Protocol.phases_of_sampleBit extent samples
  obtain ⟨phase, line⟩ := Protocol.driveBit_of_sampleBit target
  have reached := Protocol.reached_successor (lasts_turns idle run) (moved_of_commits commits)
  rw [target] at reached
  refine ⟨line, ?_, phase, ?_⟩
  · rw [commits.after]
    exact reached.clock true rfl
  · rw [gathered_succ run, reads_of_commits commits, Protocol.foldl_gather_of_sampleBit _ phases]

theorem shifter_of_driveBit {checker ready before : Checker β} {n : Nat} (made : Made checker)
    (idle : checker.startUp = .ok () ready) (run : ready.turns n = .ok before)
    (phase : before.protocol.phase = .driveBit) :
    before.protocol.shifter.bits ≤ 7 ∧
      before.protocol.shifter.bits = (gathered ready n).length ∧
      ∀ byte, before.protocol.shifter.incoming = some byte →
        byte = (gathered ready n).foldl Shifter.shiftIn 0 := by
  have gathers := gathers_turns made idle run
  have few := (coherent_of_made made idle run).bits
  rw [phase] at gathers few
  exact ⟨few, gathers⟩

theorem byte_of_reported {checker ready before : Checker β} {n : Nat} {event : Event}
    (made : Made checker) (idle : checker.startUp = .ok () ready)
    (run : ready.turns n = .ok before) (told : .event event ∈ before.reported)
    (byte : event.isByte = true) :
    (∃ change committed, before.probe.Commits change committed ∧ change.line = .clock ∧
        committed.detector.clock.level = true) ∧
      .sampleBit ∈ before.entered ∧ (gathered ready n).length = 7 ∧
      (gathered ready (n + 1)).length = 8 ∧
      ∀ value, event = .byteReceived value →
        value.toNat = Nat.ofDigits 2 ((gathered ready (n + 1)).reverse.map Bool.toNat) := by
  obtain ⟨change, committed, commits⟩ := commits_of_reported told
  obtain ⟨notes, error?, extent, same, -⟩ := extent_of_commits commits
  rw [same] at told
  have spoken : ∀ kbps, event ≠ .speed kbps := by
    rintro kbps rfl
    cases byte
  rcases Protocol.mem_phaseTalk_of_extent extent (Note.mem_talk told spoken) with
    ⟨entered, talk⟩ | ⟨forced, next, -, talk⟩
  case inr =>
    have forced := (Protocol.byte_of_phaseTalk talk byte).1
    exact absurd forced (Protocol.forced_ne_sampleBit next)
  case inl =>
    obtain ⟨target, full, values⟩ := Protocol.byte_of_phaseTalk talk byte
    rw [target] at entered
    rw [Protocol.shifter_measured, Protocol.data_held] at full values
    obtain ⟨line, high, phase, grown⟩ := bit_of_sampleBit idle run commits extent entered
    obtain ⟨few, count, taken⟩ := shifter_of_driveBit made idle run phase
    have seven := (Protocol.complete_iff few _).mp full
    have eight : (gathered ready (n + 1)).length = 8 := by
      rw [grown, List.length_append, ← count, seven]
      rfl
    refine ⟨⟨change, committed, commits, line, high⟩, entered, count ▸ seven, eight, ?_⟩
    intro value received
    obtain ⟨early, incoming, shifted⟩ := Option.map_eq_some_iff.mp (values value received)
    rw [← Shifter.toNat_foldl_shiftIn (Nat.le_of_eq eight), grown, List.foldl_append,
      ← taken early incoming, ← shifted]
    rfl

theorem unmeasured_of_sees {before : Checker β} {committed : Probe β} {change : Change}
    {since : Nat} (commits : before.probe.Commits change committed) (line : change.line = .clock)
    (moved : (before.sees change).data.changedAt = some since)
    (long : Time.elapsed since (before.sees change).now = .error .subtract) :
    before.probe.detector.data.changedAt = some since ∧
      Time.elapsed since before.now = .error .subtract := by
  have kept : (before.sees change).data = before.probe.detector.data := by
    unfold sees
    rw [line]
    rfl
  rw [← kept, now, ← Probe.now_of_look commits.look]
  exact ⟨moved, long⟩

theorem byte_of_eighth {checker ready before : Checker β} {n : Nat} (made : Made checker)
    (idle : checker.startUp = .ok () ready) (run : ready.turns n = .ok before)
    (samples : .sampleBit ∈ before.entered) (eight : (gathered ready (n + 1)).length = 8) :
    before.reported.countP (Finding.shows Event.isByte) = 1 ∨
      ∃ since stopped, before.probe.detector.data.changedAt = some since ∧
        Time.elapsed since before.now = .error .subtract ∧
        before.turn = .error (.overflow .subtract, stopped) := by
  obtain ⟨change, committed, commits⟩ := commits_of_entered samples
  obtain ⟨notes, error?, extent, told, ends⟩ := extent_of_commits commits
  obtain ⟨line, high, phase, grown⟩ := bit_of_sampleBit idle run commits extent samples
  obtain ⟨few, count, -⟩ := shifter_of_driveBit made idle run phase
  have seven : before.protocol.shifter.bits = 7 := by
    rw [grown, List.length_append, ← count] at eight
    exact Nat.succ.inj eight
  have full := (Protocol.complete_iff few ((before.sees change).level .data)).mpr seven
  rcases Protocol.countP_of_eighth extent samples full with one | ⟨fails, since, moved, long⟩
  · exact .inl (told ▸ one)
  · obtain ⟨stopped, ended⟩ := ends _ fails
    obtain ⟨moved, long⟩ := unmeasured_of_sees commits line moved long
    exact .inr ⟨since, stopped, moved, long, ended⟩

/-- Bytes are reconstructed from the edges of the bus, in every run and whatever happens in between.
A byte is reported when the clock rises on the eighth bit sampled since the last start of either
kind or the last acknowledge bit; one that is received is the number whose binary digits the data
line has shown at these eight rises; and the eighth bit is reported with one byte, unless the run
ends at it because the time since the data line last moved cannot be measured. -/
theorem bytes_of_eight_bits {checker ready before : Checker β} {n : Nat} (made : Made checker)
    (idle : checker.startUp = .ok () ready) (run : ready.turns n = .ok before) :
    (∀ event, .event event ∈ before.reported → event.isByte = true →
      (∃ change committed, before.probe.Commits change committed ∧ change.line = .clock ∧
        committed.detector.clock.level = true) ∧
      .sampleBit ∈ before.entered ∧ (gathered ready n).length = 7 ∧
        (gathered ready (n + 1)).length = 8) ∧
    (∀ byte, .event (.byteReceived byte) ∈ before.reported →
      byte.toNat = Nat.ofDigits 2 ((gathered ready (n + 1)).reverse.map Bool.toNat)) ∧
    (.sampleBit ∈ before.entered → (gathered ready (n + 1)).length = 8 →
      before.reported.countP (Finding.shows Event.isByte) = 1 ∨
        ∃ since stopped, before.probe.detector.data.changedAt = some since ∧
          Time.elapsed since before.now = .error .subtract ∧
          before.turn = .error (.overflow .subtract, stopped)) := by
  refine ⟨fun event told byte => ?_, fun byte told => ?_, byte_of_eighth made idle run⟩
  · obtain ⟨rise, samples, seven, eight, -⟩ := byte_of_reported made idle run told byte
    exact ⟨rise, samples, seven, eight⟩
  · obtain ⟨-, -, -, -, value⟩ := byte_of_reported made idle run told rfl
    exact value byte rfl

/-- The address byte of a write, its bits set while the clock is low. -/
theorem byte_of_eight_bits :
    ∃ checker ready before : Checker Replay,
      ofConfig { clock := 0, data := 1 }
        (.ofTrace 0 1 [⟨200, 1, some false⟩, ⟨300, 0, some false⟩,
          ⟨350, 1, some false⟩, ⟨400, 0, none⟩, ⟨450, 0, some false⟩,
          ⟨500, 1, none⟩, ⟨550, 0, none⟩, ⟨600, 0, some false⟩,
          ⟨650, 1, some false⟩, ⟨700, 0, none⟩, ⟨750, 0, some false⟩,
          ⟨800, 1, none⟩, ⟨850, 0, none⟩, ⟨900, 0, some false⟩,
          ⟨950, 1, none⟩, ⟨1000, 0, none⟩, ⟨1050, 0, some false⟩,
          ⟨1100, 1, some false⟩, ⟨1150, 0, none⟩, ⟨1200, 0, some false⟩,
          ⟨1250, 1, none⟩, ⟨1300, 0, none⟩, ⟨1350, 0, some false⟩,
          ⟨1400, 1, some false⟩, ⟨1450, 0, none⟩]) = .ok checker ∧
      checker.startUp = .ok () ready ∧ ready.turns 47 = .ok before ∧
      .event (.byteReceived 0x5a) ∈ before.reported ∧
      Nat.ofDigits 2 ((gathered ready 48).reverse.map Bool.toNat) = 0x5a := by
  let bus : Replay := .ofTrace 0 1 [⟨200, 1, some false⟩, ⟨300, 0, some false⟩,
    ⟨350, 1, some false⟩, ⟨400, 0, none⟩, ⟨450, 0, some false⟩,
    ⟨500, 1, none⟩, ⟨550, 0, none⟩, ⟨600, 0, some false⟩,
    ⟨650, 1, some false⟩, ⟨700, 0, none⟩, ⟨750, 0, some false⟩,
    ⟨800, 1, none⟩, ⟨850, 0, none⟩, ⟨900, 0, some false⟩,
    ⟨950, 1, none⟩, ⟨1000, 0, none⟩, ⟨1050, 0, some false⟩,
    ⟨1100, 1, some false⟩, ⟨1150, 0, none⟩, ⟨1200, 0, some false⟩,
    ⟨1250, 1, none⟩, ⟨1300, 0, none⟩, ⟨1350, 0, some false⟩,
    ⟨1400, 1, some false⟩, ⟨1450, 0, none⟩]
  have told : ((ofConfig { clock := 0, data := 1 } bus).toOption.bind
      fun checker => checker.startUp.verdict.toOption.bind
      fun ready => (ready.turns 47).toOption.map fun before => before.reported.head?) =
        some (some (.event (.byteReceived 0x5a))) := by decide +kernel
  obtain ⟨checker, made, told⟩ := Option.bind_eq_some_iff.mp told
  obtain ⟨ready, idle, told⟩ := Option.bind_eq_some_iff.mp told
  obtain ⟨before, run, told⟩ := Option.map_eq_some_iff.mp told
  have made := eq_ok_of_toOption made
  have idle := Outcome.eq_ok_of_verdict (eq_ok_of_toOption idle)
  have run := eq_ok_of_toOption run
  have told := List.mem_of_head? told
  exact ⟨checker, ready, before, made, idle, run, told,
    ((bytes_of_eight_bits (.fresh made) idle run).2.1 0x5a told).symm⟩

/-- The eighth bit may go without a byte: the clock has been low for so long that the time since the
data line last moved is out of range, and the run ends. -/
theorem no_byte_of_long_low :
    ∃ checker ready before : Checker Replay,
      ofConfig { clock := 0, data := 1 }
        (.ofTrace 0 1 [⟨200, 1, some false⟩, ⟨300, 0, some false⟩, ⟨400, 0, none⟩,
          ⟨500, 0, some false⟩, ⟨600, 0, none⟩, ⟨700, 0, some false⟩, ⟨800, 0, none⟩,
          ⟨900, 0, some false⟩, ⟨1000, 0, none⟩, ⟨1100, 0, some false⟩, ⟨1200, 0, none⟩,
          ⟨1300, 0, some false⟩, ⟨1400, 0, none⟩, ⟨1500, 0, some false⟩, ⟨1600, 0, none⟩,
          ⟨1700, 0, some false⟩, ⟨1700 + 2 ^ 62, 1, none⟩, ⟨1700 + 2 ^ 63, 0, none⟩]) =
        .ok checker ∧
      checker.startUp = .ok () ready ∧ ready.turns 35 = .ok before ∧
      .sampleBit ∈ before.entered ∧ (gathered ready 36).length = 8 ∧
      before.reported.countP (Finding.shows Event.isByte) = 0 := by
  let bus : Replay := .ofTrace 0 1 [⟨200, 1, some false⟩, ⟨300, 0, some false⟩, ⟨400, 0, none⟩,
    ⟨500, 0, some false⟩, ⟨600, 0, none⟩, ⟨700, 0, some false⟩, ⟨800, 0, none⟩,
    ⟨900, 0, some false⟩, ⟨1000, 0, none⟩, ⟨1100, 0, some false⟩, ⟨1200, 0, none⟩,
    ⟨1300, 0, some false⟩, ⟨1400, 0, none⟩, ⟨1500, 0, some false⟩, ⟨1600, 0, none⟩,
    ⟨1700, 0, some false⟩, ⟨1700 + 2 ^ 62, 1, none⟩, ⟨1700 + 2 ^ 63, 0, none⟩]
  have counts : ((ofConfig { clock := 0, data := 1 } bus).toOption.bind
      fun checker => checker.startUp.verdict.toOption.bind
      fun ready => (ready.turns 35).toOption.map fun before =>
        (decide (.sampleBit ∈ before.entered), (gathered ready 36).length,
          before.reported.countP (Finding.shows Event.isByte))) = some (true, 8, 0) := by
    decide +kernel
  obtain ⟨checker, made, counts⟩ := Option.bind_eq_some_iff.mp counts
  obtain ⟨ready, idle, counts⟩ := Option.bind_eq_some_iff.mp counts
  obtain ⟨before, run, counts⟩ := Option.map_eq_some_iff.mp counts
  obtain ⟨samples, counts⟩ := Prod.mk.inj counts
  obtain ⟨eight, none⟩ := Prod.mk.inj counts
  exact ⟨checker, ready, before, eq_ok_of_toOption made,
    Outcome.eq_ok_of_verdict (eq_ok_of_toOption idle), eq_ok_of_toOption run,
    of_decide_eq_true samples, eight, none⟩

end Checker
end TwoWire
