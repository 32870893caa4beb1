import Mathlib.Data.List.Infix
import TwoWire.Proofs.Faults

/-! Activity after a refusal. The two flags that decide on it are read off the phases entered since
the last start (`Protocol.Marks`), so it is reported once (`stray_once`). -/

namespace TwoWire

namespace Phase

/-- The bits of the byte in flight once a phase is entered. A start or an acknowledge bit begins the
next byte. -/
def clocked (bits : Nat) : Phase → Nat
  | .sampleBit => bits + 1
  | .starting | .repeatStart | .acked | .nacked => 0
  | _ => bits

def bits (phases : List Phase) : Nat := phases.foldl clocked 0

def Refused (phases : List Phase) : Prop := [.sampleAck, .nacked] <:+: phases

/-- A bit was sampled after a refusal that was the second of its byte. -/
def Stray (phases : List Phase) : Prop :=
  ∃ early, early ++ [.sampleBit] <+: phases ∧ Refused early ∧ bits early = 1

variable {phases : List Phase} {phase : Phase} {forced? : Option Phase}

instance (phases : List Phase) : Decidable (Refused phases) :=
  inferInstanceAs (Decidable (_ <:+: _))

instance (phases : List Phase) : Decidable (Stray phases) :=
  decidable_of_iff (∃ early ∈ phases.inits, early ++ [.sampleBit] <+: phases ∧ Refused early ∧
    bits early = 1) <| exists_congr fun _ => and_iff_right_of_imp fun starts =>
      (List.mem_inits _ _).mpr ((List.prefix_append ..).trans starts.1)

theorem not_refused_nil : ¬Refused [] := by
  unfold Refused
  decide

theorem not_stray_nil : ¬Stray [] := by
  rintro ⟨early, starts, refused, -⟩
  cases early <;> cases List.prefix_nil.mp starts

theorem refused_concat : Refused (phases ++ [phase]) ↔
    Refused phases ∨ phase = .nacked ∧ phases.getLast? = some .sampleAck := by
  have ends : [Phase.sampleAck, .nacked] <:+ phases ++ [phase] ↔
      phase = .nacked ∧ phases.getLast? = some .sampleAck := by
    rw [← List.singleton_suffix_iff_getLast?_eq_some, List.suffix_concat_iff]
    constructor
    · rintro (none | ⟨early, same, suffix⟩)
      · cases none
      · change [Phase.sampleAck] ++ [Phase.nacked] = early ++ [phase] at same
        obtain ⟨rfl, last⟩ := List.append_inj' same rfl
        exact ⟨(List.singleton_inj.mp last).symm, suffix⟩
    · rintro ⟨rfl, suffix⟩
      exact .inr ⟨_, rfl, suffix⟩
  unfold Refused
  rw [List.infix_concat_iff, ends, or_comm]

theorem Stray.append (stray : Stray phases) (entered : List Phase) : Stray (phases ++ entered) := by
  obtain ⟨early, starts, late⟩ := stray
  exact ⟨early, starts.trans (List.prefix_append ..), late⟩

theorem stray_concat : Stray (phases ++ [phase]) ↔
    Stray phases ∨ phase = .sampleBit ∧ Refused phases ∧ bits phases = 1 := by
  constructor
  · rintro ⟨early, starts, late⟩
    rcases List.prefix_concat_iff.mp starts with same | starts
    · obtain ⟨rfl, last⟩ := List.append_inj' same rfl
      exact .inr ⟨(List.singleton_inj.mp last).symm, late⟩
    · exact .inl ⟨early, starts, late⟩
  · rintro (stray | ⟨rfl, late⟩)
    · exact stray.append [phase]
    · exact ⟨phases, List.prefix_rfl, late⟩

theorem stray_append_of_not_mem {entered : List Phase} (none : .sampleBit ∉ entered) :
    Stray (phases ++ entered) ↔ Stray phases := by
  induction entered generalizing phases with
  | nil => rw [List.append_nil]
  | cons phase rest ih =>
    have other : phase ≠ .sampleBit := fun same => none (same ▸ List.mem_cons_self)
    rw [List.append_cons, ih fun mem => none (List.mem_cons_of_mem _ mem), stray_concat,
      or_iff_left fun stray => other stray.1]

theorem stray_append_of_forced (quiet : forced? ≠ some .sampleBit) :
    Stray (phases ++ phase :: forced?.toList) ↔
      Stray phases ∨ phase = .sampleBit ∧ Refused phases ∧ bits phases = 1 := by
  rw [List.append_cons, stray_append_of_not_mem, stray_concat]
  exact fun mem => quiet (Option.mem_toList.mp mem)

theorem refused_append_of_forced (answered : phases.getLast? ≠ some .sampleAck) :
    Refused (phases ++ phase :: forced?.toList) ↔
      Refused phases ∨ phase = .sampleAck ∧ forced? = some .nacked := by
  -- no answer ends in an acknowledge bit, so the first phase does not complete a refusal
  have first : Refused (phases ++ [phase]) ↔ Refused phases := by
    rw [refused_concat, or_iff_left fun refused => answered refused.2]
  cases forced? with
  | none => simpa using first
  | some forced =>
    rw [List.append_cons, Option.toList_some, refused_concat, first, List.getLast?_concat,
      Option.some.injEq, Option.some.injEq, and_comm]

theorem length_foldl_gather (level : Bool) (phases : List Phase) (bits : List Bool) :
    (phases.foldl (gather (some level)) bits).length = phases.foldl clocked bits.length := by
  induction phases generalizing bits with
  | nil => rfl
  | cons phase rest ih =>
    have step : (gather (some level) bits phase).length = clocked bits.length phase := by
      cases phase <;> first | rfl | exact List.length_append
    rw [List.foldl_cons, List.foldl_cons, ih, step]

def isOpen : Phase → Bool
  | .stopped | .illegal => false
  | _ => true

end Phase

namespace Protocol

open Note

variable {protocol after : Protocol} {view : View} {phase : Phase} {phases : List Phase}
  {stretches level weakData driven : Bool} {line : Line} {edge : Edge} {talk : List Event}

theorem strayActivity_clock (protocol : Protocol) (level : Bool) :
    ({ protocol with shifter := protocol.shifter.clock level } : Protocol).strayActivity = true ↔
      protocol.afterNack = true ∧ protocol.shifter.bits = 1 ∧
        protocol.activityReported = false := by
  have second : min (protocol.shifter.bits + 1) 8 = 2 ↔ protocol.shifter.bits = 1 := by omega
  unfold strayActivity Shifter.clock Shifter.bitsPerByte
  simp only [Bool.and_eq_true, Bool.not_eq_true', decide_eq_true_eq, second, and_assoc]

theorem flags_onByteDone (protocol : Protocol) :
    (protocol.onByteDone []).protocol.afterNack = protocol.afterNack ∧
      (protocol.onByteDone []).protocol.activityReported = protocol.activityReported := by
  unfold onByteDone
  split
  · unfold byteReceived command
    dsimp only
    split
    · split <;> exact ⟨rfl, rfl⟩
    · exact ⟨rfl, rfl⟩
  · exact ⟨rfl, rfl⟩

/-- Within a transaction a refusal sets the one flag and a stray bit the other. -/
theorem flags_follow (protocol : Protocol) (view : View) (inside : phase.condition? = none)
    (plain : phase ≠ .checkStartStop) :
    (protocol.follow view phase).protocol.afterNack =
        (protocol.afterNack || decide (phase = .sampleAck) && view.level .data) ∧
      (protocol.follow view phase).protocol.activityReported =
        (protocol.activityReported || decide (phase = .sampleBit) &&
          ({ protocol with shifter := protocol.shifter.clock (view.level .data) } :
            Protocol).strayActivity) := by
  cases phase with
  | stopped | starting | repeatStart => cases inside
  | checkStartStop => exact absurd rfl plain
  | sampleBit =>
    cases full : (protocol.shifter.clock (view.level .data)).isComplete with
    | false =>
      rw [follow_sampleBit_of_incomplete full]
      exact ⟨(Bool.or_false _).symm, rfl⟩
    | true =>
      obtain ⟨refused, reported⟩ := (protocol.sampled (view.level .data)).flags_onByteDone
      rw [follow_sampleBit_of_complete full]
      exact ⟨refused.trans (Bool.or_false _).symm, reported⟩
  | sampleAck =>
    rw [follow_sampleAck]
    unfold endByte peerAnswered
    dsimp only
    split
    · exact ⟨rfl, (Bool.or_false _).symm⟩
    · split <;> exact ⟨rfl, (Bool.or_false _).symm⟩
  | driveAck =>
    cases ours : protocol.acknowledging with
    | true =>
      rw [follow_driveAck_of_ours ours]
      exact ⟨(Bool.or_false _).symm, (Bool.or_false _).symm⟩
    | false =>
      rw [follow_driveAck_of_theirs ours]
      exact ⟨(Bool.or_false _).symm, (Bool.or_false _).symm⟩
  | driveBit | byteDone | ackSent | acked | nacked | illegal =>
    exact ⟨(Bool.or_false _).symm, (Bool.or_false _).symm⟩

/-- While a transaction is under way the flags say what was entered since its start. -/
structure Marks (protocol : Protocol) (phases : List Phase) : Prop where
  answered : phases.getLast? ≠ some .sampleAck
  refused : protocol.phase.isOpen = true → (protocol.afterNack = true ↔ Phase.Refused phases)
  reported : protocol.phase.isOpen = true → (protocol.activityReported = true ↔ Phase.Stray phases)

theorem answered_trail (protocol : Protocol) (view : View) (phase : Phase) (phases : List Phase) :
    (phases ++ protocol.trail view phase).getLast? ≠ some .sampleAck := by
  unfold trail
  cases forces : (protocol.enter view phase).forced? with
  | none =>
    intro last
    rw [Option.toList_none, List.getLast?_concat, Option.some.injEq] at last
    rw [last, forced?_enter_sampleAck] at forces
    cases forces
  | some forced =>
    intro last
    rw [Option.toList_some, List.append_cons, List.getLast?_concat, Option.some.injEq] at last
    rw [last] at forces
    cases (rests_of_forced forces).1

theorem Marks.follow (marks : protocol.Marks phases) (started : protocol.phase.isOpen = true)
    (inside : phase.condition? = none) (plain : phase ≠ .checkStartStop)
    (counted : phase = .sampleBit → protocol.shifter.bits = Phase.bits phases) :
    (protocol.follow view phase).protocol.Marks (phases ++ protocol.trail view phase) := by
  obtain ⟨refuses, reports⟩ := protocol.flags_follow view inside plain
  have quiet : (protocol.enter view phase).forced? ≠ some .sampleBit :=
    fun forced => forced_ne_sampleBit forced rfl
  refine ⟨answered_trail _ _ _ _, fun _ => ?_, fun _ => ?_⟩
  · have ends : phase = .sampleAck ∧ (protocol.enter view phase).forced? = some .nacked ↔
        phase = .sampleAck ∧ view.level .data = true := by
      refine and_congr_right fun acks => ?_
      rw [acks, forced?_enter_sampleAck]
      cases view.level .data <;> simp
    unfold trail
    rw [refuses, Phase.refused_append_of_forced marks.answered, ends, Bool.or_eq_true,
      Bool.and_eq_true, decide_eq_true_eq, marks.refused started]
  · unfold trail
    rw [reports, Phase.stray_append_of_forced quiet, Bool.or_eq_true, Bool.and_eq_true,
      decide_eq_true_eq, marks.reported started]
    by_cases bit : phase = .sampleBit
    case neg => simp [bit]
    case pos =>
      -- the flag stands for the whole past, so setting it only when it is clear loses nothing
      rw [strayActivity_clock, marks.refused started, counted bit, ← Bool.not_eq_true,
        marks.reported started]
      tauto

/-- Nothing but a start leads back into a transaction. -/
theorem Way.goes_on (way : protocol.Way level weakData line after driven talk)
    (quiet : ∀ event ∈ talk, event.isStart = false) (ends : after.phase.isOpen = true) :
    protocol.phase.isOpen = true ∧ after.phase ≠ .starting ∧ after.phase ≠ .repeatStart := by
  have of_low {phase : Phase} (low : phase.isLow = true) :
      phase.isOpen = true ∧ phase ≠ .starting ∧ phase ≠ .repeatStart := by
    revert low
    cases phase <;> decide
  have of_high {phase : Phase} (high : phase.isHigh = true) :
      phase.isOpen = true ∧ phase ≠ .repeatStart := by
    revert high
    cases phase <;> decide
  cases way with
  | fall _ high core =>
    rw [(eq_of_core core).1]
    refine ⟨?_, (of_low protocol.isLow_fall).2⟩
    rcases high with high | again
    · exact (of_high high).1
    · rw [again]
      rfl
  | rise _ low core =>
    rw [(eq_of_core core).1]
    obtain ⟨high, begun⟩ := protocol.isHigh_rise level
    exact ⟨(of_low low).1, begun, (of_high high).2⟩
  | stay _ phase core =>
    rw [(eq_of_core core).1]
    rcases phase with low | acked | nacked
    · exact of_low low
    · rw [acked]
      decide
    · rw [nacked]
      decide
  | start _ _ _ _ told =>
    obtain ⟨event, starts, rfl⟩ := told
    cases starts.symm.trans (quiet event (List.mem_singleton_self _))
  | leave _ _ phase =>
    rcases phase with phase | phase
    all_goals
      rw [phase] at ends
      cases ends

theorem inside_of_follow (ends : (protocol.follow view phase).protocol.phase.isOpen = true)
    (begun : (protocol.follow view phase).protocol.phase ≠ .starting)
    (again : (protocol.follow view phase).protocol.phase ≠ .repeatStart) :
    phase.condition? = none ∧ phase ≠ .checkStartStop := by
  cases phase with
  | stopped => cases ends
  | starting => exact absurd rfl begun
  | repeatStart => exact absurd rfl again
  | checkStartStop =>
    rw [phase_follow, forced?_enter_checkStartStop, Option.getD_some] at ends begun again
    split at ends
    case isTrue => cases ends
    case isFalse low =>
      rw [if_neg low] at begun again
      by_cases first : protocol.shifter.bits = 1
      · exact absurd (if_pos first) again
      · exact absurd (if_neg first) begun
  | _ => exact ⟨rfl, by decide⟩

theorem Marks.answer (marks : protocol.Marks phases) (stretches : Bool)
    (counted : protocol.phase = .driveBit → protocol.shifter.bits = Phase.bits phases)
    (way : protocol.Way level weakData edge.line (protocol.answer stretches view edge).protocol
      driven talk)
    (quiet : ∀ event ∈ talk, event.isStart = false) :
    (protocol.answer stretches view edge).protocol.Marks
      (phases ++ protocol.entries stretches view edge) := by
  by_cases ends : (protocol.answer stretches view edge).protocol.phase.isOpen = true
  case neg =>
    exact ⟨answered_trail _ _ _ _, fun goes => absurd goes ends, fun goes => absurd goes ends⟩
  case pos =>
    obtain ⟨started, begun, again⟩ := way.goes_on quiet ends
    obtain ⟨inside, plain⟩ := inside_of_follow ends begun again
    obtain ⟨meter, same⟩ := protocol.measured_eq view edge
    have measured : (protocol.measured view edge).Marks phases := by
      rw [same]
      exact ⟨marks.answered, marks.refused, marks.reported⟩
    refine measured.follow ?_ inside plain fun samples => ?_
    · rw [phase_measured]
      exact started
    · rw [shifter_measured]
      exact counted (driveBit_of_sampleBit samples).1

theorem cleared_of_start (start : (protocol.follow view phase).protocol.phase = .starting ∨
      (protocol.follow view phase).protocol.phase = .repeatStart) :
    (protocol.follow view phase).protocol.afterNack = false ∧
      (protocol.follow view phase).protocol.activityReported = false := by
  rw [phase_follow] at start
  cases forces : (protocol.enter view phase).forced? with
  | none =>
    rw [forces] at start
    rcases start with rfl | rfl <;> exact ⟨rfl, rfl⟩
  | some forced =>
    rw [forces, Option.getD_some] at start
    rcases forced_cases forces with
      ⟨-, -, rfl⟩ | ⟨rfl, moved⟩ | ⟨-, -, rfl⟩ | ⟨-, answers⟩
    · rcases start with start | start <;> cases start
    · cases rose : view.data.level with
      | true =>
        rw [moved, rose] at start
        rcases start with start | start <;> cases start
      | false =>
        rw [follow_checkStartStop_of_start rose]
        exact ⟨rfl, rfl⟩
    · rcases start with start | start <;> cases start
    · rw [answers] at start
      split at start <;> rcases start with start | start <;> cases start

theorem marks_of_start (start : (protocol.answer stretches view edge).protocol.phase = .starting ∨
      (protocol.answer stretches view edge).protocol.phase = .repeatStart) :
    (protocol.answer stretches view edge).protocol.Marks [] := by
  obtain ⟨refused, reported⟩ := cleared_of_start start
  refine ⟨nofun, fun _ => ?_, fun _ => ?_⟩
  · exact iff_of_false (Bool.not_eq_true _ ▸ refused) Phase.not_refused_nil
  · exact iff_of_false (Bool.not_eq_true _ ▸ reported) Phase.not_stray_nil

variable {left : Protocol} {notes : List Note} {entered : List Phase} {error? : Option BusError}

theorem mem_phaseFaults_iff : .activityAfterNack ∈ protocol.phaseFaults view phase ↔
    phase = .sampleBit ∧ ({ protocol with shifter := protocol.shifter.clock (view.level .data) } :
      Protocol).strayActivity = true := by
  unfold phaseFaults
  cases phase with
  | sampleBit | sampleAck =>
    dsimp only
    split <;> simp_all
  | checkStartStop =>
    cases view.data.level <;> simp
  | _ => simp

theorem stray_of_told
    (suits : (view.held edge stretches).Suits (protocol.successor view.detector edge.line))
    (extent : protocol.Extent stretches view edge left notes entered error?)
    (mem : .activityAfterNack ∈ Finding.faults (told notes)) :
    .sampleBit ∈ entered ∧
      ({ protocol with shifter := protocol.shifter.clock (view.level .data) } :
        Protocol).strayActivity = true := by
  have found := (faults_of_extent suits extent).subset mem
  have apart : .activityAfterNack ∉ if edge = .simultaneous then [SequenceFault.simultaneousEdges]
      else [] := by
    split <;> decide
  obtain ⟨target, stray⟩ := mem_phaseFaults_iff.mp ((List.mem_append.mp found).resolve_left apart)
  refine ⟨?_, stray⟩
  cases extent with
  | judged =>
    -- cut short before any phase: all that is told is what the edge itself shows
    have edges := faults_told_prefix (protocol.edgeNotes view edge)
    rw [faults_edgeNotes] at edges
    rw [List.prefix_nil.mp edges] at mem
    cases mem
  | unread | refused | settled | forced =>
    rw [target]
    exact List.mem_cons_self

theorem count_of_stray (extent : protocol.Extent stretches view edge left notes entered error?)
    (samples : .sampleBit ∈ entered)
    (stray : ({ protocol with shifter := protocol.shifter.clock (view.level .data) } :
      Protocol).strayActivity = true) :
    (Finding.faults (told notes)).count .activityAfterNack = 1 ∨
      error? = some (.overflow .subtract) ∧ ∃ since, view.data.changedAt = some since ∧
        Time.elapsed since view.now = .error .subtract := by
  refine (told_of_sampleBit extent samples).imp_left fun whole => ?_
  rw [whole]
  change (Note.faults _).count _ = 1
  rw [faults_landing, (phases_of_sampleBit extent samples).1]
  unfold phaseFaults
  dsimp only
  rw [if_pos stray]
  split <;> rfl

theorem quiet_fallTalk {event : Event} (told : event ∈ protocol.fallTalk) :
    event.isStart = false := by
  unfold fallTalk at told
  split at told
  · rw [List.mem_singleton.mp told]
    split <;> rfl
  · cases told

theorem quiet_riseTalk {event : Event} (told : event ∈ protocol.riseTalk level) :
    event.isStart = false := by
  unfold riseTalk at told
  dsimp only at told
  split at told
  · split at told
    · split at told
      · rcases List.mem_cons.mp told with rfl | told
        · rfl
        · split at told
          · rw [List.mem_singleton.mp told]
            rfl
          · cases told
      · rw [List.mem_singleton.mp told]
        rfl
    · cases told
  · split at told
    · cases told
    · split at told
      · rcases List.mem_pair.mp told with rfl | rfl <;> rfl
      · rw [List.mem_singleton.mp told]
        rfl

theorem Way.begins (way : protocol.Way level weakData line after driven talk) {event : Event}
    (told : event ∈ talk) (starts : event.isStart = true) :
    after.phase = .starting ∨ after.phase = .repeatStart := by
  cases way with
  | start _ _ phase => exact phase
  | fall _ _ _ _ same =>
    cases starts.symm.trans (quiet_fallTalk (same ▸ told))
  | rise _ _ _ _ same =>
    cases starts.symm.trans (quiet_riseTalk (same ▸ told))
  | stay _ _ _ _ same =>
    rw [same] at told
    cases told
  | leave _ _ _ _ _ same =>
    rcases same with rfl | rfl
    · cases told
    · rw [List.mem_singleton.mp told] at starts
      cases starts

end Protocol

namespace Checker

variable {β : Type} [LineBus β] {checker ready before next later : Checker β}
  {told since : List Finding} {entered phases : List Phase} {n : Nat}

theorem length_gathered_succ (run : ready.turns n = .ok before) :
    (gathered ready (n + 1)).length =
      before.entered.foldl Phase.clocked (gathered ready n).length := by
  rw [gathered_succ run]
  rcases before.commits_or_silent with ⟨change, committed, commits⟩ | ⟨silent, -⟩
  · rw [reads_of_commits commits, Phase.length_foldl_gather]
  · rw [entered_of_silent silent]
    rfl

/-- The data line has not moved for so long that the time cannot be measured, and the run ends. -/
def Unmeasured (before : Checker β) : Prop :=
  ∃ since stopped, before.probe.detector.data.changedAt = some since ∧
    Time.elapsed since before.now = .error .subtract ∧
    before.turn = .error (.overflow .subtract, stopped)

/-- What is known of a run since a start: the marks and the bits counted are those of the phases
entered. -/
structure Follows (ready later : Checker β) (phases : List Phase) : Prop where
  marks : later.protocol.Marks phases
  counted : ∃ n, ready.turns n = .ok later ∧ (gathered ready n).length = Phase.bits phases

theorem follows_of_start (made : Made checker) (idle : checker.startUp = .ok () ready)
    (first : ready.Passes told entered before) {event : Event}
    (start : .event event ∈ before.reported) (starts : event.isStart = true)
    (turned : before.turn = .ok next) : ready.Follows next [] := by
  obtain ⟨n, run⟩ := first.turns
  obtain ⟨change, replied, spoken, way⟩ := way_of_told idle run turned start
    (by cases event <;> first | rfl | cases starts)
  have phase := way.begins spoken starts
  have run := turns_succ run turned
  refine ⟨?_, n + 1, run, ?_⟩
  · rw [replied.protocol] at phase ⊢
    exact Protocol.marks_of_start phase
  · have gathers := gathers_turns made idle run
    rcases phase with phase | phase
    all_goals
      rw [phase] at gathers
      rw [gathers.1]
      rfl

theorem Follows.turn (made : Made checker) (idle : checker.startUp = .ok () ready)
    (follows : ready.Follows before phases) (turned : before.turn = .ok next)
    (quiet : ∀ event, .event event ∈ before.reported → event.isStart = false) :
    ready.Follows next (phases ++ before.entered) := by
  obtain ⟨marks, n, run, counted⟩ := follows
  refine ⟨?_, n + 1, turns_succ run turned, ?_⟩
  · rcases way_of_run idle run turned with ⟨change, committed, commits, replied, way⟩ | waited
    · have shifter := shifter_of_driveBit made idle run
      rw [replied.protocol] at way ⊢
      rw [replied.entered]
      refine marks.answer _ (fun phase => (shifter phase).2.1.trans counted) way fun event mem => ?_
      refine quiet event ?_
      rw [replied.reported]
      exact Note.mem_findings_of_talk mem
    · rw [waited.protocol, waited.entered, List.append_nil]
      exact marks
  · rw [length_gathered_succ run, counted]
    unfold Phase.bits
    rw [List.foldl_append]

theorem Follows.passes (made : Made checker) (idle : checker.startUp = .ok () ready)
    (follows : ready.Follows next []) (passes : next.Passes since phases later)
    (quiet : ∀ event, .event event ∈ since → event.isStart = false) :
    ready.Follows later phases := by
  induction passes with
  | none => exact follows
  | turn _ turned ih =>
    refine (ih fun event mem => quiet event (List.mem_append_left _ mem)).turn made idle turned ?_
    exact fun event mem => quiet event (List.mem_append_right _ mem)

theorem Follows.stray_iff (made : Made checker) (idle : checker.startUp = .ok () ready)
    (follows : ready.Follows before phases) (driving : before.protocol.phase = .driveBit)
    (level : Bool) :
    ({ before.protocol with shifter := before.protocol.shifter.clock level } :
        Protocol).strayActivity = true ↔
      Phase.Refused phases ∧ Phase.bits phases = 1 ∧ ¬Phase.Stray phases := by
  obtain ⟨marks, n, run, counted⟩ := follows
  have started : before.protocol.phase.isOpen = true := by rw [driving]; rfl
  rw [Protocol.strayActivity_clock, (shifter_of_driveBit made idle run driving).2.1, counted,
    marks.refused started, ← Bool.not_eq_true, marks.reported started]

theorem stray_append_entered (samples : .sampleBit ∈ before.entered) :
    Phase.Stray (phases ++ before.entered) ↔
      Phase.Stray phases ∨ Phase.Refused phases ∧ Phase.bits phases = 1 := by
  obtain ⟨change, committed, commits⟩ := commits_of_entered samples
  obtain ⟨notes, error?, extent, -⟩ := extent_of_commits commits
  have same : ∃ forced?, forced? ≠ some .sampleBit ∧
      before.entered = .sampleBit :: Option.toList forced? := by
    rcases (Protocol.phases_of_sampleBit extent samples).2 with one | two
    · exact ⟨none, nofun, one⟩
    · exact ⟨some .byteDone, by decide, two⟩
  obtain ⟨forced?, quiet, same⟩ := same
  rw [same, Phase.stray_append_of_forced quiet, eq_self, true_and]

theorem sampled_of_reported (idle : checker.startUp = .ok () ready)
    (run : ready.turns n = .ok before)
    (mem : .activityAfterNack ∈ Finding.faults before.reported) :
    .sampleBit ∈ before.entered ∧ before.protocol.phase = .driveBit ∧ ∃ level,
      ({ before.protocol with shifter := before.protocol.shifter.clock level } :
        Protocol).strayActivity = true := by
  obtain ⟨finding, found, -⟩ := List.mem_filterMap.mp mem
  obtain ⟨change, committed, commits⟩ := commits_of_reported found
  obtain ⟨notes, error?, extent, same, -⟩ := extent_of_commits commits
  rw [same] at mem
  obtain ⟨samples, stray⟩ :=
    Protocol.stray_of_told (suits_of_commits (lasts_turns idle run) commits) extent mem
  have target := (Protocol.phases_of_sampleBit extent samples).1
  exact ⟨samples, (Protocol.driveBit_of_sampleBit target).1, _, stray⟩

theorem Follows.stray_of_reported (made : Made checker) (idle : checker.startUp = .ok () ready)
    (follows : ready.Follows before phases)
    (mem : .activityAfterNack ∈ Finding.faults before.reported) :
    ¬Phase.Stray phases ∧ Phase.Stray (phases ++ before.entered) := by
  obtain ⟨n, run, -⟩ := follows.counted
  obtain ⟨samples, driving, level, stray⟩ := sampled_of_reported idle run mem
  obtain ⟨refused, second, none⟩ := (follows.stray_iff made idle driving level).mp stray
  exact ⟨none, (stray_append_entered samples).mpr (.inr ⟨refused, second⟩)⟩

theorem Follows.reported_of_stray (made : Made checker) (idle : checker.startUp = .ok () ready)
    (follows : ready.Follows before phases) (first : ¬Phase.Stray phases)
    (stray : Phase.Stray (phases ++ before.entered)) :
    (Finding.faults before.reported).count .activityAfterNack = 1 ∨ before.Unmeasured := by
  have samples : .sampleBit ∈ before.entered := by
    by_contra none
    exact first ((Phase.stray_append_of_not_mem none).mp stray)
  obtain ⟨refused, second⟩ := ((stray_append_entered samples).mp stray).resolve_left first
  obtain ⟨change, committed, commits⟩ := commits_of_entered samples
  obtain ⟨notes, error?, extent, same, ends⟩ := extent_of_commits commits
  obtain ⟨driving, line⟩ :=
    Protocol.driveBit_of_sampleBit (Protocol.phases_of_sampleBit extent samples).1
  have stray := (follows.stray_iff made idle driving ((before.sees change).level .data)).mpr
    ⟨refused, second, first⟩
  rw [same]
  refine (Protocol.count_of_stray extent samples stray).imp_right ?_
  rintro ⟨fails, since, moved, long⟩
  obtain ⟨stopped, ended⟩ := ends _ fails
  obtain ⟨moved, long⟩ := unmeasured_of_sees commits line moved long
  exact ⟨since, stopped, moved, long, ended⟩

structure TellsStray (phases : List Phase) (findings : List Finding) : Prop where
  none : ¬Phase.Stray phases → .activityAfterNack ∉ Finding.faults findings
  once : Phase.Stray phases → (Finding.faults findings).count .activityAfterNack = 1

/-- A turn, and the findings and phases since a start. The first stray bit is reported, and that
once, unless the run ends before that. -/
structure StrayOnce (phases : List Phase) (since : List Finding) (later : Checker β) : Prop where
  none : ¬Phase.Stray (phases ++ later.entered) →
    .activityAfterNack ∉ Finding.faults (since ++ later.reported)
  first : ¬Phase.Stray phases → Phase.Stray (phases ++ later.entered) →
    .activityAfterNack ∉ Finding.faults since ∧
      ((Finding.faults later.reported).count .activityAfterNack = 1 ∨ later.Unmeasured)
  again : Phase.Stray phases → (Finding.faults since).count .activityAfterNack = 1 ∧
    .activityAfterNack ∉ Finding.faults later.reported

theorem TellsStray.turn (made : Made checker) (idle : checker.startUp = .ok () ready)
    (follows : ready.Follows later phases) (tells : TellsStray phases since) :
    later.StrayOnce phases since := by
  have only (mem : .activityAfterNack ∈ Finding.faults later.reported) :=
    follows.stray_of_reported made idle mem
  refine ⟨fun none => ?_, fun none stray => ?_, fun stray => ?_⟩
  · have early : ¬Phase.Stray phases := fun stray => none (stray.append later.entered)
    rw [Finding.faults_append, List.mem_append, not_or]
    exact ⟨tells.none early, fun mem => none (only mem).2⟩
  · exact ⟨tells.none none, follows.reported_of_stray made idle none stray⟩
  · exact ⟨tells.once stray, fun mem => (only mem).1 stray⟩

theorem StrayOnce.tells (once : later.StrayOnce phases since) (turned : later.turn = .ok next) :
    TellsStray (phases ++ later.entered) (since ++ later.reported) := by
  refine ⟨once.none, fun stray => ?_⟩
  rw [Finding.faults_append, List.count_append]
  by_cases early : Phase.Stray phases
  · obtain ⟨one, none⟩ := once.again early
    rw [one, List.count_eq_zero_of_not_mem none]
  · obtain ⟨none, one | ⟨_, _, -, -, ended⟩⟩ := once.first early stray
    · rw [one, List.count_eq_zero_of_not_mem none]
    · cases turned.symm.trans ended

theorem Follows.tells (made : Made checker) (idle : checker.startUp = .ok () ready)
    (follows : ready.Follows next []) (passes : next.Passes since phases later)
    (quiet : ∀ event, .event event ∈ since → event.isStart = false) :
    TellsStray phases since := by
  induction passes with
  | none => exact ⟨fun _ => List.not_mem_nil, fun stray => absurd stray Phase.not_stray_nil⟩
  | turn early turned ih =>
    have quiet : ∀ event, _ := fun event mem => quiet event (List.mem_append_left _ mem)
    exact ((ih quiet).turn made idle (follows.passes made idle early quiet)).tells turned

theorem unsampled_of_start (idle : checker.startUp = .ok () ready)
    (run : ready.turns n = .ok before) {event : Event} (start : .event event ∈ before.reported)
    (starts : event.isStart = true) : .sampleBit ∉ before.entered := by
  intro samples
  obtain ⟨change, committed, commits⟩ := commits_of_entered samples
  obtain ⟨notes, error?, extent, same, -⟩ := extent_of_commits commits
  rw [same] at start
  have framing : event.isFraming = true := by cases event <;> first | rfl | cases starts
  have data := (Protocol.dataEdge_of_told (lasts_turns idle run) (moved_of_commits commits) extent
    start framing).1
  have clock :=
    (Protocol.driveBit_of_sampleBit (Protocol.phases_of_sampleBit extent samples).1).2
  cases clock.symm.trans data

/-- Activity after a refusal is reported once. Between a start and the next, or the end of the run,
it is reported at the first bit that is the second of its byte after one that was refused, and
nowhere else; but the run may end at this bit before that, because the time since the data line last
moved cannot be measured. -/
theorem stray_once (made : Made checker) (idle : checker.startUp = .ok () ready)
    (first : ready.Passes told entered before) {event : Event}
    (start : .event event ∈ before.reported) (starts : event.isStart = true) :
    .activityAfterNack ∉ Finding.faults before.reported ∧
      ∀ next since phases later, before.turn = .ok next → next.Passes since phases later →
        (∀ event, .event event ∈ since → event.isStart = false) →
          later.StrayOnce phases since := by
  obtain ⟨n, run⟩ := first.turns
  refine ⟨fun mem => ?_, fun next since phases later turned passes quiet => ?_⟩
  · exact unsampled_of_start idle run start starts (sampled_of_reported idle run mem).1
  · have follows := follows_of_start made idle first start starts turned
    exact (follows.tells made idle passes quiet).turn made idle
      (follows.passes made idle passes quiet)

/-- A command that we refuse, and three clocks more. -/
theorem stray_in_read :
    ∃ (checker ready before next later : Checker Replay) (since : List Finding)
      (phases : List Phase),
      ofConfig { clock := 0, data := 1, ackSequence := [false] }
        ((Replay.ofTrace 0 1 (Replay.readTrace 5)).withCycle 10) = .ok checker ∧
      checker.startUp = .ok () ready ∧ ready.turns 1 = .ok before ∧
      .event .startBit ∈ before.reported ∧ before.turn = .ok next ∧
      next.Passes since phases later ∧ Phase.Stray phases ∧ phases.count .sampleBit = 10 ∧
      (Finding.faults since).count .activityAfterNack = 1 ∧ .sampleBit ∈ later.entered ∧
      .activityAfterNack ∉ Finding.faults later.reported := by
  let bus : Replay := (Replay.ofTrace 0 1 (Replay.readTrace 5)).withCycle 10
  have seen : ((ofConfig { clock := 0, data := 1, ackSequence := [false] } bus).toOption.bind
      fun checker => checker.startUp.verdict.toOption.bind
      fun ready => (ready.turns 1).toOption.bind
      fun before => before.turn.toOption.bind
      fun next => (next.turns 51).toOption.map
      fun later => (before.reported.head?, (later.findings.drop next.findings.length).all
          fun finding => !finding.shows Event.isStart,
        decide (Phase.Stray (later.phases.drop next.phases.length)),
        (later.phases.drop next.phases.length).count .sampleBit, later.entered.head?)) =
      some (some (.event .startBit), true, true, 10, some .sampleBit) := by decide +kernel
  obtain ⟨checker, made, seen⟩ := Option.bind_eq_some_iff.mp seen
  obtain ⟨ready, idle, seen⟩ := Option.bind_eq_some_iff.mp seen
  obtain ⟨before, run, seen⟩ := Option.bind_eq_some_iff.mp seen
  obtain ⟨next, turned, seen⟩ := Option.bind_eq_some_iff.mp seen
  obtain ⟨later, run', seen⟩ := Option.map_eq_some_iff.mp seen
  have made := eq_ok_of_toOption made
  have idle := Outcome.eq_ok_of_verdict (eq_ok_of_toOption idle)
  have run := eq_ok_of_toOption run
  have turned := eq_ok_of_toOption turned
  obtain ⟨told, entered, first⟩ := passes_of_turns run
  obtain ⟨since, phases, passes⟩ := passes_of_turns (eq_ok_of_toOption run')
  rw [passes.grown.1, passes.grown.2] at seen
  obtain ⟨start, quiet, stray, bits, samples⟩ := by simpa only [Prod.mk.injEq] using seen
  have start := List.mem_of_head? start
  have stray := of_decide_eq_true stray
  obtain ⟨-, once⟩ := stray_once (.fresh made) idle first start rfl
  obtain ⟨one, none⟩ :=
    (once next since phases later turned passes fun _ => Finding.quiet_of_all quiet).again stray
  exact ⟨checker, ready, before, next, later, since, phases, made, idle, run, start, turned, passes,
    stray, bits, one, List.mem_of_head? samples, none⟩

/-- The stray bit may go unreported: the clock has been low for so long that the time since the data
line last moved is out of range, and the run ends. -/
theorem unreported_after_long_low :
    ∃ (checker ready before next later : Checker Replay) (since : List Finding)
      (phases : List Phase),
      ofConfig { clock := 0, data := 1, ackSequence := [false] }
        (.ofTrace 0 1 ([⟨200, 1, some false⟩, ⟨300, 0, some false⟩] ++ Replay.pulses 400 8 ++
          [⟨1950, 1, none⟩] ++ Replay.pulses 2000 2 ++
          [⟨2300 + 2 ^ 62, 1, some false⟩, ⟨2300 + 2 ^ 63, 0, none⟩])) = .ok checker ∧
      checker.startUp = .ok () ready ∧ ready.turns 1 = .ok before ∧
      .event .startBit ∈ before.reported ∧ before.turn = .ok next ∧
      next.Passes since phases later ∧ (∀ after, later.turn ≠ .ok after) ∧
      Phase.Stray (phases ++ later.entered) ∧
      (∀ event, .event event ∈ since ++ later.reported → event.isStart = false) ∧
      (Finding.faults (since ++ later.reported)).count .activityAfterNack = 0 := by
  let bus : Replay := .ofTrace 0 1 ([⟨200, 1, some false⟩, ⟨300, 0, some false⟩] ++
    Replay.pulses 400 8 ++ [⟨1950, 1, none⟩] ++ Replay.pulses 2000 2 ++
    [⟨2300 + 2 ^ 62, 1, some false⟩, ⟨2300 + 2 ^ 63, 0, none⟩])
  have seen : ((ofConfig { clock := 0, data := 1, ackSequence := [false] } bus).toOption.bind
      fun checker => checker.startUp.verdict.toOption.bind
      fun ready => (ready.turns 1).toOption.bind
      fun before => before.turn.toOption.bind
      fun next => (next.turns 47).toOption.map
      fun later => (before.reported.head?,
        (later.findings.drop next.findings.length ++ later.reported).all
          fun finding => !finding.shows Event.isStart,
        decide (Phase.Stray (later.phases.drop next.phases.length ++ later.entered)),
        (Finding.faults (later.findings.drop next.findings.length ++ later.reported)).count
          .activityAfterNack, later.turn.toOption.isSome)) =
      some (some (.event .startBit), true, true, 0, false) := by decide +kernel
  obtain ⟨checker, made, seen⟩ := Option.bind_eq_some_iff.mp seen
  obtain ⟨ready, idle, seen⟩ := Option.bind_eq_some_iff.mp seen
  obtain ⟨before, run, seen⟩ := Option.bind_eq_some_iff.mp seen
  obtain ⟨next, turned, seen⟩ := Option.bind_eq_some_iff.mp seen
  obtain ⟨later, run', seen⟩ := Option.map_eq_some_iff.mp seen
  obtain ⟨since, phases, passes⟩ := passes_of_turns (eq_ok_of_toOption run')
  rw [passes.grown.1, passes.grown.2] at seen
  obtain ⟨start, quiet, stray, none, ended⟩ := by simpa only [Prod.mk.injEq] using seen
  refine ⟨checker, ready, before, next, later, since, phases, eq_ok_of_toOption made,
    Outcome.eq_ok_of_verdict (eq_ok_of_toOption idle), eq_ok_of_toOption run,
    List.mem_of_head? start, eq_ok_of_toOption turned, passes, fun after goesOn => ?_,
    of_decide_eq_true stray, fun _ => Finding.quiet_of_all quiet, none⟩
  rw [goesOn] at ended
  cases ended

end Checker
end TwoWire
