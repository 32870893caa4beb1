import TwoWire.Proofs.Segment
import TwoWire.Proofs.Steady

/-! The ways an edge can lead on, with all that becomes of the protocol and of the data line as we
drive it (`way_of_turn`). -/

namespace TwoWire

theorem Note.mem_findings_of_talk {notes : List Note} {event : Event} (mem : event ∈ talk notes) :
    .event event ∈ findings notes := by
  obtain ⟨finding, found, spoken⟩ := List.mem_filterMap.mp mem
  cases finding with
  | violation broken => cases spoken
  | event told => cases told <;> cases spoken <;> exact found

theorem Finding.quiet_of_all {findings : List Finding} {p : Event → Bool}
    (none : (findings.all fun finding => !finding.shows p) = true) {event : Event}
    (mem : .event event ∈ findings) : p event = false := by
  rw [← Bool.not_eq_true']
  exact List.all_eq_true.mp none _ mem

namespace Protocol

open Note

/-- What an edge leads to, if the data line is at `level` on the bus and we drive it at `weakData`:
the protocol's next state, our next drive of the data line and what is told of. -/
inductive Way (protocol : Protocol) (level weakData : Bool) (line : Line) (after : Protocol)
    (driven : Bool) (talk : List Event) : Prop
  | fall (clock : line = .clock)
      (high : protocol.phase.isHigh = true ∨ protocol.phase = .repeatStart)
      (core : after.core = protocol.fall.core) (drives : driven = protocol.wanted)
      (told : talk = protocol.fallTalk)
  | rise (clock : line = .clock) (low : protocol.phase.isLow = true)
      (core : after.core = (protocol.rise level).core) (still : driven = weakData)
      (told : talk = protocol.riseTalk level)
  /-- The data line moves, and nothing comes of it. -/
  | stay (data : line = .data)
      (phase : protocol.phase.isLow = true ∨ protocol.phase = .acked ∨ protocol.phase = .nacked)
      (core : after.core = protocol.core) (still : driven = weakData) (told : talk = [])
  | start (data : line = .data) (high : protocol.phase.isLow = false)
      (phase : after.phase = .starting ∨ after.phase = .repeatStart)
      (still : driven = weakData) (told : ∃ event, event.isStart = true ∧ talk = [event])
  /-- A stop, or an edge that does not belong there. -/
  | leave (edge : line = .data ∨ protocol.phase = .stopped ∨ protocol.phase = .illegal)
      (high : protocol.phase.isLow = false)
      (phase : after.phase = .stopped ∨ after.phase = .illegal)
      (kept : after.responses = protocol.responses)
      (still : driven = weakData) (told : talk = [] ∨ talk = [.stopBit])

variable {protocol : Protocol} {view : View} {before : EdgeDetector} {weakData : Bool}

theorem eq_of_core {after other : Protocol} (same : after.core = other.core) :
    after.phase = other.phase ∧ after.shifter = other.shifter ∧
      after.acknowledging = other.acknowledging ∧ after.responses = other.responses := by
  have phase := congrArg Protocol.phase same
  have shifter := congrArg Protocol.shifter same
  have acknowledging := congrArg Protocol.acknowledging same
  have responses := congrArg Protocol.responses same
  exact ⟨phase, shifter, acknowledging, responses⟩

theorem core_fall (protocol : Protocol) : protocol.fall.core = protocol.core.fall := by
  unfold fall
  by_cases done : protocol.phase = .byteDone
  · by_cases ours : protocol.acknowledging = true <;> simp [core, done, ours]
  · simp [core, done]

theorem core_measured (protocol : Protocol) (view : View) (edge : Edge) :
    (protocol.measured view edge).core = protocol.core := by
  obtain ⟨meter, measured⟩ := protocol.measured_eq view edge
  rw [measured]
  rfl

theorem talk_answer_of_quiet {stretches : Bool} {edge : Edge} {phase : Phase}
    (target : protocol.successor view.detector edge.line = phase)
    (forced : ∀ (protocol : Protocol) view, (protocol.enter view phase).forced? = none)
    (told : ∀ (protocol : Protocol) view, protocol.phaseTalk view phase = []) :
    talk (protocol.answer stretches view edge).notes = [] := by
  unfold answer
  dsimp only
  rw [target, talk_append, talk_append, talk_edgeNotes, talk_simultaneousNotes,
    follow_of_settled (forced ..), talk_enter, told]
  rfl

theorem illegal_of_answer (stretches : Bool) {edge : Edge}
    (target : protocol.successor view.detector edge.line = .illegal) :
    (protocol.answer stretches view edge).protocol.phase = .illegal ∧
      (protocol.answer stretches view edge).protocol.responses = protocol.responses ∧
      (protocol.answer stretches view edge).drive? = none ∧
      talk (protocol.answer stretches view edge).notes = [] := by
  refine ⟨?_, ?_, ?_, talk_answer_of_quiet target (fun _ _ => rfl) fun _ _ => rfl⟩
  · unfold answer
    dsimp only
    rw [target, follow_illegal]
  · have same := congrArg Protocol.responses (core_measured protocol view edge)
    unfold answer
    dsimp only
    rw [target, follow_illegal]
    exact same
  · unfold answer
    dsimp only
    rw [target]
    rfl

theorem way_of_clock {edge : Edge} (clock : edge.line = .clock)
    (lasts : protocol.phase.Lasts before) (moved : before.Moved view.detector .clock)
    (stretches : Bool) :
    Way protocol (view.level .data) weakData edge.line
      (protocol.answer stretches view edge).protocol
      ((protocol.answer stretches view edge).drive?.getD weakData)
      (talk (protocol.answer stretches view edge).notes) := by
  have outside (target : protocol.successor view.detector edge.line = .illegal)
      (phase : protocol.phase = .stopped ∨ protocol.phase = .illegal) :
      Way protocol (view.level .data) weakData edge.line
        (protocol.answer stretches view edge).protocol
        ((protocol.answer stretches view edge).drive?.getD weakData)
        (talk (protocol.answer stretches view edge).notes) := by
    obtain ⟨illegal, kept, undriven, quiet⟩ := illegal_of_answer stretches target
    refine .leave (.inr phase) ?_ (.inr illegal) kept (by rw [undriven]; rfl) (.inl quiet)
    rcases phase with phase | phase <;> rw [phase] <;> rfl
  cases phase : protocol.phase with
  | checkStartStop => exact absurd phase lasts.rests.1
  | sampleAck => exact absurd phase lasts.rests.2
  | starting | sampleBit | byteDone | acked | nacked =>
    have high : protocol.phase.isHigh = true := by rw [phase]; rfl
    obtain ⟨core, drives, told⟩ := answer_fall high clock view stretches
    exact .fall clock (.inl high) (core.trans protocol.core_fall.symm) (by rw [drives]; rfl) told
  | driveBit | driveAck | ackSent =>
    have low : protocol.phase.isLow = true := by rw [phase]; rfl
    have fallen := lasts.clock false (by rw [phase]; rfl)
    have rose : view.clock.level = true := by
      have moved := moved.moved
      change view.detector.clock.level = !before.clock.level at moved
      rw [fallen] at moved
      exact moved
    obtain ⟨core, undriven, told⟩ := answer_rise low clock rose stretches
    exact .rise clock low (core.trans (protocol.core_rise _).symm) (by rw [undriven]; rfl) told
  | repeatStart =>
    have target : protocol.successor view.detector edge.line = .driveBit := by
      rw [successor_of_legal (by rw [phase]; decide), phase, clock]
      rfl
    refine .fall clock (.inr phase) ?_ ?_ ?_
    · unfold answer
      dsimp only
      rw [target, follow_driveBit]
      have same := core_measured protocol view edge
      rw [core_fall]
      unfold fall
      rw [phase_core, phase, if_neg (by decide), ← same]
      rfl
    · unfold answer wanted
      dsimp only
      rw [target, drive?_follow_driveBit, shifter_measured, phase, if_neg (by decide)]
      rfl
    · rw [talk_answer_of_quiet target (fun _ _ => rfl) fun _ _ => rfl]
      unfold fallTalk
      rw [phase, if_neg (by simp)]
  | stopped =>
    refine outside ?_ (.inl phase)
    rw [successor_of_legal (by rw [phase]; decide), phase, clock]
    rfl
  | illegal =>
    refine outside ?_ (.inr phase)
    unfold successor
    rw [phase, clock]
    simp [Phase.next]

theorem way_of_sampleBit (sampling : protocol.phase = .sampleBit) (stretches : Bool) :
    Way protocol (view.level .data) weakData .data (protocol.answer stretches view .data).protocol
      ((protocol.answer stretches view .data).drive?.getD weakData)
      (talk (protocol.answer stretches view .data).notes) := by
  have target : protocol.successor view.detector .data = .checkStartStop := by
    rw [successor_of_legal (by rw [sampling]; decide), sampling]
    rfl
  obtain ⟨after, drive?, notes⟩ := protocol.answer_data view stretches
  rw [after, drive?, notes, talk_append, talk_edgeNotes, target,
    drive?_follow_of_not_drives (by decide), List.nil_append]
  have high : protocol.phase.isLow = false := by rw [sampling]; rfl
  cases rose : view.data.level with
  | true =>
    rw [follow_checkStartStop_of_stop rose]
    exact .leave (.inl rfl) high (.inl rfl) rfl rfl (.inr (talk_follow_stop protocol rose))
  | false =>
    have forced : (protocol.enter view .checkStartStop).forced? = some
        (if protocol.shifter.bits = 1 then .repeatStart else .starting) := by
      rw [forced?_enter_checkStartStop, rose]
      rfl
    refine .start rfl high ?_ rfl ?_
    · rw [follow_checkStartStop_of_start rose]
      dsimp only
      split
      · exact .inr rfl
      · exact .inl rfl
    · rw [follow_of_forced forced]
      dsimp only
      rw [talk_append, talk_enter, talk_enter]
      split
      · exact ⟨.repeatedStart, rfl, rfl⟩
      · exact ⟨.startBit, rfl, rfl⟩

theorem way_of_data (lasts : protocol.phase.Lasts before) (held : protocol.holds weakData = true)
    (stretches : Bool) :
    Way protocol (view.level .data) weakData .data (protocol.answer stretches view .data).protocol
      ((protocol.answer stretches view .data).drive?.getD weakData)
      (talk (protocol.answer stretches view .data).notes) := by
  obtain ⟨after, drive?, notes⟩ := protocol.answer_data view stretches
  have quiet : talk (protocol.answer stretches view .data).notes =
      talk (protocol.follow view (protocol.successor view.detector .data)).notes := by
    rw [notes, talk_append, talk_edgeNotes]
    rfl
  have outside (target : protocol.successor view.detector .data = .illegal)
      (high : protocol.phase.isLow = false) :
      Way protocol (view.level .data) weakData .data
        (protocol.answer stretches view .data).protocol
        ((protocol.answer stretches view .data).drive?.getD weakData)
        (talk (protocol.answer stretches view .data).notes) := by
    obtain ⟨illegal, kept, undriven, quiet⟩ :=
      @illegal_of_answer protocol view stretches .data target
    exact .leave (.inl rfl) high (.inr illegal) kept (by rw [undriven]; rfl) (.inl quiet)
  have begins (target : protocol.successor view.detector .data = .starting)
      (high : protocol.phase.isLow = false) :
      Way protocol (view.level .data) weakData .data
        (protocol.answer stretches view .data).protocol
        ((protocol.answer stretches view .data).drive?.getD weakData)
        (talk (protocol.answer stretches view .data).notes) := by
    rw [after, drive?, quiet, target]
    exact .start rfl high (.inl rfl) rfl ⟨.startBit, rfl, talk_follow_starting protocol view⟩
  cases phase : protocol.phase with
  | checkStartStop => exact absurd phase lasts.rests.1
  | sampleAck => exact absurd phase lasts.rests.2
  | sampleBit => exact way_of_sampleBit phase stretches
  | driveBit | driveAck | ackSent =>
    have low : protocol.phase.isLow = true := by rw [phase]; rfl
    obtain ⟨core, still, told⟩ := follow_low low held view
    rw [after, drive?, quiet, (successor_of_low low _).2]
    exact .stay rfl (.inl low) core still told
  | acked | nacked =>
    have target : protocol.successor view.detector .data = protocol.phase := by
      rw [successor_of_legal (by rw [phase]; decide), phase]
      rfl
    rw [after, drive?, quiet, target, phase]
    refine .stay rfl (.inr (by rw [phase]; decide)) ?_ rfl ?_
    · unfold core
      rw [phase]
      rfl
    · rw [follow_of_settled rfl, talk_enter]
      rfl
  | starting | repeatStart | byteDone =>
    refine outside ?_ (by rw [phase]; rfl)
    rw [successor_of_legal (by rw [phase]; decide), phase]
    rfl
  | stopped =>
    refine begins ?_ (by rw [phase]; rfl)
    rw [successor_of_legal (by rw [phase]; decide), phase]
    rfl
  | illegal =>
    have high : protocol.phase.isLow = false := by rw [phase]; rfl
    have target := successor_of_illegal phase view.detector
    split at target
    · split at target
      · rw [after, drive?, quiet, target]
        refine .leave (.inl rfl) high (.inl rfl) rfl rfl (.inr ?_)
        rw [follow_of_settled rfl, talk_enter]
        rfl
      · exact begins target high
    · exact outside target high

/-- Every edge leads on in one of the ways. -/
theorem way_of_answer {edge : Edge} (lasts : protocol.phase.Lasts before)
    (moved : before.Moved view.detector edge.line) (held : protocol.holds weakData = true)
    (stretches : Bool) :
    Way protocol (view.level .data) weakData edge.line
      (protocol.answer stretches view edge).protocol
      ((protocol.answer stretches view edge).drive?.getD weakData)
      (talk (protocol.answer stretches view edge).notes) := by
  cases edge with
  | data => exact way_of_data lasts held stretches
  | clock | simultaneous => exact way_of_clock rfl lasts moved stretches

theorem not_sampled_of_high {line : Line}
    (high : protocol.phase.isHigh = true ∨ protocol.phase = .repeatStart) :
    ¬(protocol.phase = .driveBit ∧ line = .clock) := by
  rintro ⟨phase, -⟩
  rw [phase] at high
  rcases high with high | high <;> cases high

theorem not_sampled_of_data {line : Line} (data : line = .data) :
    ¬(protocol.phase = .driveBit ∧ line = .clock) := by
  rintro ⟨-, clock⟩
  rw [data] at clock
  cases clock

theorem count_sampleBit (protocol : Protocol) (stretches : Bool) (view : View) (edge : Edge) :
    (protocol.entries stretches view edge).count .sampleBit =
      if protocol.phase = .driveBit ∧ edge.line = .clock then 1 else 0 := by
  have rest : ((protocol.measured view edge).enter (view.held edge stretches)
      (protocol.successor view.detector edge.line)).forced?.toList.count .sampleBit = 0 := by
    rw [List.count_eq_zero]
    intro mem
    exact absurd rfl (forced_ne_sampleBit (Option.mem_toList.mp mem))
  unfold entries trail
  rw [List.count_cons, rest, Nat.zero_add]
  have same : protocol.successor view.detector edge.line = .sampleBit ↔
      protocol.phase = .driveBit ∧ edge.line = .clock := by
    constructor
    · exact fun target => driveBit_of_sampleBit target
    · rintro ⟨phase, clock⟩
      rw [successor_of_legal (by rw [phase]; decide), phase, clock]
      rfl
  by_cases target : protocol.successor view.detector edge.line = .sampleBit
  · rw [if_pos (same.mp target), if_pos (beq_iff_eq.mpr target)]
  · rw [if_neg fun other => target (same.mpr other), if_neg (by simpa using target)]

end Protocol

namespace Checker

variable {β : Type} [LineBus β]

theorem way_of_turn {before next : Checker β} (turned : before.turn = .ok next)
    (lasts : before.protocol.phase.Lasts before.probe.detector)
    (held : before.protocol.holds before.weakData = true) :
    (∃ change committed, before.probe.Commits change committed ∧ Replied before change next ∧
      before.protocol.Way ((before.sees change).level .data) before.weakData change.line
        next.protocol next.weakData (Note.talk (before.reply change).notes)) ∨
      Waited before next := by
  rcases replied_or_waited turned with ⟨change, committed, commits, replied⟩ | waited
  · refine .inl ⟨change, committed, commits, replied, ?_⟩
    rw [replied.protocol, replied.weakData]
    exact Protocol.way_of_answer lasts (moved_of_commits commits) held _
  · exact .inr waited

theorem way_of_run {checker ready before next : Checker β} {n : Nat}
    (idle : checker.startUp = .ok () ready) (run : ready.turns n = .ok before)
    (turned : before.turn = .ok next) :
    (∃ change committed, before.probe.Commits change committed ∧ Replied before change next ∧
      before.protocol.Way ((before.sees change).level .data) before.weakData change.line
        next.protocol next.weakData (Note.talk (before.reply change).notes)) ∨
      Waited before next :=
  way_of_turn turned (lasts_turns idle run) (holds_turns idle run)

theorem way_of_told {checker ready before next : Checker β} {n : Nat}
    (idle : checker.startUp = .ok () ready) (run : ready.turns n = .ok before)
    (turned : before.turn = .ok next) {event : Event} (told : .event event ∈ before.reported)
    (spoken : Finding.spoken? (.event event) = some event) :
    ∃ change, Replied before change next ∧ event ∈ Note.talk (before.reply change).notes ∧
      before.protocol.Way ((before.sees change).level .data) before.weakData change.line
        next.protocol next.weakData (Note.talk (before.reply change).notes) := by
  rcases way_of_run idle run turned with ⟨change, committed, commits, replied, way⟩ | waited
  · rw [replied.reported] at told
    exact ⟨change, replied, List.mem_filterMap.mpr ⟨_, told, spoken⟩, way⟩
  · rw [waited.reported] at told
    cases told

/-- What every way on preserves holds after a passage. The first argument counts the bits that have
been sampled meanwhile; `p` is what is not told of. -/
theorem along_ways {checker ready first last : Checker β} {n : Nat} {since : List Finding}
    {phases : List Phase} {p : Event → Bool} {motive : Nat → Protocol → Bool → Prop}
    (made : Made checker) (idle : checker.startUp = .ok () ready)
    (run : ready.turns n = .ok first) (start : motive 0 first.protocol first.weakData)
    (step : ∀ {count protocol detector level weakData line after driven talk},
      motive count protocol weakData → protocol.Coherent detector →
      protocol.Way level weakData line after driven talk → (∀ event ∈ talk, p event = false) →
      motive (count + if protocol.phase = .driveBit ∧ line = .clock then 1 else 0) after driven)
    (passes : first.Passes since phases last)
    (quiet : ∀ event, .event event ∈ since → p event = false) :
    motive (phases.count .sampleBit) last.protocol last.weakData := by
  induction passes with
  | none => exact start
  | @turn before next told entered early turned ih =>
    have kept := ih fun event mem => quiet event (List.mem_append_left _ mem)
    obtain ⟨m, run⟩ := early.turns_after run
    rw [List.count_append]
    rcases way_of_run idle run turned with
      ⟨change, committed, commits, replied, way⟩ | waited
    · rw [replied.entered, Protocol.count_sampleBit]
      refine step kept (coherent_of_made made idle run) way fun event mem => ?_
      refine quiet event (List.mem_append_right _ ?_)
      rw [replied.reported]
      exact Note.mem_findings_of_talk mem
    · rw [waited.entered, waited.protocol, waited.weakData]
      exact kept

end Checker
end TwoWire
