import TwoWire.Proofs.Calls
import TwoWire.Proofs.Ways

/-! After the peer has refused a byte of ours nothing is sourced any more, but the clocks are still
counted: the eighth is told of as a byte sent (`quiet_after_refusal`). -/

namespace TwoWire

/-- The peer asks for another byte, or a start of either kind is seen. -/
def Event.goesOn (event : Event) : Bool := event.isStart || decide (event = .peerAck)

namespace Protocol

open Note

variable {protocol after : Protocol} {level weakData driven : Bool} {line : Line}
  {talk : List Event} {bytes : List UInt8} {count : Nat}

/-- The peer answers what is clocked, and no byte is in flight either way. -/
structure Refused (protocol : Protocol) : Prop where
  theirs : protocol.acknowledging = false
  unsunk : protocol.shifter.incoming = none
  unsourced : protocol.shifter.outgoing = none

/-- So many bits have been sampled since the refusal, and nothing has come of them but, from the
eighth on, the bytes that they are taken for. -/
def Spent (bytes : List UInt8) (count : Nat) (protocol : Protocol) (weakData : Bool) : Prop :=
  (weakData = true ∧ protocol.responses.bytes = bytes) ∧
    (protocol.phase = .stopped ∨ protocol.phase = .illegal ∨ protocol.Refused ∧
      ((protocol.phase = .nacked ∨ protocol.phase = .driveBit ∨ protocol.phase = .sampleBit) ∧
          (count < 8 → protocol.shifter.bits = count) ∨
        (protocol.phase = .byteDone ∨ protocol.phase = .driveAck) ∧ 8 ≤ count))

theorem Refused.of_core (same : after.core = protocol.core) (refused : protocol.Refused) :
    after.Refused := by
  obtain ⟨-, shifter, ours, -⟩ := eq_of_core same
  obtain ⟨theirs, unsunk, unsourced⟩ := refused
  rw [← ours] at theirs
  rw [← shifter] at unsunk unsourced
  exact ⟨theirs, unsunk, unsourced⟩

theorem Spent.of_core (same : after.core = protocol.core)
    (spent : protocol.Spent bytes count weakData) : after.Spent bytes count weakData := by
  obtain ⟨phase, shifter, -, responses⟩ := eq_of_core same
  obtain ⟨free, stopped | illegal | ⟨refused, rest⟩⟩ := spent
  all_goals
    unfold Spent
    rw [phase, responses]
    refine ⟨free, ?_⟩
  · exact .inl stopped
  · exact .inr (.inl illegal)
  · rw [shifter]
    exact .inr (.inr ⟨refused.of_core same, rest⟩)

theorem spent_fall (high : protocol.phase.isHigh = true ∨ protocol.phase = .repeatStart)
    (spent : protocol.Spent bytes count weakData) :
    protocol.fall.Spent bytes count protocol.wanted := by
  obtain ⟨⟨-, kept⟩, stopped | illegal |
    ⟨⟨theirs, unsunk, unsourced⟩, ⟨phase, bits⟩ | ⟨phase, past⟩⟩⟩ := spent
  · rw [stopped] at high
    rcases high with high | high <;> cases high
  · rw [illegal] at high
    rcases high with high | high <;> cases high
  · have other : protocol.phase ≠ .byteDone := by
      rcases phase with phase | phase | phase <;> rw [phase] <;> decide
    unfold fall wanted
    rw [if_neg other, if_neg other]
    refine ⟨⟨?_, kept⟩, .inr (.inr ⟨⟨theirs, unsunk, unsourced⟩, .inl ⟨.inr (.inl rfl), bits⟩⟩)⟩
    unfold Shifter.outgoingLevel Shifter.outgoingBit?
    rw [unsourced]
    rfl
  · have done : protocol.phase = .byteDone := by
      rcases phase with done | ours
      · exact done
      · rw [ours] at high
        rcases high with high | high <;> cases high
    unfold fall wanted
    rw [if_pos done, if_pos done, theirs, if_neg Bool.false_ne_true]
    exact ⟨⟨rfl, kept⟩, .inr (.inr ⟨⟨rfl, unsunk, unsourced⟩, .inr ⟨.inr rfl, past⟩⟩)⟩

theorem spent_sample (driving : protocol.phase = .driveBit) (refused : protocol.Refused)
    (kept : protocol.responses.bytes = bytes) (bits : count < 8 → protocol.shifter.bits = count)
    (level : Bool) : (protocol.rise level).Spent bytes (count + 1) true := by
  have unsunk := incoming_clock_of_none refused.unsunk level
  have unsourced := outgoing_clock_of_none refused.unsourced level
  have counted : (protocol.shifter.clock level).bits = min (protocol.shifter.bits + 1) 8 := rfl
  unfold rise
  rw [if_pos driving]
  dsimp only
  rw [unsunk]
  split
  case isTrue full =>
    have seven : 8 ≤ count + 1 := by
      unfold Shifter.isComplete Shifter.bitsPerByte at full
      rw [counted, decide_eq_true_eq] at full
      by_contra few
      have := bits (by omega)
      omega
    exact ⟨⟨rfl, kept⟩, .inr (.inr ⟨⟨rfl, unsunk, unsourced⟩, .inr ⟨.inl rfl, seven⟩⟩)⟩
  case isFalse =>
    refine ⟨⟨rfl, kept⟩, .inr (.inr ⟨⟨refused.theirs, unsunk, unsourced⟩,
      .inl ⟨.inr (.inr rfl), fun few => ?_⟩⟩)⟩
    have := bits (by omega)
    change (protocol.shifter.clock level).bits = count + 1
    omega

theorem Spent.of_low (low : protocol.phase.isLow = true)
    (spent : protocol.Spent bytes count weakData) :
    protocol.Refused ∧ (protocol.phase = .driveBit ∧ (count < 8 → protocol.shifter.bits = count) ∨
      protocol.phase = .driveAck ∧ 8 ≤ count) := by
  obtain ⟨-, stopped | illegal | ⟨refused, ⟨phase, bits⟩ | ⟨phase, past⟩⟩⟩ := spent
  · rw [stopped] at low
    cases low
  · rw [illegal] at low
    cases low
  · refine ⟨refused, .inl ⟨?_, bits⟩⟩
    rcases phase with nacked | driving | sampled
    · rw [nacked] at low
      cases low
    · exact driving
    · rw [sampled] at low
      cases low
  · refine ⟨refused, .inr ⟨?_, past⟩⟩
    rcases phase with done | answering
    · rw [done] at low
      cases low
    · exact answering

theorem spent_rise (low : protocol.phase.isLow = true)
    (quiet : ∀ event ∈ protocol.riseTalk level, event.goesOn = false)
    (spent : protocol.Spent bytes count weakData) :
    (protocol.rise level).Spent bytes
      (count + if protocol.phase = .driveBit then 1 else 0) weakData := by
  obtain ⟨refused, due⟩ := spent.of_low low
  obtain ⟨⟨rfl, kept⟩, -⟩ := spent
  rcases due with ⟨driving, bits⟩ | ⟨answering, past⟩
  · rw [if_pos driving]
    exact spent_sample driving refused kept bits level
  · have apart : protocol.phase ≠ .driveBit := by rw [answering]; decide
    rw [if_neg apart, Nat.add_zero]
    unfold riseTalk at quiet
    rw [if_neg apart, refused.theirs, if_neg Bool.false_ne_true] at quiet
    unfold rise
    rw [if_neg apart, refused.theirs, if_neg Bool.false_ne_true]
    cases level with
    | true =>
      exact ⟨⟨rfl, kept⟩, .inr (.inr ⟨⟨refused.theirs, refused.unsunk, rfl⟩,
        .inl ⟨.inl rfl, fun few => absurd past (Nat.not_le_of_lt few)⟩⟩)⟩
    | false =>
      have answers := quiet .peerAck (List.mem_singleton_self _)
      cases answers

/-- Until the next start, and as long as the peer asks for no byte, none is sourced. -/
theorem Way.spent (way : protocol.Way level weakData line after driven talk)
    (quiet : ∀ event ∈ talk, event.goesOn = false) (spent : protocol.Spent bytes count weakData) :
    after.Spent bytes (count + if protocol.phase = .driveBit ∧ line = .clock then 1 else 0)
      driven := by
  cases way with
  | fall _ high core drives _ =>
    rw [if_neg (not_sampled_of_high high), Nat.add_zero, drives]
    exact (spent_fall high spent).of_core core
  | rise clock low core still told =>
    simp only [clock, and_true]
    rw [still]
    exact (spent_rise low (told ▸ quiet) spent).of_core core
  | stay data _ core still _ =>
    rw [if_neg (not_sampled_of_data data), Nat.add_zero, still]
    exact spent.of_core core
  | start _ _ _ _ told =>
    obtain ⟨event, starts, rfl⟩ := told
    have none := quiet event (List.mem_singleton_self _)
    unfold Event.goesOn at none
    rw [starts] at none
    cases none
  | leave edge high phase kept still _ =>
    rw [if_neg ?_, Nat.add_zero, still]
    · exact ⟨⟨spent.1.1, (congrArg Responses.bytes kept).trans spent.1.2⟩, phase.imp_right .inl⟩
    · rintro ⟨driving, -⟩
      rw [driving] at high
      cases high

theorem Way.refused {detector : EdgeDetector}
    (way : protocol.Way level weakData line after driven talk)
    (coherent : protocol.Coherent detector) (held : protocol.holds weakData = true)
    (nack : .peerNack ∈ talk) : after.Spent protocol.responses.bytes 0 driven := by
  cases way with
  | rise _ low core still told =>
    rw [told] at nack
    unfold riseTalk at nack
    by_cases driving : protocol.phase = .driveBit
    case pos =>
      rw [if_pos driving] at nack
      dsimp only at nack
      split at nack
      · split at nack
        · split at nack <;> simp at nack
        · simp at nack
      · cases nack
    case neg =>
      have theirs : protocol.acknowledging = false := by
        cases ours : protocol.acknowledging with
        | false => rfl
        | true =>
          rw [if_neg driving, ours] at nack
          cases nack
      have answering : protocol.phase = .driveAck := by
        cases phase : protocol.phase with
        | driveAck => rfl
        | driveBit => exact absurd phase driving
        | ackSent => exact absurd ((coherent.ours phase).symm.trans theirs) (by decide)
        | _ =>
          rw [phase] at low
          cases low
      have unsunk := coherent.sent (.inr answering) theirs
      rw [Shifter.isSinking, Option.isSome_eq_false_iff, Option.isNone_iff_eq_none] at unsunk
      unfold holds at held
      rw [answering] at held
      dsimp only at held
      rw [theirs, Bool.not_false, Bool.true_and] at held
      rw [if_neg driving, theirs, if_neg Bool.false_ne_true] at nack
      cases level with
      | false => cases List.mem_singleton.mp nack
      | true =>
        have risen : (protocol.rise true).Spent protocol.responses.bytes 0 true := by
          unfold Protocol.rise
          rw [if_neg driving, theirs, if_neg Bool.false_ne_true]
          exact ⟨⟨rfl, rfl⟩, .inr (.inr ⟨⟨theirs, unsunk, rfl⟩, .inl ⟨.inl rfl, fun _ => rfl⟩⟩)⟩
        rw [still, held]
        exact risen.of_core core
  | fall _ _ _ _ told =>
    rw [told] at nack
    unfold fallTalk at nack
    split at nack
    · split at nack <;> simp at nack
    · cases nack
  | stay _ _ _ _ told =>
    rw [told] at nack
    cases nack
  | start _ _ _ _ told =>
    obtain ⟨event, starts, rfl⟩ := told
    cases List.mem_singleton.mp nack
    cases starts
  | leave _ _ _ _ _ told => rcases told with rfl | rfl <;> simp at nack

theorem riseTalk_of_spent (low : protocol.phase.isLow = true) (level : Bool) (few : count < 8)
    (spent : protocol.Spent bytes count weakData) :
    protocol.phase = .driveBit ∧
      protocol.riseTalk level = if count = 7 then [.byteSent] else [] := by
  obtain ⟨refused, ⟨driving, bits⟩ | ⟨-, past⟩⟩ := spent.of_low low
  · refine ⟨driving, ?_⟩
    have unsunk := incoming_clock_of_none refused.unsunk level
    have full : (protocol.shifter.clock level).isComplete = decide (count = 7) := by
      unfold Shifter.isComplete Shifter.clock Shifter.bitsPerByte
      dsimp only
      rw [bits few, decide_eq_decide]
      omega
    unfold riseTalk
    rw [if_pos driving]
    dsimp only
    rw [unsunk, full]
    simp only [decide_eq_true_eq]
  · exact absurd past (Nat.not_le_of_lt few)

theorem Way.unsent (way : protocol.Way level weakData line after driven talk)
    (few : count + (if protocol.phase = .driveBit ∧ line = .clock then 1 else 0) < 8)
    (spent : protocol.Spent bytes count weakData) : .byteSent ∉ talk ∧ .peerAck ∉ talk := by
  cases way with
  | fall _ _ _ _ told =>
    rw [told]
    unfold fallTalk
    split
    · split <;> simp
    · simp
  | rise clock low _ _ told =>
    obtain ⟨driving, talked⟩ := riseTalk_of_spent low level (by omega) spent
    rw [if_pos ⟨driving, clock⟩] at few
    rw [told, talked, if_neg (by omega)]
    simp
  | stay _ _ _ _ told =>
    rw [told]
    simp
  | start _ _ _ _ told =>
    obtain ⟨event, starts, rfl⟩ := told
    constructor <;> rintro mem <;> rw [← List.mem_singleton.mp mem] at starts <;> cases starts
  | leave _ _ _ _ _ told => rcases told with rfl | rfl <;> simp

end Protocol
namespace Checker

variable {β : Type} [LineBus β] {checker ready refused next later : Checker β}
  {told since : List Finding} {entered phases : List Phase}

theorem spent_of_refusal (made : Made checker) (idle : checker.startUp = .ok () ready)
    (first : ready.Passes told entered refused) (nack : .event .peerNack ∈ refused.reported)
    (turned : refused.turn = .ok next) :
    next.protocol.Spent next.protocol.responses.bytes 0 next.weakData := by
  obtain ⟨n, run⟩ := first.turns
  obtain ⟨change, -, spoken, way⟩ := way_of_told idle run turned nack rfl
  have spent := way.refused (coherent_of_made made idle run) (holds_turns idle run) spoken
  have kept := spent.1.2
  rw [← kept] at spent
  exact spent

theorem spent_of_passes (made : Made checker) (idle : checker.startUp = .ok () ready)
    (first : ready.Passes told entered refused) (nack : .event .peerNack ∈ refused.reported)
    (turned : refused.turn = .ok next) (passes : next.Passes since phases later)
    (within : ∀ event, .event event ∈ since → event.goesOn = false) :
    later.protocol.Spent next.protocol.responses.bytes (phases.count .sampleBit)
      later.weakData := by
  obtain ⟨n, run⟩ := (first.turn turned).turns
  exact along_ways (motive := fun count protocol weakData => protocol.Spent _ count weakData)
    made idle run (spent_of_refusal made idle first nack turned)
    (fun spent _ way quiet => way.spent quiet spent) passes within

theorem goesOn_eq_false {event : Event} (within : event.isStart = false)
    (unasked : event ≠ .peerAck) : event.goesOn = false := by
  unfold Event.goesOn
  rw [within, decide_eq_false unasked]
  rfl

theorem unsent_of_passes (made : Made checker) (idle : checker.startUp = .ok () ready)
    (first : ready.Passes told entered refused) (nack : .event .peerNack ∈ refused.reported)
    (turned : refused.turn = .ok next) (passes : next.Passes since phases later)
    (within : ∀ event, .event event ∈ since → event.isStart = false)
    (few : phases.count .sampleBit < 8) :
    .event .byteSent ∉ since ∧ .event .peerAck ∉ since := by
  induction passes with
  | none => exact ⟨List.not_mem_nil, List.not_mem_nil⟩
  | @turn before after told' entered' early turn ih =>
    rw [List.count_append] at few
    have inside : ∀ event, .event event ∈ told' → event.isStart = false :=
      fun event mem => within event (List.mem_append_left _ mem)
    obtain ⟨unsent, unasked⟩ := ih inside (by omega)
    have spent := spent_of_passes made idle first nack turned early fun event mem =>
      goesOn_eq_false (inside event mem) fun same => unasked (same ▸ mem)
    obtain ⟨n, run⟩ := ((first.turn turned).append early).turns
    have quiet : .event .byteSent ∉ before.reported ∧ .event .peerAck ∉ before.reported := by
      rcases way_of_run idle run turn with
        ⟨change, committed, commits, replied, way⟩ | waited
      · rw [replied.entered, Protocol.count_sampleBit] at few
        obtain ⟨unsent, unasked⟩ := way.unsent few spent
        rw [replied.reported]
        exact ⟨fun mem => unsent (List.mem_filterMap.mpr ⟨_, mem, rfl⟩),
          fun mem => unasked (List.mem_filterMap.mpr ⟨_, mem, rfl⟩)⟩
      · rw [waited.reported]
        exact ⟨List.not_mem_nil, List.not_mem_nil⟩
    simp only [List.mem_append, not_or]
    exact ⟨⟨unsent, quiet.1⟩, ⟨unasked, quiet.2⟩⟩

theorem byteSent_of_eighth {n : Nat} {bytes : List UInt8} (idle : checker.startUp = .ok () ready)
    (run : ready.turns n = .ok later) (turned : later.turn = .ok next)
    (spent : later.protocol.Spent bytes 7 later.weakData) (samples : .sampleBit ∈ later.entered) :
    .event .byteSent ∈ later.reported := by
  rcases way_of_run idle run turned with
    ⟨change, committed, commits, replied, way⟩ | waited
  case inr =>
    rw [waited.entered] at samples
    cases samples
  case inl =>
    have sampled : 0 < (later.protocol.entries later.probe.stretch.isEnabled (later.sees change)
        change.edge).count .sampleBit := by
      rw [← replied.entered]
      exact List.count_pos_iff.mpr samples
    rw [Protocol.count_sampleBit] at sampled
    split at sampled
    case isFalse => cases sampled
    case isTrue rise =>
      obtain ⟨driving, clock⟩ := rise
      have low : later.protocol.phase.isLow = true := by rw [driving]; rfl
      obtain ⟨-, talked⟩ := Protocol.riseTalk_of_spent low ((later.sees change).level .data)
        (by decide) spent
      rw [replied.reported]
      refine Note.mem_findings_of_talk ?_
      cases way with
      | rise _ _ _ _ told =>
        rw [told, talked]
        exact List.mem_singleton_self _
      | fall _ high =>
        rw [driving] at high
        rcases high with high | high <;> cases high
      | stay data | start data =>
        rw [show change.line = .clock from clock] at data
        cases data
      | leave _ high =>
        rw [low] at high
        cases high

theorem byteSent_of_passes (made : Made checker) (idle : checker.startUp = .ok () ready)
    (first : ready.Passes told entered refused) (nack : .event .peerNack ∈ refused.reported)
    (turned : refused.turn = .ok next) (passes : next.Passes since phases later)
    (within : ∀ event, .event event ∈ since → event.isStart = false)
    (eight : 8 ≤ phases.count .sampleBit) : .event .byteSent ∈ since := by
  induction passes with
  | none => cases eight
  | @turn before after told' entered' early turn ih =>
    have inside : ∀ event, .event event ∈ told' → event.isStart = false :=
      fun event mem => within event (List.mem_append_left _ mem)
    rw [List.count_append] at eight
    by_cases whole : 8 ≤ entered'.count .sampleBit
    · exact List.mem_append_left _ (ih inside whole)
    · obtain ⟨n, run⟩ := ((first.turn turned).append early).turns
      have one : before.entered.count .sampleBit ≤ 1 := by
        rcases way_of_run idle run turn with
          ⟨change, committed, commits, replied, -⟩ | waited
        · rw [replied.entered, Protocol.count_sampleBit]
          split <;> decide
        · rw [waited.entered]
          decide
      obtain ⟨-, unasked⟩ :=
        unsent_of_passes made idle first nack turned early inside (Nat.lt_of_not_le whole)
      have spent := spent_of_passes made idle first nack turned early fun event mem =>
        goesOn_eq_false (inside event mem) fun same => unasked (same ▸ mem)
      rw [show entered'.count .sampleBit = 7 by omega] at spent
      refine List.mem_append_right _ (byteSent_of_eighth idle run turn spent ?_)
      exact List.count_pos_iff.mp (by omega)

/-- After the peer has refused a byte of ours and up to the next start, eight bits are still told of
as a byte sent, and fewer are not. Before that the peer has nothing to acknowledge; and for as long
as it acknowledges nothing no byte is taken and the data line is let go. -/
theorem quiet_after_refusal (made : Made checker) (idle : checker.startUp = .ok () ready)
    (first : ready.Passes told entered refused) (nack : .event .peerNack ∈ refused.reported)
    (turned : refused.turn = .ok next) (passes : next.Passes since phases later)
    (within : ∀ event, .event event ∈ since → event.isStart = false) :
    (.event .byteSent ∉ since ↔ phases.count .sampleBit < 8) ∧
    (phases.count .sampleBit < 8 → .event .peerAck ∉ since) ∧
    (.event .peerAck ∉ since → later.weakData = true ∧
      later.protocol.responses.bytes = next.protocol.responses.bytes) := by
  have unsent := unsent_of_passes made idle first nack turned passes within
  refine ⟨⟨fun none => ?_, fun few => (unsent few).1⟩, fun few => (unsent few).2, fun unasked => ?_⟩
  · by_contra eight
    exact none (byteSent_of_passes made idle first nack turned passes within (by omega))
  · have spent := spent_of_passes made idle first nack turned passes fun event mem =>
      goesOn_eq_false (within event mem) fun same => unasked (same ▸ mem)
    exact spent.1

/-- A read of one byte that the peer refuses, and seven more clocks. -/
theorem quiet_in_read :
    ∃ (checker ready refused next later : Checker Replay) (told since : List Finding)
      (entered phases : List Phase),
      ofConfig { clock := 0, data := 1, txData := [0x5a, 0x0f] }
        ((Replay.ofTrace 0 1 (Replay.readTrace 19)).withCycle 10) = .ok checker ∧
      checker.startUp = .ok () ready ∧ ready.Passes told entered refused ∧
      .event .peerNack ∈ refused.reported ∧ refused.turn = .ok next ∧
      next.Passes since phases later ∧ phases.count .sampleBit = 7 ∧ .event .byteSent ∉ since ∧
      .event .peerAck ∉ since ∧ later.weakData = true ∧
      later.protocol.responses.bytes = next.protocol.responses.bytes := by
  let bus : Replay := (Replay.ofTrace 0 1 (Replay.readTrace 19)).withCycle 10
  have seen : ((ofConfig { clock := 0, data := 1, txData := [0x5a, 0x0f] } bus).toOption.bind
      fun checker => checker.startUp.verdict.toOption.bind
      fun ready => (ready.turns 83).toOption.bind
      fun refused => refused.turn.toOption.bind
      fun next => (next.turns 31).toOption.map
      fun later => (refused.reported.head?, (later.findings.drop next.findings.length).all
          fun finding => !finding.shows Event.isStart,
        (later.phases.drop next.phases.length).count .sampleBit)) =
      some (some (.event .peerNack), true, 7) := by decide +kernel
  obtain ⟨checker, made, seen⟩ := Option.bind_eq_some_iff.mp seen
  obtain ⟨ready, idle, seen⟩ := Option.bind_eq_some_iff.mp seen
  obtain ⟨refused, run, seen⟩ := Option.bind_eq_some_iff.mp seen
  obtain ⟨next, turned, seen⟩ := Option.bind_eq_some_iff.mp seen
  obtain ⟨later, run', seen⟩ := Option.map_eq_some_iff.mp seen
  have made := eq_ok_of_toOption made
  have idle := Outcome.eq_ok_of_verdict (eq_ok_of_toOption idle)
  have turned := eq_ok_of_toOption turned
  obtain ⟨told, entered, first⟩ := passes_of_turns (eq_ok_of_toOption run)
  obtain ⟨since, phases, passes⟩ := passes_of_turns (eq_ok_of_toOption run')
  rw [passes.grown.1, passes.grown.2] at seen
  obtain ⟨nack, within, seven⟩ := by simpa only [Prod.mk.injEq] using seen
  have nack := List.mem_of_head? nack
  have few : phases.count .sampleBit < 8 := seven ▸ by decide
  have within : ∀ event, .event event ∈ since → event.isStart = false :=
    fun _ => Finding.quiet_of_all within
  obtain ⟨unsent, unasked, free⟩ :=
    quiet_after_refusal (.fresh made) idle first nack turned passes within
  have unasked := unasked few
  obtain ⟨free, kept⟩ := free unasked
  exact ⟨checker, ready, refused, next, later, told, since, entered, phases, made, idle, first, nack,
    turned, passes, seven, unsent.mpr few, unasked, free, kept⟩

/-- A refusal does not end the sourcing for good: eight clocks on a byte is told of as sent, and once
the peer acknowledges it the next one is taken and pulls the data line low. -/
theorem sourced_after_refusal :
    ∃ (checker ready refused next later : Checker Replay) (since : List Finding)
      (phases : List Phase),
      ofConfig { clock := 0, data := 1, txData := [0x5a, 0x0f] }
        ((Replay.ofTrace 0 1 (Replay.readTrace 19 ++ [⟨5550, 1, some false⟩] ++
          Replay.pulses 5600 2)).withCycle 10) = .ok checker ∧
      checker.startUp = .ok () ready ∧ ready.turns 83 = .ok refused ∧
      .event .peerNack ∈ refused.reported ∧ refused.turn = .ok next ∧
      next.Passes since phases later ∧ (∀ event, .event event ∈ since → event.isStart = false) ∧
      .event .byteSent ∈ since ∧ next.protocol.responses.bytes = [0x0f] ∧
      later.protocol.responses.bytes = [] ∧ later.weakData = false := by
  let bus : Replay := (Replay.ofTrace 0 1 (Replay.readTrace 19 ++ [⟨5550, 1, some false⟩] ++
    Replay.pulses 5600 2)).withCycle 10
  have seen : ((ofConfig { clock := 0, data := 1, txData := [0x5a, 0x0f] } bus).toOption.bind
      fun checker => checker.startUp.verdict.toOption.bind
      fun ready => (ready.turns 83).toOption.bind
      fun refused => refused.turn.toOption.bind
      fun next => (next.turns 40).toOption.map
      fun later => (refused.reported.head?,
        ((later.findings.drop next.findings.length).all
            fun finding => !finding.shows Event.isStart) &&
          (later.findings.drop next.findings.length).contains (.event .byteSent) &&
          !later.weakData,
        next.protocol.responses.bytes, later.protocol.responses.bytes)) =
      some (some (.event .peerNack), true, [0x0f], []) := by decide +kernel
  obtain ⟨checker, made, seen⟩ := Option.bind_eq_some_iff.mp seen
  obtain ⟨ready, idle, seen⟩ := Option.bind_eq_some_iff.mp seen
  obtain ⟨refused, run, seen⟩ := Option.bind_eq_some_iff.mp seen
  obtain ⟨next, turned, seen⟩ := Option.bind_eq_some_iff.mp seen
  obtain ⟨later, run', seen⟩ := Option.map_eq_some_iff.mp seen
  obtain ⟨since, phases, passes⟩ := passes_of_turns (eq_ok_of_toOption run')
  rw [passes.grown.1] at seen
  obtain ⟨nack, ⟨⟨within, sent⟩, low⟩, stock, taken⟩ := by
    simpa only [Prod.mk.injEq, Bool.and_eq_true, Bool.not_eq_true'] using seen
  exact ⟨checker, ready, refused, next, later, since, phases, eq_ok_of_toOption made,
    Outcome.eq_ok_of_verdict (eq_ok_of_toOption idle), eq_ok_of_toOption run,
    List.mem_of_head? nack, eq_ok_of_toOption turned, passes,
    fun _ => Finding.quiet_of_all within, List.contains_iff_mem.mp sent, stock, taken, low⟩

end Checker
end TwoWire
