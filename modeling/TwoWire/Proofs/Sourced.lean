import TwoWire.Proofs.Driven
import TwoWire.Proofs.Spending
import TwoWire.Proofs.Ways

/-! The bytes that we source are those of the configuration, and each bit stands on the data line
from the fall of the clock before its rise until the next fall (`sourced_as_configured`). -/

namespace TwoWire

namespace Shifter

/-- What is left of a byte once so many of its bits have been shifted out. -/
def shiftedOut (byte : UInt8) (count : Nat) : UInt8 := (shiftIn · false)^[count] byte

theorem shiftedOut_succ (byte : UInt8) (count : Nat) :
    shiftedOut byte (count + 1) = shiftIn (shiftedOut byte count) false :=
  Function.iterate_succ_apply' ..

theorem toNat_shiftedOut (byte : UInt8) (count : Nat) :
    (shiftedOut byte count).toNat = (byte.toNat <<< count) % 2 ^ 8 := by
  induction count with
  | zero => exact (Nat.mod_eq_of_lt byte.toNat_lt).symm
  | succ count ih =>
    rw [shiftedOut_succ, toNat_shiftIn, ih, Nat.shiftLeft_succ, Bool.toNat_false, Nat.add_zero]
    exact Nat.mul_mod_mod ..

theorem topBit_eq_testBit (byte : UInt8) : (byte &&& 0x80 != 0) = byte.toNat.testBit 7 := by
  revert byte
  apply forall_byte
  decide +kernel

theorem topBit_shiftedOut (byte : UInt8) {count : Nat} (within : count < 8) :
    (shiftedOut byte count &&& 0x80 != 0) = byte.toNat.testBit (7 - count) := by
  rw [topBit_eq_testBit, toNat_shiftedOut, Nat.testBit_mod_two_pow, Nat.testBit_shiftLeft,
    decide_eq_true (by decide), decide_eq_true (Nat.le_of_lt_succ within), Bool.true_and,
    Bool.true_and]

end Shifter

namespace Protocol

open Note

variable {protocol after : Protocol} {level weakData driven : Bool} {line : Line}
  {talk : List Event}

/-- The phases from the one in which a byte of ours is asked for to its first bit. -/
def AwaitsSource (protocol : Protocol) : Prop :=
  (protocol.phase = .byteDone ∨ protocol.phase = .ackSent) ∧ protocol.acknowledging = true ∨
    protocol.phase = .acked ∨ protocol.phase = .nacked

/-- So many bits of the byte have been sampled since it was asked for, unless the transaction is
over. -/
def Sources (byte : UInt8) (count : Nat) (protocol : Protocol) : Prop :=
  8 ≤ count ∨ protocol.phase = .stopped ∨ protocol.phase = .illegal ∨
    (protocol.shifter.outgoing = some (Shifter.shiftedOut byte count) ∧
      protocol.shifter.bits = count) ∧
    (protocol.phase = .driveBit ∨ protocol.phase = .sampleBit ∨
      count = 0 ∧ protocol.AwaitsSource)

theorem Sources.of_core {byte : UInt8} {count : Nat} (same : after.core = protocol.core)
    (sources : protocol.Sources byte count) : after.Sources byte count := by
  obtain ⟨phase, shifter, ours, -⟩ := eq_of_core same
  unfold Sources AwaitsSource at sources ⊢
  rw [phase, shifter, ours]
  exact sources

theorem sources_fall {byte : UInt8} {count : Nat}
    (high : protocol.phase.isHigh = true ∨ protocol.phase = .repeatStart)
    (sources : protocol.Sources byte count) : protocol.fall.Sources byte count := by
  have next (other : protocol.phase ≠ .byteDone)
      (held : protocol.shifter.outgoing = some (Shifter.shiftedOut byte count) ∧
        protocol.shifter.bits = count) : protocol.fall.Sources byte count := by
    unfold fall
    rw [if_neg other]
    exact .inr (.inr (.inr ⟨held, .inl rfl⟩))
  rcases sources with past | stopped | illegal | ⟨held, driving | sampled | ⟨none, awaits⟩⟩
  · exact .inl past
  · rw [stopped] at high
    rcases high with high | high <;> cases high
  · rw [illegal] at high
    rcases high with high | high <;> cases high
  · rw [driving] at high
    rcases high with high | high <;> cases high
  · exact next (by rw [sampled]; decide) held
  · rcases awaits with ⟨done | sent, ours⟩ | acked | nacked
    · unfold fall
      rw [if_pos done, if_pos ours]
      exact .inr (.inr (.inr ⟨held, .inr (.inr ⟨none, .inl ⟨.inr rfl, ours⟩⟩)⟩))
    · rw [sent] at high
      rcases high with high | high <;> cases high
    · exact next (by rw [acked]; decide) held
    · exact next (by rw [nacked]; decide) held

theorem sources_rise {byte : UInt8} {count : Nat} (low : protocol.phase.isLow = true)
    (level : Bool) (sources : protocol.Sources byte count) :
    (protocol.rise level).Sources byte (count + if protocol.phase = .driveBit then 1 else 0) := by
  rcases sources with past | stopped | illegal | ⟨held, driving | sampled | ⟨none, awaits⟩⟩
  · exact .inl (Nat.le_add_right_of_le past)
  · rw [stopped] at low
    cases low
  · rw [illegal] at low
    cases low
  · obtain ⟨outgoing, bits⟩ := held
    rw [if_pos driving]
    by_cases last : 8 ≤ count + 1
    · exact .inl last
    · have partway : (protocol.shifter.clock level).isComplete = false := by
        unfold Shifter.isComplete Shifter.clock Shifter.bitsPerByte
        rw [bits, decide_eq_false_iff_not]
        dsimp only
        omega
      unfold rise
      rw [if_pos driving]
      dsimp only
      rw [partway, if_neg Bool.false_ne_true]
      refine .inr (.inr (.inr ⟨⟨?_, ?_⟩, .inr (.inl rfl)⟩))
      · unfold Shifter.clock
        dsimp only
        rw [outgoing, Option.map_some, Shifter.shiftedOut_succ]
      · unfold Shifter.clock Shifter.bitsPerByte
        dsimp only
        rw [bits]
        omega
  · rw [sampled] at low
    cases low
  · subst none
    rcases awaits with ⟨done | sent, ours⟩ | acked | nacked
    · rw [done] at low
      cases low
    · have apart : protocol.phase ≠ .driveBit := by rw [sent]; decide
      rw [if_neg apart]
      unfold rise
      rw [if_neg apart, if_pos ours]
      refine .inr (.inr (.inr ⟨⟨held.1, rfl⟩, .inr (.inr ⟨rfl, .inr ?_⟩)⟩))
      cases level
      · exact .inl rfl
      · exact .inr rfl
    · rw [acked] at low
      cases low
    · rw [nacked] at low
      cases low

theorem Way.sources (way : protocol.Way level weakData line after driven talk) {byte : UInt8}
    {count : Nat} (sources : protocol.Sources byte count)
    (quiet : ∀ event ∈ talk, event.isStart = false) :
    after.Sources byte (count + if protocol.phase = .driveBit ∧ line = .clock then 1 else 0) := by
  cases way with
  | fall _ high core _ _ =>
    rw [if_neg (not_sampled_of_high high), Nat.add_zero]
    exact .of_core core (sources_fall high sources)
  | rise clock low core _ _ =>
    simp only [clock, and_true]
    exact .of_core core (sources_rise low level sources)
  | stay data _ core _ _ =>
    rw [if_neg (not_sampled_of_data data), Nat.add_zero]
    exact .of_core core sources
  | start _ _ _ _ told =>
    obtain ⟨event, starts, rfl⟩ := told
    have none := quiet event (List.mem_singleton_self _)
    rw [starts] at none
    cases none
  | leave _ _ phase _ _ _ => exact .inr (phase.imp_right .inl)

theorem asked_of_command {byte : UInt8} (read : Direction.ofAddressByte byte = .read)
    (first : protocol.byteCount = 0) :
    ({ protocol.byteReceived byte with phase := .byteDone } : Protocol).Sources
      protocol.responses.nextByte.1 0 := by
  unfold byteReceived command
  dsimp only
  rw [if_pos first, read]
  exact .inr (.inr (.inr ⟨⟨rfl, rfl⟩, .inr (.inr ⟨rfl, .inl ⟨.inl rfl, rfl⟩⟩)⟩))

theorem asked_rise {event : Event} (told : event ∈ protocol.riseTalk level)
    (asks : event.asksByte = true) :
    (protocol.rise level).Sources protocol.responses.nextByte.1 0 ∧
      (protocol.riseTalk level).countP Event.asksByte = 1 := by
  unfold riseTalk at told ⊢
  unfold rise
  by_cases bit : protocol.phase = .driveBit
  case pos =>
    rw [if_pos bit] at told ⊢
    rw [if_pos bit]
    dsimp only at told ⊢
    split at told
    case isFalse => cases told
    case isTrue full =>
      rw [if_pos full, if_pos full]
      cases incoming : (protocol.shifter.clock level).incoming with
      | none =>
        rw [incoming] at told
        cases List.mem_singleton.mp told
        cases asks
      | some byte =>
        rw [incoming] at told
        dsimp only at told ⊢
        rcases List.mem_cons.mp told with rfl | told
        · cases asks
        · split at told
          case isFalse => cases told
          case isTrue first =>
            cases List.mem_singleton.mp told
            rw [if_pos first]
            cases direction : Direction.ofAddressByte byte with
            | write =>
              rw [direction] at asks
              cases asks
            | read =>
              refine ⟨?_, rfl⟩
              exact @asked_of_command { protocol with
                phase := .sampleBit
                shifter := protocol.shifter.clock level } byte direction first
  case neg =>
    rw [if_neg bit] at told ⊢
    rw [if_neg bit]
    split at told
    case isTrue => cases told
    case isFalse theirs =>
      rw [if_neg theirs, if_neg theirs]
      cases level with
      | true =>
        rcases List.mem_pair.mp told with rfl | rfl <;> cases asks
      | false =>
        exact ⟨.inr (.inr (.inr ⟨⟨rfl, rfl⟩, .inr (.inr ⟨rfl, .inr (.inl rfl)⟩)⟩)), rfl⟩

theorem Way.asked (way : protocol.Way level weakData line after driven talk) {event : Event}
    (mem : event ∈ talk) (asks : event.asksByte = true) :
    after.Sources protocol.responses.nextByte.1 0 ∧ talk.countP Event.asksByte = 1 := by
  cases way with
  | fall _ _ _ _ told =>
    rw [told] at mem
    unfold fallTalk at mem
    split at mem
    · rw [List.mem_singleton.mp mem] at asks
      split at asks <;> cases asks
    · cases mem
  | rise _ _ core _ told =>
    rw [told] at mem ⊢
    obtain ⟨sources, one⟩ := asked_rise mem asks
    exact ⟨.of_core core sources, one⟩
  | stay _ _ _ _ told =>
    rw [told] at mem
    cases mem
  | start _ _ _ _ told =>
    obtain ⟨start, starts, rfl⟩ := told
    cases List.mem_singleton.mp mem
    have none : event.asksByte = false := by cases event <;> first | rfl | cases starts
    rw [none] at asks
    cases asks
  | leave _ _ _ _ _ told =>
    rcases told with rfl | rfl
    · cases mem
    · cases List.mem_singleton.mp mem
      cases asks

def LeavesBits (weakData : Bool) (protocol : Protocol) : Prop :=
  protocol.phase = .driveBit ∨ protocol.phase = .sampleBit →
    protocol.shifter.isSinking = true → weakData = true

theorem outgoingLevel_of_sinking (oneWay : protocol.OneWay)
    (sinking : protocol.shifter.isSinking = true) : protocol.shifter.outgoingLevel = true := by
  unfold OneWay at oneWay
  rw [sinking, Bool.true_and, Shifter.isSourcing, Option.isSome_eq_false_iff,
    Option.isNone_iff_eq_none] at oneWay
  unfold Shifter.outgoingLevel Shifter.outgoingBit?
  rw [oneWay]
  rfl

theorem Way.leavesBits (way : protocol.Way level weakData line after driven talk)
    (oneWay : protocol.OneWay) (leaves : protocol.LeavesBits weakData) :
    after.LeavesBits driven := by
  intro bit sinking
  cases way with
  | fall _ _ core drives _ =>
    obtain ⟨phase, shifter, -, -⟩ := eq_of_core core
    rw [phase] at bit
    rw [shifter] at sinking
    rw [drives]
    unfold Protocol.fall at bit sinking
    unfold wanted
    split at bit
    case isTrue done =>
      split at bit <;> rcases bit with bit | bit <;> cases bit
    case isFalse other =>
      rw [if_neg other] at sinking ⊢
      exact outgoingLevel_of_sinking oneWay sinking
  | rise _ low core still _ =>
    obtain ⟨phase, shifter, -, -⟩ := eq_of_core core
    rw [phase] at bit
    rw [shifter] at sinking
    rw [still]
    unfold Protocol.rise at bit sinking
    split at bit
    case isTrue driving =>
      rw [if_pos driving] at sinking
      refine leaves (.inl driving) ?_
      dsimp only at bit sinking
      split at bit
      · split at bit <;> rcases bit with bit | bit <;> cases bit
      case isFalse partway =>
        rw [if_neg partway] at sinking
        exact (isSinking_clock protocol.shifter level).symm.trans sinking
    case isFalse =>
      dsimp only at bit
      split at bit <;> rcases bit with bit | bit <;> cases bit
  | stay _ _ core still _ =>
    obtain ⟨phase, shifter, -, -⟩ := eq_of_core core
    rw [still]
    exact leaves (phase ▸ bit) (shifter ▸ sinking)
  | start _ _ phase _ _ =>
    rcases bit with bit | bit <;> rw [bit] at phase <;> rcases phase with phase | phase <;>
      cases phase
  | leave _ _ phase _ _ _ =>
    rcases bit with bit | bit <;> rw [bit] at phase <;> rcases phase with phase | phase <;>
      cases phase

end Protocol

namespace Checker

variable {β : Type} [LineBus β]

theorem sources_of_passes {checker ready early next before : Checker β} {told since : List Finding}
    {entered phases : List Phase} {event : Event} (made : Made checker)
    (idle : checker.startUp = .ok () ready) (first : ready.Passes told entered early)
    (mem : .event event ∈ early.reported) (asks : event.asksByte = true)
    (turned : early.turn = .ok next) (passes : next.Passes since phases before)
    (within : ∀ event, .event event ∈ since → event.isStart = false) :
    early.reported.countP (Finding.shows Event.asksByte) = 1 ∧
      before.protocol.Sources (ready.protocol.responses.byteAt
        (told.countP (Finding.shows Event.asksByte))) (phases.count .sampleBit) := by
  obtain ⟨n, run⟩ := first.turns
  obtain ⟨change, replied, spoken, way⟩ := way_of_told idle run turned mem
    (by cases event <;> first | rfl | cases asks)
  obtain ⟨sources, one⟩ := way.asked spoken asks
  rw [responses_of_passes first, Responses.nextByte_after] at sources
  rw [replied.reported]
  refine ⟨(countP_asksByte _).trans one, ?_⟩
  exact along_ways (motive := fun count protocol _ => protocol.Sources _ count) made idle
    (turns_succ run turned) sources (fun sources _ way quiet => way.sources sources quiet)
    passes within

theorem leavesBits_of_passes {checker ready between : Checker β} {told : List Finding}
    {entered : List Phase} (made : Made checker) (idle : checker.startUp = .ok () ready)
    (passes : ready.Passes told entered between) :
    between.protocol.LeavesBits between.weakData :=
  along_ways (motive := fun _ protocol weakData => protocol.LeavesBits weakData)
    (p := fun _ => false) made idle (show ready.turns 0 = .ok ready from rfl)
    (by
      unfold Protocol.LeavesBits
      rw [phase_startUp idle]
      rintro (phase | phase) <;> cases phase)
    (fun leaves coherent way _ => way.leavesBits coherent.oneWay leaves) passes fun _ _ => rfl

theorem driveBit_of_entered {before : Checker β} (samples : .sampleBit ∈ before.entered) :
    before.protocol.phase = .driveBit := by
  obtain ⟨change, committed, commits⟩ := commits_of_entered samples
  obtain ⟨notes, error?, extent, -⟩ := extent_of_commits commits
  exact (Protocol.driveBit_of_sampleBit (Protocol.phases_of_sampleBit extent samples).1).1

theorem weakData_of_sources {checker ready before : Checker β} {n count : Nat} {byte : UInt8}
    (idle : checker.startUp = .ok () ready) (run : ready.turns n = .ok before)
    (driving : before.protocol.phase = .driveBit) (few : count < 8)
    (sources : before.protocol.Sources byte count) :
    before.weakData = byte.toNat.testBit (7 - count) := by
  have held := holds_turns idle run
  unfold Protocol.holds at held
  rw [driving] at held
  rw [beq_iff_eq.mp held]
  rcases sources with past | stopped | illegal | ⟨⟨outgoing, -⟩, -⟩
  · exact absurd few (Nat.not_lt_of_le past)
  · rw [driving] at stopped
    cases stopped
  · rw [driving] at illegal
    cases illegal
  · unfold Shifter.outgoingLevel Shifter.outgoingBit?
    rw [outgoing]
    exact Shifter.topBit_shiftedOut byte few

/-- The bytes that we source in a run are those of the configuration, one after the other, and
`0xab` from then on. One is asked for by the command of a read and by each acknowledge of the peer;
a bit of it that is sampled before the next start stands on the data line from the fall of the clock
before that until the next fall. While we sink, the line is let go for the bits. All this is what the
bus shows, if no drive is lost. -/
theorem sourced_as_configured {config : Config} {bus : β} {checker ready : Checker β}
    (made : ofConfig config bus = .ok checker) (idle : checker.startUp = .ok () ready) :
    (∀ early next before told entered since phases event, ready.Passes told entered early →
      .event event ∈ early.reported → event.asksByte = true → early.turn = .ok next →
      next.Passes since phases before →
      (∀ event, .event event ∈ since → event.isStart = false) →
      .sampleBit ∈ before.entered → phases.count .sampleBit < 8 →
      early.reported.countP (Finding.shows Event.asksByte) = 1 ∧
      ∃ fallen fell earlier visited, ready.Passes earlier visited fallen ∧ fallen.FallsNext ∧
        fallen.turn = .ok fell ∧ fell.Unfallen before ∧
        ∀ later, fell.Unfallen later → later.weakData =
          (config.txData.getD (told.countP (Finding.shows Event.asksByte)) 0xab).toNat.testBit
            (7 - phases.count .sampleBit)) ∧
    ∀ between told entered, ready.Passes told entered between →
      (between.protocol.phase ∈ [.driveBit, .sampleBit] →
        between.protocol.shifter.isSinking = true → between.weakData = true) ∧
      (LineBus.KeepsDrives bus → between.probe.Agrees) := by
  have configured := configured_of_ofConfig made
  constructor
  · intro early next before told entered since phases event first mem asks turned passes within
      samples few
    obtain ⟨one, sources⟩ :=
      sources_of_passes (.fresh made) idle first mem asks turned passes within
    refine ⟨one, ?_⟩
    have whole := (first.turn turned).append passes
    obtain ⟨n, run⟩ := whole.turns
    have driving := driveBit_of_entered samples
    have low := (lasts_turns idle run).clock false (by rw [driving]; rfl)
    obtain ⟨fallen, fell, earlier, visited, ran, falls, fall, unfallen⟩ :=
      fallen_of_low idle whole low
    refine ⟨fallen, fell, earlier, visited, ran, falls, fall, unfallen, fun later steady => ?_⟩
    obtain ⟨m, run'⟩ := (ran.turn fall).turns
    have level := weakData_of_sources idle run driving few sources
    rw [responses_startUp idle, configured.responses] at level
    rw [weakData_of_unfallen idle run' steady, ← weakData_of_unfallen idle run' unfallen]
    exact level
  · intro between told entered passes
    refine ⟨fun bit => leavesBits_of_passes (.fresh made) idle passes (by simpa using bit),
      fun keeps => agrees_of_passes configured.distinct idle passes (configured.bus ▸ keeps)⟩

/-- A read of one byte, at its third bit. -/
theorem sourced_in_read :
    ∃ (checker ready early next before : Checker Replay) (told since : List Finding)
      (entered phases : List Phase),
      ofConfig { clock := 0, data := 1, txData := [0x5a] }
        ((Replay.ofTrace 0 1 (Replay.readTrace 5)).withCycle 10) = .ok checker ∧
      checker.startUp = .ok () ready ∧ ready.Passes told entered early ∧
      .event (.transactionStarted .read 0) ∈ early.reported ∧ early.turn = .ok next ∧
      next.Passes since phases before ∧ .sampleBit ∈ before.entered ∧
      phases.count .sampleBit = 2 ∧ before.weakData = (0x5a).testBit 5 ∧ before.probe.Agrees := by
  let bus : Replay := (Replay.ofTrace 0 1 (Replay.readTrace 5)).withCycle 10
  have seen : ((ofConfig { clock := 0, data := 1, txData := [0x5a] } bus).toOption.bind
      fun checker => checker.startUp.verdict.toOption.bind
      fun ready => (ready.turns 35).toOption.bind
      fun early => early.turn.toOption.bind
      fun next => (next.turns 18).toOption.map
      fun before => ((early.findings.drop ready.findings.length).countP
          (Finding.shows Event.asksByte), early.reported.getLast?,
        (before.findings.drop next.findings.length).all fun finding =>
          !finding.shows Event.isStart,
        (before.phases.drop next.phases.length).count .sampleBit, before.entered)) =
      some (0, some (.event (.transactionStarted .read 0)), true, 2, [.sampleBit]) := by
    decide +kernel
  obtain ⟨checker, made, seen⟩ := Option.bind_eq_some_iff.mp seen
  obtain ⟨ready, idle, seen⟩ := Option.bind_eq_some_iff.mp seen
  obtain ⟨early, run, seen⟩ := Option.bind_eq_some_iff.mp seen
  obtain ⟨next, turned, seen⟩ := Option.bind_eq_some_iff.mp seen
  obtain ⟨before, later, seen⟩ := Option.map_eq_some_iff.mp seen
  have made := eq_ok_of_toOption made
  have idle := Outcome.eq_ok_of_verdict (eq_ok_of_toOption idle)
  have turned := eq_ok_of_toOption turned
  obtain ⟨told, entered, first⟩ := passes_of_turns (eq_ok_of_toOption run)
  obtain ⟨since, phases, passes⟩ := passes_of_turns (eq_ok_of_toOption later)
  rw [first.grown.1, passes.grown.1, passes.grown.2] at seen
  obtain ⟨unasked, read, within, third, samples⟩ := by simpa only [Prod.mk.injEq] using seen
  have read := List.mem_of_getLast? read
  have samples : .sampleBit ∈ before.entered := samples ▸ List.mem_singleton_self _
  have within : ∀ event, .event event ∈ since → event.isStart = false :=
    fun _ => Finding.quiet_of_all within
  obtain ⟨bits, others⟩ := sourced_as_configured made idle
  obtain ⟨-, fallen, fell, -, -, -, -, -, unfallen, level⟩ :=
    bits early next before told entered since phases _ first read rfl turned passes within samples
      (third ▸ by decide)
  have level := level before unfallen
  rw [unasked, third] at level
  exact ⟨checker, ready, early, next, before, told, since, entered, phases, made, idle, first, read,
    turned, passes, samples, third, level,
    (others before _ _ ((first.turn turned).append passes)).2 bus.keepsDrives⟩

end Checker
end TwoWire
