import TwoWire.Proofs.Driven
import TwoWire.Proofs.Laid
import TwoWire.Proofs.Spending
import TwoWire.Proofs.Ways

/-! When we hold the data line low on an open-drain bus: within a byte of ours and at a byte that we
acknowledge, and never outside of a transaction (`low_in_turn`). -/

namespace TwoWire

namespace Protocol

def Pulls (protocol : Protocol) : Prop :=
  (protocol.phase = .driveBit ∨ protocol.phase = .sampleBit ∨ protocol.phase = .byteDone) ∧
      protocol.shifter.isSourcing = true ∨
    (protocol.phase = .ackSent ∨ protocol.phase = .acked) ∧ protocol.acknowledging = true

def Decided (protocol : Protocol) : Prop :=
  protocol.phase = .ackSent ∨
    (protocol.phase = .acked ∨ protocol.phase = .nacked) ∧ protocol.acknowledging = true

variable {protocol after : Protocol} {level weakData driven : Bool} {line : Line}
  {talk : List Event}

theorem isSourcing_of_outgoingLevel {shifter : Shifter} (low : shifter.outgoingLevel = false) :
    shifter.isSourcing = true := by
  unfold Shifter.outgoingLevel Shifter.outgoingBit? at low
  unfold Shifter.isSourcing
  cases outgoing : shifter.outgoing with
  | none =>
    rw [outgoing] at low
    cases low
  | some byte => rfl

theorem pulls_fall (low : protocol.wanted = false) :
    protocol.fall.Pulls ∧ (protocol.fall.phase = .driveBit ∨ protocol.fall.phase = .ackSent) := by
  unfold wanted at low
  unfold fall
  split at low
  case isTrue done =>
    have ours : protocol.acknowledging = true := by
      cases ours : protocol.acknowledging with
      | true => rfl
      | false =>
        rw [ours] at low
        cases low
    rw [if_pos done, if_pos ours]
    exact ⟨.inr ⟨.inl rfl, ours⟩, .inr rfl⟩
  case isFalse other =>
    rw [if_neg other]
    exact ⟨.inl ⟨.inl rfl, isSourcing_of_outgoingLevel low⟩, .inl rfl⟩

theorem pulls_rise_of_driveBit (bit : protocol.phase = .driveBit)
    (sourcing : protocol.shifter.isSourcing = true) (oneWay : protocol.OneWay) (level : Bool) :
    (protocol.rise level).Pulls := by
  have sunk : (protocol.shifter.clock level).incoming = none := by
    unfold OneWay at oneWay
    rw [sourcing, Bool.and_true, Shifter.isSinking, Option.isSome_eq_false_iff] at oneWay
    exact incoming_clock_of_none (Option.isNone_iff_eq_none.mp oneWay) level
  have sourced := isSourcing_clock protocol.shifter level
  rw [sourcing] at sourced
  unfold rise
  rw [if_pos bit]
  dsimp only
  rw [sunk]
  split
  · exact .inl ⟨.inr (.inr rfl), sourced⟩
  · exact .inl ⟨.inr (.inl rfl), sourced⟩

theorem rise_of_answer (apart : protocol.phase ≠ .driveBit) (level : Bool) :
    (protocol.rise level).phase = (if level then .nacked else .acked) ∧
      (protocol.rise level).acknowledging = protocol.acknowledging := by
  unfold rise
  rw [if_neg apart]
  refine ⟨rfl, ?_⟩
  unfold endByte
  dsimp only
  split
  · rfl
  · unfold peerAnswered
    split <;> rfl

theorem pulls_congr {after other : Protocol} (same : after.core = other.core) :
    after.Pulls ↔ other.Pulls := by
  obtain ⟨phase, shifter, ours, -⟩ := eq_of_core same
  unfold Pulls
  rw [phase, shifter, ours]

theorem Decided.congr {after other : Protocol} (same : after.core = other.core) :
    after.Decided ↔ other.Decided := by
  obtain ⟨phase, -, ours, -⟩ := eq_of_core same
  unfold Decided
  rw [phase, ours]

/-- An edge leaves us pulling the line low in turn only. While we do, an edge of the data line is
one that we have made ourselves, in the two phases that follow a fall of the clock. -/
theorem Way.pulls (way : protocol.Way level weakData line after driven talk)
    (oneWay : protocol.OneWay) (turn : weakData = false → protocol.Pulls)
    (low : weakData = false → level = false)
    (own : weakData = false → line = .data →
      protocol.phase = .driveBit ∨ protocol.phase = .ackSent)
    (pulled : driven = false) : after.Pulls := by
  cases way with
  | fall _ _ core drives _ => exact (pulls_congr core).mpr (pulls_fall (drives ▸ pulled)).1
  | rise _ phase core still _ =>
    have held := still ▸ pulled
    rw [pulls_congr core]
    rcases turn held with ⟨bit | sampled | done, sourcing⟩ | ⟨sent | acked, ours⟩
    · exact pulls_rise_of_driveBit bit sourcing oneWay level
    · rw [sampled] at phase
      cases phase
    · rw [done] at phase
      cases phase
    · obtain ⟨answered, same⟩ := rise_of_answer (by rw [sent]; decide) level
      rw [low held] at answered same ⊢
      exact .inr ⟨.inr answered, same.trans ours⟩
    · rw [acked] at phase
      cases phase
  | stay _ _ core still _ => exact (pulls_congr core).mpr (turn (still ▸ pulled))
  | start data high _ still _ =>
    rcases own (still ▸ pulled) data with phase | phase <;> rw [phase] at high <;> cases high
  | leave edge high _ _ still _ =>
    have held := still ▸ pulled
    rcases edge with data | stopped | illegal
    · rcases own held data with phase | phase <;> rw [phase] at high <;> cases high
    · rcases turn held with ⟨phase, -⟩ | ⟨phase, -⟩ <;> simp [stopped] at phase
    · rcases turn held with ⟨phase, -⟩ | ⟨phase, -⟩ <;> simp [illegal] at phase

theorem decided_fall (decided : protocol.fall.Decided) :
    protocol.phase = .byteDone ∧ protocol.acknowledging = true := by
  unfold fall at decided
  split at decided
  case isTrue done =>
    split at decided
    case isTrue ours => exact ⟨done, ours⟩
    case isFalse => rcases decided with sent | ⟨acked | nacked, -⟩ <;> contradiction
  case isFalse => rcases decided with sent | ⟨acked | nacked, -⟩ <;> contradiction

theorem not_decided_rise (bit : protocol.phase = .driveBit) (level : Bool) :
    ¬(protocol.rise level).Decided := by
  have phase : (protocol.rise level).phase = .sampleBit ∨
      (protocol.rise level).phase = .byteDone := by
    unfold rise
    rw [if_pos bit]
    dsimp only
    split
    · split <;> exact .inr rfl
    · exact .inl rfl
  unfold Decided
  rcases phase with phase | phase <;> rw [phase] <;> simp

/-- A decision stays on the line until it has been sampled, and it is the last one made. -/
theorem Way.decided (way : protocol.Way level weakData line after driven talk)
    (theirs : protocol.phase = .driveAck → protocol.acknowledging = false) {made : List Bool}
    (kept : protocol.Decided → made.getLast? = some (!weakData)) (decided : after.Decided) :
    (made ++ talk.filterMap Event.decision?).getLast? = some (!driven) := by
  cases way with
  | fall _ _ core drives told =>
    obtain ⟨done, ours⟩ := decided_fall ((Decided.congr core).mp decided)
    have one : talk.filterMap Event.decision? = [protocol.responses.nextAck.1] := by
      rw [told]
      unfold fallTalk
      rw [if_pos ⟨done, ours⟩]
      cases protocol.responses.nextAck.1 <;> rfl
    rw [one, List.getLast?_concat, drives]
    unfold wanted
    rw [if_pos done, ours]
    cases protocol.responses.nextAck.1 <;> rfl
  | rise _ low core still told =>
    rw [Decided.congr core] at decided
    by_cases bit : protocol.phase = .driveBit
    · exact absurd decided (not_decided_rise bit level)
    · obtain ⟨answered, same⟩ := rise_of_answer bit level
      have ours : protocol.acknowledging = true := by
        rcases decided with sent | ⟨-, ours⟩
        · rw [answered] at sent
          split at sent <;> cases sent
        · exact same.symm.trans ours
      have sent : protocol.phase = .ackSent := by
        cases phase : protocol.phase with
        | ackSent => rfl
        | driveBit => exact absurd phase bit
        | driveAck => exact absurd ((theirs phase).symm.trans ours) (by decide)
        | _ =>
          rw [phase] at low
          cases low
      have quiet : talk = [] := by
        rw [told]
        unfold riseTalk
        rw [if_neg bit, if_pos ours]
      rw [quiet, still, List.filterMap_nil, List.append_nil]
      exact kept (.inl sent)
  | stay _ _ core still told =>
    rw [told, still, List.filterMap_nil, List.append_nil]
    exact kept ((Decided.congr core).mp decided)
  | start _ _ phase _ _ =>
    unfold Decided at decided
    rcases phase with phase | phase <;> rw [phase] at decided <;> simp at decided
  | leave _ _ phase _ _ _ =>
    unfold Decided at decided
    rcases phase with phase | phase <;> rw [phase] at decided <;> simp at decided

end Protocol

namespace Checker

variable {β : Type} [LineBus β]

/-- How the lines are while we hold the data line low, and what has come of the decisions. -/
structure InTurn (told : List Finding) (between : Checker β) : Prop where
  turn : between.weakData = false → between.protocol.Pulls
  /-- The fall that we have caused is committed, or is the next edge. -/
  seen : between.weakData = false → between.probe.detector.data.level = false ∨
    between.probe.differs .clock = false ∧
      (between.protocol.phase = .driveBit ∨ between.protocol.phase = .ackSent)
  decided : between.protocol.Decided → (decisions told).getLast? = some (!between.weakData)

theorem low_of_weakData {before : Checker β} {sight : Sight} (look : before.probe.look = .ok sight)
    (low : ∀ id, LineBus.peer? before.probe.bus id ≠ some (some true))
    (pulled : before.weakData = false) : before.probe.lines.level sight .data = false := by
  have peer := Probe.peer_of_look look .data
  unfold Lines.level Lines.reading
  cases drives : sight.peer .data with
  | none => exact pulled
  | some level =>
    rw [drives] at peer
    cases level with
    | false => rfl
    | true => exact absurd peer (low _)

theorem settled_of_waited {before next : Checker β} (turned : before.turn = .ok next)
    (waited : Waited before next) (low : ∀ id, LineBus.peer? before.probe.bus id ≠ some (some true))
    (pulled : before.weakData = false) : before.probe.detector.data.level = false := by
  unfold Checker.turn at turned
  split at turned
  case h_1 => cases turned
  case h_2 sight look =>
    have calm := waited.calm .data
    rw [Probe.differs_of_look look, bne_eq_false_iff_eq] at calm
    exact calm.symm.trans (low_of_weakData look low pulled)

theorem inTurn_waited {before next : Checker β} {told : List Finding}
    (turned : before.turn = .ok next) (waited : Waited before next)
    (low : ∀ id, LineBus.peer? before.probe.bus id ≠ some (some true))
    (inTurn : before.InTurn told) : next.InTurn (told ++ before.reported) := by
  constructor
  · rw [waited.weakData, waited.protocol]
    exact inTurn.turn
  · rw [waited.weakData, waited.detector]
    exact fun pulled => .inl (settled_of_waited turned waited low pulled)
  · rw [waited.weakData, waited.protocol, waited.reported, List.append_nil]
    exact inTurn.decided

/-- What we pull low ourselves shows as an edge only if it has not been committed yet. -/
theorem InTurn.own {before : Checker β} {told : List Finding} (inTurn : before.InTurn told)
    {change : Change} {committed : Probe β} (commits : before.probe.Commits change committed)
    (live : (before.sees change).level .data = false) (pulled : before.weakData = false)
    (data : change.line = .data) :
    before.protocol.phase = .driveBit ∨ before.protocol.phase = .ackSent := by
  rcases inTurn.seen pulled with known | ⟨-, phase⟩
  · have apart := (Probe.differs_of_edge commits.look commits.edge).1
    rw [show change.edge.line = .data from data, Probe.differs_of_look commits.look] at apart
    have shown : before.probe.lines.level change.sight .data = false := live
    rw [shown, show (before.probe.detector.sample .data).level = false from known] at apart
    cases apart
  · exact phase

theorem inTurn_replied {before next : Checker β} {told : List Finding} {change : Change}
    {committed : Probe β} (commits : before.probe.Commits change committed)
    (replied : Replied before change next)
    (way : before.protocol.Way ((before.sees change).level .data) before.weakData change.line
      next.protocol next.weakData (Note.talk (before.reply change).notes))
    (coherent : before.protocol.Coherent before.probe.detector)
    (low : ∀ id, LineBus.peer? before.probe.bus id ≠ some (some true))
    (inTurn : before.InTurn told) : next.InTurn (told ++ before.reported) := by
  have live (pulled : before.weakData = false) : (before.sees change).level .data = false :=
    low_of_weakData commits.look low pulled
  have own (pulled : before.weakData = false) := inTurn.own commits (live pulled) pulled
  have pulls := way.pulls coherent.oneWay inTurn.turn live own
  refine ⟨pulls, fun pulled => ?_, fun made => ?_⟩
  · have pulls := pulls pulled
    cases way with
    | fall _ _ core drives _ =>
      obtain ⟨phase, -⟩ := Protocol.eq_of_core core
      rw [phase]
      exact .inr ⟨replied.calm, (Protocol.pulls_fall (drives ▸ pulled)).2⟩
    | rise clock _ _ still _ =>
      have clock : change.edge.line = .clock := clock
      rcases inTurn.seen (still ▸ pulled) with known | ⟨calm, -⟩
      · have kept := (replied.moved commits).kept .data (by
          rw [clock]
          decide)
        exact .inl (kept.trans known)
      · have apart := (Probe.differs_of_edge commits.look commits.edge).1
        rw [clock, calm] at apart
        cases apart
    | stay data _ _ still _ =>
      have shown := live (still ▸ pulled)
      rw [(live_of_commits commits).2 data] at shown
      rw [replied.detector]
      exact .inl shown
    | start data high _ still _ =>
      rcases own (still ▸ pulled) data with phase | phase <;> rw [phase] at high <;> cases high
    | leave edge high phase _ still _ =>
      unfold Protocol.Pulls at pulls
      rcases phase with phase | phase <;> rw [phase] at pulls <;> simp at pulls
  · have last := way.decided coherent.theirs inTurn.decided made
    rw [decisions_append, replied.reported, Note.decisions_findings]
    exact last

theorem inTurn_turn {before next : Checker β} {told : List Finding}
    (turned : before.turn = .ok next) (coherent : before.protocol.Coherent before.probe.detector)
    (lasts : before.protocol.phase.Lasts before.probe.detector)
    (held : before.protocol.holds before.weakData = true)
    (low : ∀ id, LineBus.peer? before.probe.bus id ≠ some (some true))
    (inTurn : before.InTurn told) : next.InTurn (told ++ before.reported) := by
  rcases way_of_turn turned lasts held with ⟨_, _, commits, replied, way⟩ | waited
  · exact inTurn_replied commits replied way coherent low inTurn
  · exact inTurn_waited turned waited low inTurn

theorem inTurn_startUp {checker ready : Checker β} (idle : checker.startUp = .ok () ready) :
    ready.InTurn [] := by
  have free := weakData_startUp idle
  have phase := phase_startUp idle
  refine ⟨fun pulled => ?_, fun pulled => ?_, fun decided => ?_⟩
  · exact absurd (free.symm.trans pulled) (by decide)
  · exact absurd (free.symm.trans pulled) (by decide)
  · unfold Protocol.Decided at decided
    rw [phase] at decided
    simp at decided

theorem inTurn_of_passes {checker ready between : Checker β} {told : List Finding}
    {entered : List Phase} (made : Made checker) (drain : LineBus.OpenDrain checker.probe.bus)
    (idle : checker.startUp = .ok () ready) (passes : ready.Passes told entered between) :
    between.InTurn told := by
  induction passes with
  | none => exact inTurn_startUp idle
  | turn early turned ih =>
    obtain ⟨n, run⟩ := early.turns
    exact inTurn_turn turned (coherent_of_made made idle run) (lasts_turns idle run)
      (holds_turns idle run) (low_of_passes idle early drain) ih

theorem InTurn.low {between : Checker β} {told : List Finding} (turn : between.InTurn told)
    (pulled : between.weakData = false) :
    between.protocol.phase ∈ [.driveBit, .sampleBit, .byteDone] ∧
        between.protocol.shifter.isSourcing = true ∨
      between.protocol.phase ∈ [.ackSent, .acked] ∧ between.protocol.acknowledging = true ∧
        (decisions told).getLast? = some true := by
  obtain ⟨turn, -, decided⟩ := turn
  rcases turn pulled with ⟨phase, sourcing⟩ | ⟨phase, ours⟩
  · exact .inl ⟨by simpa using phase, sourcing⟩
  · refine .inr ⟨by simpa using phase, ours, ?_⟩
    rw [decided (phase.imp_right fun acked => ⟨.inl acked, ours⟩), pulled]
    rfl

theorem InTurn.high {between : Checker β} {told : List Finding} (turn : between.InTurn told)
    (apart : between.protocol.phase ∈
      [.stopped, .starting, .repeatStart, .nacked, .driveAck, .illegal]) :
    between.weakData = true := by
  by_contra pulled
  rcases turn.low (Bool.eq_false_iff.mpr pulled) with ⟨phase, -⟩ | ⟨phase, -⟩ <;>
    simp only [List.mem_cons, List.not_mem_nil, or_false] at phase apart
  · rcases phase with phase | phase | phase <;> rw [phase] at apart <;> simp at apart
  · rcases phase with phase | phase <;> rw [phase] at apart <;> simp at apart

/-- On an open-drain bus the data line is never held low out of turn. Between any two turns of a run,
and so whenever it is suspended, we hold it low only for a byte of ours or for an acknowledge, which
is our last decision then; in the other phases, and while the run starts, the line is let go. The
lines of the bus are driven so if no drive is lost. -/
theorem low_in_turn {checker ready between : Checker β} {told : List Finding}
    {entered : List Phase} (made : Made checker) (drain : LineBus.OpenDrain checker.probe.bus)
    (idle : checker.startUp = .ok () ready) (passes : ready.Passes told entered between) :
    (between.weakData = false →
      between.protocol.phase ∈ [.driveBit, .sampleBit, .byteDone] ∧
          between.protocol.shifter.isSourcing = true ∨
        between.protocol.phase ∈ [.ackSent, .acked] ∧ between.protocol.acknowledging = true ∧
          (decisions told).getLast? = some true) ∧
    (between.protocol.phase ∈ [.stopped, .starting, .repeatStart, .nacked, .driveAck, .illegal] →
      between.weakData = true) ∧
    (∀ late, checker.Starts late → late.lines.weakData = true) ∧
    (checker.probe.lines.clock ≠ checker.probe.lines.data →
      LineBus.KeepsDrives checker.probe.bus → between.probe.Agrees) := by
  have turn := inTurn_of_passes made drain idle passes
  exact ⟨turn.low, turn.high, fun late => Probe.weakData_of_starts, fun distinct =>
    agrees_of_passes distinct idle passes⟩

/-- The command of a read, and our acknowledge of it on the line. -/
theorem low_at_acknowledge :
    ∃ (checker ready between : Checker Replay) (told : List Finding) (entered : List Phase),
      ofConfig { clock := 0, data := 1 }
        ((Replay.ofTrace 0 1 (Replay.readTrace 1)).withCycle 10) = .ok checker ∧
      LineBus.OpenDrain checker.probe.bus ∧ checker.startUp = .ok () ready ∧
      ready.Passes told entered between ∧ between.weakData = false ∧
      between.protocol.phase = .ackSent ∧ (decisions told).getLast? = some true ∧
      between.probe.Agrees := by
  let bus : Replay := (Replay.ofTrace 0 1 (Replay.readTrace 1)).withCycle 10
  have held : ((ofConfig { clock := 0, data := 1 } bus).toOption.bind
      fun checker => checker.startUp.verdict.toOption.bind
      fun ready => (ready.turns 38).toOption.map fun between =>
        (between.weakData, between.protocol.phase)) = some (false, .ackSent) := by decide +kernel
  obtain ⟨checker, made, held⟩ := Option.bind_eq_some_iff.mp held
  obtain ⟨ready, idle, held⟩ := Option.bind_eq_some_iff.mp held
  obtain ⟨between, run, held⟩ := Option.map_eq_some_iff.mp held
  have made := eq_ok_of_toOption made
  have idle := Outcome.eq_ok_of_verdict (eq_ok_of_toOption idle)
  obtain ⟨told, entered, passes⟩ := passes_of_turns (eq_ok_of_toOption run)
  obtain ⟨pulled, phase⟩ := Prod.mk.inj held
  have configured := configured_of_ofConfig made
  have drain : LineBus.OpenDrain checker.probe.bus :=
    configured.bus ▸ Replay.openDrain_ofTrace 0 1 (by decide) 10
  obtain ⟨turn, -, -, agrees⟩ := low_in_turn (.fresh made) drain idle passes
  refine ⟨checker, ready, between, told, entered, made, drain, idle, passes, pulled, phase, ?_,
    agrees configured.distinct (configured.bus ▸ bus.keepsDrives)⟩
  rcases turn pulled with ⟨bit, -⟩ | ⟨-, -, last⟩
  · rw [phase] at bit
    exact absurd bit (by decide)
  · exact last

/-- The data line is held low in turn only, and the lines of the bus are driven so. -/
structure LowInTurn (checker : Checker β) : Prop where
  low {ready between : Checker β} {told : List Finding} {entered : List Phase} :
    checker.startUp = .ok () ready → ready.Passes told entered between → between.weakData = false →
      between.protocol.phase ∈ [.driveBit, .sampleBit, .byteDone] ∧
          between.protocol.shifter.isSourcing = true ∨
        between.protocol.phase ∈ [.ackSent, .acked] ∧ between.protocol.acknowledging = true ∧
          (decisions told).getLast? = some true
  high {ready between : Checker β} {told : List Finding} {entered : List Phase} :
    checker.startUp = .ok () ready → ready.Passes told entered between →
      between.protocol.phase ∈ [.stopped, .starting, .repeatStart, .nacked, .driveAck, .illegal] →
        between.weakData = true
  starting : ∀ late, checker.Starts late → late.lines.weakData = true
  agrees {ready between : Checker β} {told : List Finding} {entered : List Phase} :
    checker.startUp = .ok () ready → ready.Passes told entered between → between.probe.Agrees

theorem lowInTurn_of_openDrain {config : Config} {bus : β} (drain : LineBus.OpenDrain bus)
    (keeps : LineBus.KeepsDrives bus) {checker : Checker β} (made : ofConfig config bus = .ok checker) :
    checker.LowInTurn := by
  have configured := configured_of_ofConfig made
  rw [← configured.bus] at drain keeps
  exact {
    low := fun idle passes => (inTurn_of_passes (.fresh made) drain idle passes).low
    high := fun idle passes => (inTurn_of_passes (.fresh made) drain idle passes).high
    starting := fun _ => Probe.weakData_of_starts
    agrees := fun idle passes => agrees_of_passes configured.distinct idle passes keeps }

/-- Runs on the bus hold the data line low in turn only, faults that lose no drive included. -/
def DrivesInTurn (config : Config) (bus : β) : Prop :=
  (∀ checker, ofConfig config bus = .ok checker → checker.LowInTurn) ∧
  ∀ faults : List Fault, (∀ fault ∈ faults, fault.sort = .drive → fault.error ≠ none) →
    ∀ checker, ofConfig config ({ bus, faults } : Faulty β) = .ok checker → checker.LowInTurn

theorem drivesInTurn_of_openDrain (config : Config) {bus : β} (drain : LineBus.OpenDrain bus)
    (keeps : LineBus.KeepsDrives bus) : DrivesInTurn config bus := by
  refine ⟨fun checker => lowInTurn_of_openDrain drain keeps, fun faults kept checker => ?_⟩
  exact lowInTurn_of_openDrain (Faulty.openDrain drain) (Faulty.keepsDrives keeps kept)

/-- So it is on every trace and in every program that drives no line high, and in every program of a
scenario that writes no bit alone so. -/
theorem drivesInTurn_of_low [RandomSource] (config : Config) (cycle : Nat) (clock data : LineId) :
    (∀ trace : List PeerDrive, (∀ entry ∈ trace, entry.level ≠ some true) →
      DrivesInTurn config ((Replay.ofTrace clock data trace).withCycle cycle)) ∧
    (∀ (program : List Step) (bus : Simulation), (∀ line, .drive line (some true) ∉ program) →
      Simulation.ofProgram clock data program = .ok bus →
        DrivesInTurn config (bus.withCycle cycle)) ∧
    ∀ (timing : ControllerTiming) (calls : List Call) (program : List Step) (bus : Simulation),
      .bit (some true) ∉ calls → Program.ofCalls? timing calls = .ok program →
        Simulation.ofProgram clock data program = .ok bus →
          DrivesInTurn config (bus.withCycle cycle) := by
  have programs {program : List Step} {bus : Simulation}
      (low : ∀ line, .drive line (some true) ∉ program)
      (made : Simulation.ofProgram clock data program = .ok bus) :
      DrivesInTurn config (bus.withCycle cycle) :=
    drivesInTurn_of_openDrain config (Simulation.openDrain_ofProgram low made cycle)
      (Simulation.keepsDrives _)
  refine ⟨fun trace low => ?_, fun _ _ => programs, fun timing calls program bus low laidOut => ?_⟩
  · exact drivesInTurn_of_openDrain config (Replay.openDrain_ofTrace clock data low cycle)
      (Replay.keepsDrives _)
  · obtain ⟨rfl, -⟩ := (Program.ofCalls?_eq_ok_iff timing calls).mp laidOut
    exact programs (Program.sinks_ofCalls timing low)

end Checker
end TwoWire
