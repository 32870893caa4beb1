import TwoWire.Bus.Faults
import TwoWire.Bus.Replay
import TwoWire.Proofs.Follow
import TwoWire.Proofs.Turn

/-! The states a run rests in. `AtRest` says how the phase, the committed levels, the byte in flight
and the roles fit together whenever a run looks at its lines. -/

namespace TwoWire

/-- The committed level of the clock while a phase lasts, `none` where either will do. -/
def Phase.clockAtRest : Phase → Option Bool
  | .stopped | .starting | .sampleBit | .byteDone | .acked | .nacked | .repeatStart => some true
  | .driveBit | .driveAck | .ackSent => some false
  | .checkStartStop | .sampleAck | .illegal => none

def Phase.dataAtRest : Phase → Option Bool
  | .stopped => some true
  | .starting | .repeatStart => some false
  | _ => none

/-- The clocks that the byte in flight may have seen while a phase lasts. -/
def Phase.CountsAtRest (acknowledging : Bool) (bits : Nat) : Phase → Prop
  | .driveBit => bits ≤ 7
  | .sampleBit => 1 ≤ bits ∧ bits ≤ 7
  | .starting | .repeatStart | .acked | .nacked | .ackSent => bits = 0
  | .driveAck => bits = 8
  | .byteDone => bits = if acknowledging then 0 else 8
  | .stopped | .checkStartStop | .sampleAck | .illegal => True

structure EdgeDetector.Moved (before after : EdgeDetector) (line : Line) : Prop where
  moved : (after.sample line).level = !(before.sample line).level
  kept : ∀ other, other ≠ line → (after.sample other).level = (before.sample other).level

namespace Protocol

structure AtRest (protocol : Protocol) (detector : EdgeDetector) : Prop where
  rests : protocol.phase ≠ .checkStartStop ∧ protocol.phase ≠ .sampleAck
  clock : ∀ level, protocol.phase.clockAtRest = some level → detector.clock.level = level
  data : ∀ level, protocol.phase.dataAtRest = some level → detector.data.level = level
  bits : protocol.phase.CountsAtRest protocol.acknowledging protocol.shifter.bits
  ours : protocol.phase = .ackSent → protocol.acknowledging = true
  theirs : protocol.phase = .driveAck → protocol.acknowledging = false
  oneWay : (protocol.shifter.isSinking && protocol.shifter.isSourcing) = false
  command : protocol.phase = .driveBit ∨ protocol.phase = .sampleBit →
    protocol.byteCount = 0 → protocol.shifter.isSinking = true

/-- What carries the rest states from one edge to the next: a byte of ours is not sunk while the
peer answers it, a transaction begins with sinking, and a byte answered has been counted. -/
structure Coherent (protocol : Protocol) (detector : EdgeDetector) : Prop
    extends AtRest protocol detector where
  sent : protocol.phase = .byteDone ∨ protocol.phase = .driveAck →
    protocol.acknowledging = false → protocol.shifter.isSinking = false
  begun : protocol.phase = .starting ∨ protocol.phase = .repeatStart → protocol.shifter = .sink
  counted : protocol.phase = .acked ∨ protocol.phase = .nacked → protocol.byteCount ≠ 0

variable {protocol : Protocol} {view : View} {detector : EdgeDetector}

theorem coherent_measured (view : View) (edge : Edge) (h : Coherent protocol detector) :
    Coherent (protocol.measured view edge) detector := by
  unfold measured
  split
  · exact ⟨⟨h.rests, h.clock, h.data, h.bits, h.ours, h.theirs, h.oneWay, h.command⟩, h.sent,
      h.begun, h.counted⟩
  · exact h

theorem coherent_illegal
    (oneWay : (protocol.shifter.isSinking && protocol.shifter.isSourcing) = false) :
    Coherent (protocol.follow view .illegal).protocol detector := by
  rw [follow_illegal]
  constructor
  case toAtRest => constructor <;> simp_all [Phase.clockAtRest, Phase.dataAtRest,
    Phase.CountsAtRest]
  all_goals simp

theorem coherent_stopped (clock : detector.clock.level = true) (data : detector.data.level = true)
    (oneWay : (protocol.shifter.isSinking && protocol.shifter.isSourcing) = false) :
    Coherent (protocol.follow view .stopped).protocol detector := by
  rw [follow_stopped]
  constructor
  case toAtRest => constructor <;> simp_all [Phase.clockAtRest, Phase.dataAtRest,
    Phase.CountsAtRest]
  all_goals simp

theorem coherent_begun {before : Phase} {phase : Phase}
    (start : phase = .starting ∨ phase = .repeatStart) (clock : detector.clock.level = true)
    (data : detector.data.level = false) :
    Coherent { protocol.beginTransaction with previous := before, phase } detector := by
  rcases start with rfl | rfl
  all_goals
    constructor
    case toAtRest => constructor <;> simp_all [Phase.clockAtRest, Phase.dataAtRest,
      Phase.CountsAtRest, beginTransaction, Shifter.sink, Shifter.isSinking, Shifter.isSourcing]
    all_goals simp [beginTransaction]

theorem coherent_driveBit (low : detector.clock.level = false) (bits : protocol.shifter.bits ≤ 7)
    (oneWay : (protocol.shifter.isSinking && protocol.shifter.isSourcing) = false)
    (command : protocol.byteCount = 0 → protocol.shifter.isSinking = true) :
    Coherent (protocol.follow view .driveBit).protocol detector := by
  rw [follow_driveBit]
  constructor
  case toAtRest => constructor <;> simp_all [Phase.clockAtRest, Phase.dataAtRest,
    Phase.CountsAtRest]
  all_goals simp

theorem isSinking_clock (shifter : Shifter) (level : Bool) :
    (shifter.clock level).isSinking = shifter.isSinking := by
  simp [Shifter.clock, Shifter.isSinking]

theorem isSourcing_clock (shifter : Shifter) (level : Bool) :
    (shifter.clock level).isSourcing = shifter.isSourcing := by
  simp [Shifter.clock, Shifter.isSourcing]

theorem incoming_clock_of_none {shifter : Shifter} (unsunk : shifter.incoming = none)
    (level : Bool) : (shifter.clock level).incoming = none := by
  unfold Shifter.clock
  rw [unsunk]
  rfl

theorem outgoing_clock_of_none {shifter : Shifter} (unsourced : shifter.outgoing = none)
    (level : Bool) : (shifter.clock level).outgoing = none := by
  unfold Shifter.clock
  rw [unsourced]
  rfl

theorem shifter_byteReceived (protocol : Protocol) (byte : UInt8) :
    (protocol.byteReceived byte).shifter = .sink ∨
      (protocol.byteReceived byte).shifter = .source protocol.responses.nextByte.1 := by
  unfold byteReceived command
  dsimp only
  split
  · split
    · exact .inl rfl
    · exact .inr rfl
  · exact .inl rfl

theorem acknowledging_byteReceived (protocol : Protocol) (byte : UInt8) :
    (protocol.byteReceived byte).acknowledging = true := by
  unfold byteReceived command
  dsimp only
  split
  · split <;> rfl
  · rfl

theorem coherent_byteReceived {byte : UInt8} (high : detector.clock.level = true) :
    Coherent { protocol.byteReceived byte with previous := .sampleBit, phase := .byteDone }
      detector := by
  have ours := acknowledging_byteReceived protocol byte
  rcases shifter_byteReceived protocol byte with sink | source
  case inl =>
    constructor
    case toAtRest => constructor <;> simp_all [Phase.clockAtRest, Phase.dataAtRest,
      Phase.CountsAtRest, Shifter.sink, Shifter.isSourcing]
    all_goals simp_all
  case inr =>
    constructor
    case toAtRest => constructor <;> simp_all [Phase.clockAtRest, Phase.dataAtRest,
      Phase.CountsAtRest, Shifter.source, Shifter.isSinking]
    all_goals simp_all

theorem coherent_sampleBit (high : detector.clock.level = true) (bits : protocol.shifter.bits ≤ 7)
    (oneWay : (protocol.shifter.isSinking && protocol.shifter.isSourcing) = false)
    (command : protocol.byteCount = 0 → protocol.shifter.isSinking = true) :
    Coherent (protocol.follow view .sampleBit).protocol detector := by
  have count : (protocol.shifter.clock (view.level .data)).bits = protocol.shifter.bits + 1 := by
    simp [Shifter.clock, Shifter.bitsPerByte]
    omega
  cases full : (protocol.shifter.clock (view.level .data)).isComplete with
  | false =>
    rw [follow_sampleBit_of_incomplete full]
    simp only [Shifter.isComplete, Shifter.bitsPerByte, count, decide_eq_false_iff_not] at full
    have few : protocol.shifter.bits + 1 ≤ 7 := by omega
    constructor
    case toAtRest =>
      constructor <;> simp_all [sampled, Phase.clockAtRest, Phase.dataAtRest, Phase.CountsAtRest,
        isSinking_clock, isSourcing_clock]
    all_goals simp [sampled]
  | true =>
    cases incoming : (protocol.shifter.clock (view.level .data)).incoming with
    | some byte =>
      rw [follow_sampleBit_of_received full incoming]
      exact coherent_byteReceived high
    | none =>
      rw [follow_sampleBit_of_sent full incoming]
      simp only [Shifter.isComplete, Shifter.bitsPerByte, count, decide_eq_true_eq] at full
      have sent : (protocol.shifter.clock (view.level .data)).isSinking = false := by
        simp [Shifter.isSinking, incoming]
      constructor
      case toAtRest =>
        constructor <;> simp_all [sampled, byteSent, Phase.clockAtRest, Phase.dataAtRest,
          Phase.CountsAtRest]
        omega
      all_goals simp_all [sampled, byteSent]

theorem coherent_driveAck (low : detector.clock.level = false)
    (bits : protocol.shifter.bits = if protocol.acknowledging then 0 else 8)
    (oneWay : (protocol.shifter.isSinking && protocol.shifter.isSourcing) = false)
    (sent : protocol.acknowledging = false → protocol.shifter.isSinking = false) :
    Coherent (protocol.follow view .driveAck).protocol detector := by
  cases ours : protocol.acknowledging with
  | true =>
    rw [follow_driveAck_of_ours ours]
    constructor
    case toAtRest => constructor <;> simp_all [Phase.clockAtRest, Phase.dataAtRest,
      Phase.CountsAtRest]
    all_goals simp
  | false =>
    rw [follow_driveAck_of_theirs ours]
    constructor
    case toAtRest => constructor <;> simp_all [Phase.clockAtRest, Phase.dataAtRest,
      Phase.CountsAtRest]
    all_goals simp_all

theorem coherent_ackSent (low : detector.clock.level = false) (bits : protocol.shifter.bits = 0)
    (ours : protocol.acknowledging = true)
    (oneWay : (protocol.shifter.isSinking && protocol.shifter.isSourcing) = false) :
    Coherent (protocol.follow view .ackSent).protocol detector := by
  rw [follow_ackSent]
  constructor
  case toAtRest => constructor <;> simp_all [Phase.clockAtRest, Phase.dataAtRest,
    Phase.CountsAtRest]
  all_goals simp_all

theorem coherent_answered {phase : Phase} (after : phase = .acked ∨ phase = .nacked)
    (high : detector.clock.level = true) (bits : protocol.shifter.bits = 0)
    (counted : protocol.byteCount ≠ 0)
    (oneWay : (protocol.shifter.isSinking && protocol.shifter.isSourcing) = false) :
    Coherent { protocol with phase } detector := by
  rcases after with rfl | rfl
  all_goals
    constructor
    case toAtRest => constructor <;> simp_all [Phase.clockAtRest, Phase.dataAtRest,
      Phase.CountsAtRest]
    all_goals simp_all

theorem byteCount_endByte_ne_zero (protocol : Protocol) (nack : Bool) :
    (protocol.endByte nack).byteCount ≠ 0 := by
  rw [byteCount_endByte]
  unfold UInt32.size
  omega

theorem coherent_sampleAck (high : detector.clock.level = true)
    (oneWay : (protocol.shifter.isSinking && protocol.shifter.isSourcing) = false)
    (sent : protocol.acknowledging = false → protocol.shifter.isSinking = false) :
    Coherent (protocol.follow view .sampleAck).protocol detector := by
  rw [follow_sampleAck]
  refine @coherent_answered { (if protocol.acknowledging then protocol
    else protocol.peerAnswered (view.level .data)).endByte (view.level .data) with
      previous := .sampleAck } detector _ ?_ high rfl
    (byteCount_endByte_ne_zero _ (view.level .data)) ?_
  · cases view.level .data <;> simp
  · cases ours : protocol.acknowledging with
    | true => simpa [endByte, Shifter.restart, Shifter.isSinking, Shifter.isSourcing] using oneWay
    | false =>
      have quiet := sent ours
      cases view.level .data <;>
        simp_all [endByte, peerAnswered, Shifter.restart, Shifter.isSinking, Shifter.isSourcing,
          Shifter.stopSourcing, Shifter.load]

theorem coherent_checkStartStop (high : view.detector.clock.level = true)
    (oneWay : (protocol.shifter.isSinking && protocol.shifter.isSourcing) = false) :
    Coherent (protocol.follow view .checkStartStop).protocol view.detector := by
  cases rose : view.data.level with
  | true =>
    rw [follow_checkStartStop_of_stop rose]
    exact @coherent_stopped { protocol with phase := .checkStartStop } view view.detector high rose
      oneWay
  | false =>
    rw [follow_checkStartStop_of_start rose]
    refine coherent_begun ?_ high rose
    split
    · exact .inr rfl
    · exact .inl rfl

theorem successor_of_legal {line : Line} (legal : protocol.phase ≠ .illegal) :
    protocol.successor detector line = protocol.phase.next line := by
  unfold successor
  rw [if_neg (fun recovery => legal recovery.1)]

theorem coherent_follow_clock {before : EdgeDetector} (h : Coherent protocol before)
    (moved : before.Moved view.detector .clock) :
    Coherent (protocol.follow view (protocol.successor view.detector .clock)).protocol
      view.detector := by
  have clock : view.detector.clock.level = !before.clock.level := moved.moved
  cases phase : protocol.phase with
  | illegal =>
    rw [successor, if_neg (by simp), phase]
    exact coherent_illegal h.oneWay
  | checkStartStop => exact absurd phase h.rests.1
  | sampleAck => exact absurd phase h.rests.2
  | stopped =>
    rw [successor_of_legal (by simp [phase]), phase]
    exact coherent_illegal h.oneWay
  | starting | repeatStart =>
    have sink := h.begun (by simp [phase])
    rw [successor_of_legal (by simp [phase]), phase]
    have rest := h.clock true (by rw [phase]; rfl)
    exact coherent_driveBit (by simp [clock, rest]) (by simp [sink, Shifter.sink]) h.oneWay
      (fun _ => by simp [sink, Shifter.sink, Shifter.isSinking])
  | driveBit =>
    rw [successor_of_legal (by simp [phase]), phase]
    have rest := h.clock false (by rw [phase]; rfl)
    have bits := h.bits
    rw [phase] at bits
    exact coherent_sampleBit (by simp [clock, rest]) bits h.oneWay (h.command (.inl phase))
  | sampleBit =>
    rw [successor_of_legal (by simp [phase]), phase]
    have rest := h.clock true (by rw [phase]; rfl)
    have bits := h.bits
    rw [phase] at bits
    exact coherent_driveBit (by simp [clock, rest]) bits.2 h.oneWay (h.command (.inr phase))
  | byteDone =>
    rw [successor_of_legal (by simp [phase]), phase]
    have rest := h.clock true (by rw [phase]; rfl)
    have bits := h.bits
    rw [phase] at bits
    exact coherent_driveAck (by simp [clock, rest]) bits h.oneWay (h.sent (.inl phase))
  | driveAck =>
    rw [successor_of_legal (by simp [phase]), phase]
    have rest := h.clock false (by rw [phase]; rfl)
    exact coherent_sampleAck (by simp [clock, rest]) h.oneWay (h.sent (.inr phase))
  | ackSent =>
    rw [successor_of_legal (by simp [phase]), phase]
    have rest := h.clock false (by rw [phase]; rfl)
    refine coherent_sampleAck (by simp [clock, rest]) h.oneWay (fun theirs => ?_)
    rw [h.ours phase] at theirs
    cases theirs
  | acked | nacked =>
    rw [successor_of_legal (by simp [phase]), phase]
    have rest := h.clock true (by rw [phase]; rfl)
    have bits := h.bits
    rw [phase] at bits
    exact coherent_driveBit (by simp [clock, rest])
      (Nat.le_trans (Nat.le_of_eq bits) (Nat.zero_le 7)) h.oneWay
      (fun none => absurd none (h.counted (by simp [phase])))

theorem coherent_follow_data {before : EdgeDetector} (h : Coherent protocol before)
    (moved : before.Moved view.detector .data) :
    Coherent (protocol.follow view (protocol.successor view.detector .data)).protocol
      view.detector := by
  have clock : view.detector.clock.level = before.clock.level := moved.kept .clock (by simp)
  have data : view.detector.data.level = !before.data.level := moved.moved
  cases phase : protocol.phase with
  | illegal =>
    -- the illegal phase is left if the clock is high
    unfold successor
    cases high : view.detector.clock.level with
    | false =>
      rw [if_neg (by simp), phase]
      exact coherent_illegal h.oneWay
    | true =>
      rw [if_pos (by simp [phase])]
      cases rose : view.detector.data.level with
      | true => exact coherent_stopped high rose h.oneWay
      | false => exact coherent_begun (.inl rfl) high rose
  | checkStartStop => exact absurd phase h.rests.1
  | sampleAck => exact absurd phase h.rests.2
  | stopped =>
    have idle := h.data true (by simp [phase, Phase.dataAtRest])
    rw [successor_of_legal (by simp [phase]), phase]
    have rest := h.clock true (by rw [phase]; rfl)
    exact coherent_begun (.inl rfl) (by simp [clock, rest]) (by simp [data, idle])
  | starting | repeatStart | byteDone =>
    rw [successor_of_legal (by simp [phase]), phase]
    exact coherent_illegal h.oneWay
  | driveBit =>
    rw [successor_of_legal (by simp [phase]), phase]
    have rest := h.clock false (by rw [phase]; rfl)
    have bits := h.bits
    rw [phase] at bits
    exact coherent_driveBit (by simp [clock, rest]) bits h.oneWay (h.command (.inl phase))
  | sampleBit =>
    rw [successor_of_legal (by simp [phase]), phase]
    have rest := h.clock true (by rw [phase]; rfl)
    exact coherent_checkStartStop (by simp [clock, rest]) h.oneWay
  | driveAck =>
    rw [successor_of_legal (by simp [phase]), phase]
    have rest := h.clock false (by rw [phase]; rfl)
    have bits := h.bits
    rw [phase] at bits
    exact coherent_driveAck (by simp [clock, rest]) (by rw [h.theirs phase]; exact bits) h.oneWay
      (h.sent (.inr phase))
  | ackSent =>
    rw [successor_of_legal (by simp [phase]), phase]
    have rest := h.clock false (by rw [phase]; rfl)
    have bits := h.bits
    rw [phase] at bits
    exact coherent_ackSent (by simp [clock, rest]) bits (h.ours phase) h.oneWay
  | acked =>
    rw [successor_of_legal (by simp [phase]), phase]
    have rest := h.clock true (by rw [phase]; rfl)
    have bits := h.bits
    rw [phase] at bits
    exact @coherent_answered { protocol with previous := protocol.phase } _ _ (.inl rfl)
      (by simp [clock, rest]) bits (h.counted (.inl phase)) h.oneWay
  | nacked =>
    rw [successor_of_legal (by simp [phase]), phase]
    have rest := h.clock true (by rw [phase]; rfl)
    have bits := h.bits
    rw [phase] at bits
    exact @coherent_answered { protocol with previous := protocol.phase } _ _ (.inr rfl)
      (by simp [clock, rest]) bits (h.counted (.inr phase)) h.oneWay

theorem coherent_answer {before : EdgeDetector} {edge : Edge} (stretches : Bool)
    (h : Coherent protocol before) (moved : before.Moved view.detector edge.line) :
    Coherent (protocol.answer stretches view edge).protocol view.detector := by
  have same := view.detector_held edge stretches
  have start := coherent_measured view edge h
  unfold answer
  dsimp only
  rw [← successor_measured protocol view edge]
  rw [← same] at moved ⊢
  cases line : edge.line with
  | clock => exact coherent_follow_clock start (line ▸ moved)
  | data => exact coherent_follow_data start (line ▸ moved)

end Protocol

namespace Probe

variable {β : Type} [LineBus β]

theorem Commits.moved {probe committed : Probe β} {change : Change}
    (commits : probe.Commits change committed) :
    probe.detector.Moved committed.detector change.line := by
  have differs := (differs_of_edge commits.look commits.edge).1
  rw [differs_of_look commits.look, bne_iff_ne] at differs
  rw [commits.after]
  unfold Change.line
  constructor
  · cases line : change.edge.line <;> rw [line] at differs <;>
      simpa [commit, note, EdgeDetector.commit, EdgeDetector.sample, LineSample.commit, line]
        using Bool.eq_not_of_ne differs
  · intro other apart
    cases line : change.edge.line <;> rw [line] at apart <;> cases other <;>
      first | exact absurd rfl apart | simp [commit, note, EdgeDetector.commit,
        EdgeDetector.sample, line]

theorem detector_releaseWhenDue (probe : Probe β) :
    probe.releaseWhenDue.state.detector = probe.detector := by
  unfold releaseWhenDue
  split
  case isFalse => rfl
  case isTrue =>
    have still := probe.still_drive .clock true
    cases h : probe.drive .clock true <;> rw [h] at still <;> exact still.detector

theorem detector_pause {probe woken : Probe β} (h : probe.pause = .ok () woken) :
    woken.detector = probe.detector := by
  unfold pause at h
  dsimp only at h
  obtain ⟨_, early, wake, h⟩ := Outcome.of_andThen h
  have refreshed := early.refreshed_refresh
  rw [h] at refreshed
  refine refreshed.still.detector.trans ?_
  split at wake
  case isFalse =>
    obtain ⟨bus, -, rfl⟩ := wait_ok wake
    rfl
  case isTrue =>
    obtain ⟨_, late, waited, wake⟩ := Outcome.of_andThen wake
    have released := late.detector_releaseWhenDue
    rw [wake] at released
    obtain ⟨bus, -, rfl⟩ := wait_ok waited
    exact released

theorem detector_awaitIdle {probe idle : Probe β} (h : probe.awaitIdle = .ok () idle) :
    idle.detector.clock.level = true ∧ idle.detector.data.level = true := by
  fun_induction awaitIdle probe with
  | case1 => cases h
  | case2 =>
    cases h
    exact ⟨rfl, rfl⟩
  | case3 => cases h
  | case4 _ _ _ _ _ _ _ ih => exact ih h

theorem detector_settle {probe idle : Probe β} {time : Nat}
    (h : probe.settle time = .ok () idle) :
    idle.detector.clock.level = true ∧ idle.detector.data.level = true := by
  unfold settle at h
  obtain ⟨_, free, -, h⟩ := Outcome.of_andThen h
  obtain ⟨_, both, -, h⟩ := Outcome.of_andThen h
  obtain ⟨_, late, -, h⟩ := Outcome.of_andThen h
  exact detector_awaitIdle h

end Probe

theorem Config.of_check {config : Config} {responses : Responses}
    (accepted : config.check = .ok responses) :
    responses = ⟨config.ackSequence, config.txData⟩ := by
  unfold Config.check at accepted
  split at accepted
  · cases accepted
  · split at accepted
    · cases accepted
    · split at accepted
      · cases accepted
      · unfold Config.responses Responses.ofLists at accepted
        split at accepted
        · cases accepted
        · split at accepted
          · cases accepted
          · cases accepted
            rfl

namespace Checker

theorem oneWay_ofConfig {β : Type} {config : Config} {bus : β} {checker : Checker β}
    (made : ofConfig config bus = .ok checker) :
    (checker.protocol.shifter.isSinking && checker.protocol.shifter.isSourcing) = false := by
  unfold ofConfig at made
  cases checked : config.check with
  | error error =>
    rw [checked] at made
    cases made
  | ok responses =>
    rw [checked] at made
    cases made
    rfl

variable {β : Type} [LineBus β]

theorem coherent_turn {before next : Checker β} (turned : before.turn = .ok next)
    (h : before.protocol.Coherent before.probe.detector) :
    next.protocol.Coherent next.probe.detector := by
  rcases turn_cases turned with ⟨change, committed, commits, react⟩ | ⟨woken, paused, rfl⟩
  · have answered := answered react
    rw [answered.protocol, answered.still.detector]
    exact Protocol.coherent_answer _ h commits.moved
  · rw [Probe.detector_pause paused]
    exact h

/-- A run starts from rest, whatever was left of an earlier one. -/
theorem coherent_startUp_of_oneWay {checker ready : Checker β}
    (oneWay : (checker.protocol.shifter.isSinking && checker.protocol.shifter.isSourcing) = false)
    (idle : checker.startUp = .ok () ready) :
    ready.protocol.Coherent ready.probe.detector := by
  unfold startUp at idle
  cases settled : (checker.note (.started checker.config)).probe.settle
      checker.config.settleTime with
  | fail error late =>
    rw [settled] at idle
    cases idle
  | ok _ late =>
    rw [settled] at idle
    cases idle
    obtain ⟨clock, data⟩ := Probe.detector_settle settled
    constructor
    case toAtRest => constructor <;> simp_all [note, Phase.clockAtRest, Phase.dataAtRest,
      Phase.CountsAtRest]
    all_goals simp

theorem coherent_startUp {config : Config} {bus : β} {checker ready : Checker β}
    (made : ofConfig config bus = .ok checker) (idle : checker.startUp = .ok () ready) :
    ready.protocol.Coherent ready.probe.detector :=
  coherent_startUp_of_oneWay (oneWay_ofConfig made) idle

/-- After start-up the phase, the committed levels, the byte in flight and the roles fit together
between any two turns of a run, and so whenever the run is suspended, whatever the bus does. -/
theorem atRest_of_turns {config : Config} {bus : β} {checker ready between : Checker β} {n : Nat}
    (made : ofConfig config bus = .ok checker) (idle : checker.startUp = .ok () ready)
    (run : ready.turns n = .ok between) :
    between.protocol.AtRest between.probe.detector := by
  have coherent := turns_induct
    (motive := fun checker => checker.protocol.Coherent checker.probe.detector)
    (coherent_startUp made idle) coherent_turn run
  exact coherent.toAtRest

/-- A clocked bit with a stretched clock, a wake-up too many and a lost drive. -/
theorem atRest_of_clocked_bit :
    ∃ (checker ready between : Checker (Faulty Replay)),
      ofConfig { clock := 0, data := 1, clockStretch := 50 }
        { bus := .ofTrace 0 1 [⟨200, 1, some false⟩, ⟨300, 0, some false⟩, ⟨400, 0, none⟩]
          faults := [⟨.wait, 3, none⟩, ⟨.drive, 6, none⟩] } = .ok checker ∧
      checker.startUp = .ok () ready ∧ ready.turns 12 = .ok between ∧
      between.protocol.phase = .sampleBit ∧
      between.protocol.AtRest between.probe.detector := by
  let bus : Faulty Replay :=
    { bus := .ofTrace 0 1 [⟨200, 1, some false⟩, ⟨300, 0, some false⟩, ⟨400, 0, none⟩]
      faults := [⟨.wait, 3, none⟩, ⟨.drive, 6, none⟩] }
  have phase : ((ofConfig { clock := 0, data := 1, clockStretch := 50 } bus).toOption.bind
      fun checker => checker.startUp.verdict.toOption.bind
      fun ready => (ready.turns 12).toOption.map fun between => between.protocol.phase) =
        some .sampleBit := by decide +kernel
  obtain ⟨checker, made, phase⟩ := Option.bind_eq_some_iff.mp phase
  obtain ⟨ready, idle, phase⟩ := Option.bind_eq_some_iff.mp phase
  obtain ⟨between, run, phase⟩ := Option.map_eq_some_iff.mp phase
  have made := eq_ok_of_toOption made
  have idle := Outcome.eq_ok_of_verdict (eq_ok_of_toOption idle)
  have run := eq_ok_of_toOption run
  exact ⟨checker, ready, between, made, idle, run, phase, atRest_of_turns made idle run⟩

end Checker
end TwoWire
