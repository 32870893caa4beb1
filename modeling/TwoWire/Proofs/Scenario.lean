import TwoWire.Proofs.Laid
import TwoWire.Proofs.StartUp

/-! Whole runs against the simulated controller. The run ends on the idle bus, and what it has told
by then is what the transactions make of the scripted responses. -/

namespace TwoWire

/-- A checker with `config` is about to run against a controller that makes `calls`, with no low
phase given a length of its own, and the run keeps below `Time.half`. -/
structure Scenario [RandomSource] (timing : ControllerTiming) (calls : List Call) (config : Config)
    (cycle : Nat) (checker : Checker Simulation) : Prop where
  check : timing.check = .ok ()
  steady : ∀ duration, .shortenNextLow duration ∉ calls
  built : ∃ program bus, Program.ofCalls? timing calls = .ok program ∧
    Simulation.ofProgram config.clock config.data program = .ok bus ∧
    Checker.ofConfig config (bus.withCycle cycle) = .ok checker
  inTime : checker.run.2.InTime
  /-- The ends of the cycles that are waited for are in the range of time. -/
  inRange : checker.run.1 ≠ .overflow .add

/-- Jitter apart, the calls are those of transactions after an idle time. -/
structure Call.Plays (calls : List Call) (settleTime : Nat) (transactions : List Transaction) :
    Prop where
  proper : ∀ transaction ∈ transactions, transaction.Proper
  calls : ∃ idle, settleTime < idle ∧
    calls.filter Call.isPlain = .idle idle :: transactions.map Transaction.call

namespace Program

theorem Allowed.mono {slack more : Nat} {call : Call} (allowed : Allowed slack call)
    (h : slack ≤ more) : Allowed more call := by
  rcases allowed with plain | ⟨seed, most, same, fits⟩
  · exact .inl plain
  · exact .inr ⟨seed, most, same, Nat.le_trans fits h⟩

theorem exists_slack {calls : List Call} (steady : ∀ duration, .shortenNextLow duration ∉ calls) :
    ∃ slack, ∀ call ∈ calls, Allowed slack call := by
  induction calls with
  | nil => exact ⟨0, nofun⟩
  | cons call calls ih =>
    obtain ⟨slack, within⟩ := ih fun duration mem => steady duration (List.mem_cons_of_mem _ mem)
    have first : ∃ least, Allowed least call := by
      cases call with
      | jitter seed most => exact ⟨most, .inr ⟨seed, most, rfl, Nat.le_refl _⟩⟩
      | shortenNextLow duration => exact absurd List.mem_cons_self (steady duration)
      | _ => exact ⟨0, .inl rfl⟩
    obtain ⟨least, allowed⟩ := first
    refine ⟨max least slack, ?_⟩
    intro other mem
    rcases List.mem_cons.mp mem with rfl | mem
    · exact allowed.mono (Nat.le_max_left _ _)
    · exact (within other mem).mono (Nat.le_max_right _ _)

end Program

namespace Transaction

theorem moves_calls (timing : ControllerTiming) (transactions : List Transaction) :
    (transactions.map call).flatMap (Call.moves timing) =
      transactions.flatMap fun transaction => transaction.call.moves timing := by
  rw [List.flatMap_map]

end Transaction

structure Checker.Closed (checker : Checker Simulation) (got : Yield) : Prop where
  closed : checker.run.1 = .closed
  stopped : checker.run.2.protocol.phase = .stopped
  finished : checker.run.2.probe.bus.isFinished = true
  talk : checker.run.2.talk = got.events
  reads : checker.run.2.probe.bus.readBits = got.reads.reverse
  acks : checker.run.2.probe.bus.ackBits = got.acks.reverse

namespace Scenario

variable {timing : ControllerTiming} {calls : List Call} {config : Config} {cycle : Nat}
  {checker : Checker Simulation} {transactions : List Transaction}

def checker? [RandomSource] (timing : ControllerTiming) (calls : List Call) (config : Config)
    (cycle : Nat) : Option (Checker Simulation) :=
  (Program.ofCalls? timing calls).toOption.bind fun program =>
    (Simulation.ofProgram config.clock config.data program).toOption.bind fun bus =>
      (Checker.ofConfig config (bus.withCycle cycle)).toOption

/-- After start-up, so many turns take the run to its end in time and range. -/
def endsInTime (n : Nat) (checker : Checker Simulation) : Bool :=
  match checker.startUp with
  | .fail .. => false
  | .ok _ ready =>
    match ready.turns n with
    | .ok _ => false
    | .error (error, last) =>
      decide (last.now < Time.half) && decide (last.probe.bus.resumeAt < Time.half) &&
        decide (error ≠ .overflow .add)

theorem inTime_of_turns {n : Nat} (h : endsInTime n checker = true) :
    checker.run.2.InTime ∧ checker.run.1 ≠ .overflow .add := by
  unfold endsInTime at h
  split at h
  case h_1 => cases h
  case h_2 ready started =>
    split at h
    case h_1 => cases h
    case h_2 error last ended =>
      rw [Checker.run_of_startUp started, Checker.watch_of_turns ended]
      rw [Bool.and_eq_true, Bool.and_eq_true] at h
      exact ⟨⟨of_decide_eq_true h.1.1, of_decide_eq_true h.1.2⟩, of_decide_eq_true h.2⟩

/-- A scenario that is set up and gone through by evaluation. -/
theorem exists_of_turns [RandomSource] (check : timing.check = .ok ())
    (steady : ∀ duration, .shortenNextLow duration ∉ calls) {n : Nat}
    (ended : (checker? timing calls config cycle).any (endsInTime n) = true) :
    ∃ checker, Scenario timing calls config cycle checker := by
  unfold checker? at ended
  obtain ⟨checker, made, ends⟩ := (Option.any_eq_true _ _).mp ended
  obtain ⟨program, laidOut, made⟩ := Option.bind_eq_some_iff.mp made
  obtain ⟨bus, built, accepted⟩ := Option.bind_eq_some_iff.mp made
  obtain ⟨inTime, inRange⟩ := inTime_of_turns ends
  exact ⟨checker, check, steady, ⟨program, bus, eq_ok_of_toOption laidOut,
    eq_ok_of_toOption built, eq_ok_of_toOption accepted⟩, inTime, inRange⟩

theorem closed [RandomSource] (scenario : Scenario timing calls config cycle checker) {setting : Setting}
    (played : setting.timing = timing) (within : ∀ call ∈ calls, Program.Allowed setting.slack call)
    (plays : Call.Plays calls config.settleTime transactions)
    (held : setting.faultless →
      config.speedClass? = some setting.speed ∧ config.expectedSpeed = none)
    (agreed : setting.faultless → ∀ ack ∈ config.ackSequence, ack = true) :
    checker.Closed
        (Transaction.yields ⟨config.ackSequence, config.txData⟩ 0 0 transactions) ∧
      (setting.faultless → checker.run.2.Clean) := by
  subst played
  obtain ⟨program, bus, laidOut, built, accepted⟩ := scenario.built
  obtain ⟨idle, settled, plain⟩ := plays.calls
  have paced := Program.paced_ofCalls setting.early within
  rw [plain, List.flatMap_cons, Transaction.moves_calls] at paced
  obtain ⟨rfl, fits⟩ := (Program.ofCalls?_eq_ok_iff setting.timing calls).mp laidOut
  obtain ⟨ready, stage, core, started, idle, left⟩ :=
    Setting.idle_of_fresh (Checker.fresh_of_ofConfig built accepted) paced
      (List.all_eq_true.mpr fits) settled scenario.inTime scenario.inRange held
  have left : core.responses = Responses.after ⟨config.ackSequence, config.txData⟩ 0 0 := left
  obtain ⟨after, stage', core', watch, last⟩ := idle.transactions transactions plays.proper left
    (fun faultless => Responses.ackAt_of_all (agreed faultless))
  obtain ⟨stopped, watch', phase, finished, talk, reads, acks, clean⟩ := last.close
  have run := Checker.run_of_startUp started
  rw [watch, watch'] at run
  rw [Yield.empty_append] at talk reads acks
  have told : (stopped.note (.ended .closed stopped.now)).findings = stopped.findings :=
    Journal.findings_cons_of_none rfl _
  refine ⟨⟨?_, ?_, ?_, ?_, ?_, ?_⟩, ?_⟩ <;> rw [run]
  · exact phase
  · exact finished
  · unfold Checker.talk
    rw [told]
    exact talk
  · exact reads
  · exact acks
  · intro faultless
    unfold Checker.Clean
    rw [told]
    exact clean faultless

/-- Every byte that is written is received, and acknowledged or refused as the script says. -/
theorem talk_of_writes [RandomSource] (scenario : Scenario timing calls config cycle checker)
    (startHold : 1 ≤ timing.startHold) (stopSetup : 1 ≤ timing.stopSetup)
    (busFree : 1 ≤ timing.busFree) {writes : List (UInt8 × List UInt8)}
    (plays : Call.Plays calls config.settleTime
      (writes.map fun write => .write write.1 write.2)) :
    checker.run.1 = .closed ∧ checker.run.2.protocol.phase = .stopped ∧
      checker.run.2.probe.bus.isFinished = true ∧
      checker.run.2.talk = Transaction.talks ⟨config.ackSequence, config.txData⟩ 0
        (writes.map fun write => .write write.1 write.2) ∧
      checker.run.2.talk.filterMap Event.decision? = checker.run.2.probe.bus.acks ∧
      checker.run.2.probe.bus.acks =
        (List.range (writes.map fun write => write.2.length + 1).sum).map
          fun k => config.ackSequence.getD k true := by
  obtain ⟨slack, within⟩ := Program.exists_slack scenario.steady
  obtain ⟨early, clockHigh⟩ := ControllerTiming.check_eq_ok_iff.mp scenario.check
  obtain ⟨closed, -⟩ := @closed timing calls config cycle checker _ _ scenario
    ⟨timing, slack, .standard, False, early, clockHigh, startHold, stopSetup, busFree, nofun⟩ rfl
    within plays nofun nofun
  have talk := closed.talk
  rw [Transaction.events_yields] at talk
  have acks : checker.run.2.probe.bus.acks =
      (List.range (writes.map fun write => write.2.length + 1).sum).map
        fun k => config.ackSequence.getD k true := by
    unfold Simulation.acks
    rw [closed.acks, List.reverse_reverse, Transaction.acks_yields, List.map_map,
      ← List.range_eq_range']
    rfl
  refine ⟨closed.closed, closed.stopped, closed.finished, talk, ?_, acks⟩
  rw [acks, talk, Transaction.decisions_talks, List.map_map, ← List.range_eq_range']
  rfl

/-- Two jittered writes under a stretched clock, the second byte refused. -/
theorem talk_of_two_writes :
    ∃ checker, Scenario .fast
        [.jitter 7 60, .idle 1000, .writeTransaction 0x50 [0xa5], .writeTransaction 0xd1 []]
        { clock := 2, data := 3, ackSequence := [true, false], clockStretch := 3000 } 1000 checker ∧
      checker.run.1 = .closed ∧
      checker.run.2.talk =
        [.startBit, .byteReceived 0xa0, .transactionStarted .write 0x50, .sendingAck,
          .byteReceived 0xa5, .sendingNack, .stopBit, .startBit, .byteReceived 0xa2,
          .transactionStarted .write 0x51, .sendingAck, .stopBit] ∧
      checker.run.2.probe.bus.acks = [true, false, true] := by
  obtain ⟨checker, scenario⟩ := @exists_of_turns .fast
    [.jitter 7 60, .idle 1000, .writeTransaction 0x50 [0xa5], .writeTransaction 0xd1 []]
    { clock := 2, data := 3, ackSequence := [true, false], clockStretch := 3000 } 1000 _ rfl
    (by simp) 1000 (by decide +kernel)
  obtain ⟨closed, -, -, talk, -, acks⟩ := @talk_of_writes .fast _ _ _ checker _ scenario
    (by decide) (by decide) (by decide) [(0x50, [0xa5]), (0xd1, [])]
    ⟨by decide, 1000, by decide, rfl⟩
  exact ⟨checker, scenario, closed, talk, acks⟩

/-- The bytes that are read are the scripted ones, over all transactions. -/
theorem bytesRead_of_reads [RandomSource] (scenario : Scenario timing calls config cycle checker)
    (startHold : 1 ≤ timing.startHold) (stopSetup : 1 ≤ timing.stopSetup)
    (busFree : 1 ≤ timing.busFree) {reads : List (UInt8 × Nat)}
    (plays : Call.Plays calls config.settleTime
      (reads.map fun read => .read read.1 read.2)) :
    checker.run.1 = .closed ∧
      checker.run.2.probe.bus.bytesRead =
        (List.range (reads.map fun read => read.2).sum).map
          (fun k => config.txData.getD k 0xab) ∧
      checker.run.2.talk = Transaction.talks ⟨config.ackSequence, config.txData⟩ 0
        (reads.map fun read => .read read.1 read.2) := by
  obtain ⟨slack, within⟩ := Program.exists_slack scenario.steady
  obtain ⟨early, clockHigh⟩ := ControllerTiming.check_eq_ok_iff.mp scenario.check
  obtain ⟨closed, -⟩ := @closed timing calls config cycle checker _ _ scenario
    ⟨timing, slack, .standard, False, early, clockHigh, startHold, stopSetup, busFree, nofun⟩ rfl
    within plays nofun nofun
  have talk := closed.talk
  rw [Transaction.events_yields] at talk
  refine ⟨closed.closed, ?_, talk⟩
  unfold Simulation.bytesRead
  rw [closed.reads, List.reverse_reverse, Transaction.reads_yields, Move.bytesOfBits_bitsOf,
    List.map_map, ← List.range_eq_range']
  rfl

/-- Two bytes of which one is scripted, in two transactions, the second of them jittered. -/
theorem bytesRead_of_two_reads :
    ∃ checker, Scenario .standard
        [.idle 200, .readTransaction 0x21 1, .jitter 300 250, .readTransaction 0x21 1]
        { clock := 0, data := 1, txData := [0x5a], ackSequence := [false] } 10 checker ∧
      checker.run.1 = .closed ∧ checker.run.2.probe.bus.bytesRead = [0x5a, 0xab] ∧
      checker.run.2.talk =
        [.startBit, .byteReceived 0x43, .transactionStarted .read 0x21, .sendingNack, .byteSent,
          .peerNack, .waitingForStop, .stopBit, .startBit, .byteReceived 0x43,
          .transactionStarted .read 0x21, .sendingAck, .byteSent, .peerNack, .waitingForStop,
          .stopBit] := by
  obtain ⟨checker, scenario⟩ := @exists_of_turns .standard
    [.idle 200, .readTransaction 0x21 1, .jitter 300 250, .readTransaction 0x21 1]
    { clock := 0, data := 1, txData := [0x5a], ackSequence := [false] } 10 _ rfl
    (by simp) 1000 (by decide +kernel)
  obtain ⟨closed, read, talk⟩ := @bytesRead_of_reads .standard _ _ _ checker _ scenario
    (by decide) (by decide) (by decide) [(0x21, 1), (0x21, 1)] ⟨by decide, 200, by decide, rfl⟩
  exact ⟨checker, scenario, closed, read, talk⟩

/-- A controller that keeps to the limits is never complained of. -/
theorem no_violation_of_keeps [RandomSource] (scenario : Scenario timing calls config cycle checker)
    (speed : SpeedClass) {slack : Nat} (keeps : timing.Keeps slack speed.limits)
    (jitter : ∀ seed most, .jitter seed most ∈ calls → most ≤ slack)
    (nominal : config.nominalSpeed = some speed.kbps) (unjudged : config.expectedSpeed = none)
    (agreed : ∀ ack ∈ config.ackSequence, ack = true)
    (plays : Call.Plays calls config.settleTime transactions) :
    ∀ record ∈ checker.run.2.probe.journal.pushed, record.violation? = none := by
  obtain ⟨early, clockHigh⟩ := ControllerTiming.check_eq_ok_iff.mp scenario.check
  have positive : 0 < speed.limits.startHoldMin ∧ 0 < speed.limits.stopSetupMin ∧
      0 < speed.limits.busFreeMin := by
    cases speed <;> decide
  have startHold := Nat.lt_of_lt_of_le positive.1 keeps.startHold
  have stopSetup := Nat.lt_of_lt_of_le positive.2.1 keeps.stopSetup
  have busFree := Nat.lt_of_lt_of_le positive.2.2 keeps.busFree
  have within : ∀ call ∈ calls, Program.Allowed slack call := by
    intro call mem
    cases call with
    | jitter seed most => exact .inr ⟨seed, most, rfl, jitter seed most mem⟩
    | shortenNextLow duration => exact absurd mem (scenario.steady duration)
    | _ => exact .inl rfl
  obtain ⟨-, clean⟩ := @closed timing calls config cycle checker _ _ scenario
    ⟨timing, slack, speed, True, early, clockHigh, startHold, stopSetup, busFree, fun _ => keeps⟩
    rfl within plays (fun _ => ⟨by simp [Config.speedClass?, nominal], unjudged⟩) (fun _ => agreed)
  intro record mem
  cases finding : record.finding with
  | event event => simp [Record.violation?, finding]
  | violation broken =>
    refine absurd ?_ (clean trivial broken)
    unfold Checker.findings Journal.findings
    rw [← finding]
    exact List.mem_map_of_mem (List.mem_reverse.mpr mem)

/-- A jittered write and read by a controller at the limits of the fast class, under a stretched
clock. -/
theorem no_violation_at_fast_limits :
    ∃ checker, Scenario ⟨1300, 900, 300, 600, 600, 600, 1300⟩
        [.jitter 7 600, .idle 200, .writeTransaction 0x50 [0xa5], .readTransaction 0x50 1]
        { clock := 2, data := 3, nominalSpeed := some 400, clockStretch := 2000 } 1000 checker ∧
      ∀ record ∈ checker.run.2.probe.journal.pushed, record.violation? = none := by
  obtain ⟨checker, scenario⟩ := @exists_of_turns ⟨1300, 900, 300, 600, 600, 600, 1300⟩
    [.jitter 7 600, .idle 200, .writeTransaction 0x50 [0xa5], .readTransaction 0x50 1]
    { clock := 2, data := 3, nominalSpeed := some 400, clockStretch := 2000 } 1000 _ rfl
    (by simp) 1000 (by decide +kernel)
  have keeps : ControllerTiming.Keeps ⟨1300, 900, 300, 600, 600, 600, 1300⟩ 600
      SpeedClass.fast.limits :=
    ⟨by decide, by decide, by decide, by decide, by decide, by decide, by decide,
      fun most known => by cases known; decide⟩
  have plays : Call.Plays
      [.jitter 7 600, .idle 200, .writeTransaction 0x50 [0xa5], .readTransaction 0x50 1] 100
      [.write 0x50 [0xa5], .read 0x50 1] :=
    ⟨by decide, 200, by decide, rfl⟩
  exact ⟨checker, scenario, no_violation_of_keeps scenario .fast keeps (by simp) rfl rfl (by simp)
    plays⟩

end Scenario
end TwoWire
