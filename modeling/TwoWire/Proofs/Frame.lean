import TwoWire.Proofs.Transaction

/-! Transactions on the bus. A start takes an idle bus to the first pulse and a stop brings it back;
in between, the row of pulses does what the protocol makes of it. -/

namespace TwoWire

/-- The shortest time between a stop and a start leaves room for what else a start asks for. -/
theorem SpeedClass.le_busFreeMin (speed : SpeedClass) :
    speed.limits.startSetupMin ≤ speed.limits.busFreeMin ∧
      speed.limits.clockHighMin ≤ speed.limits.busFreeMin := by
  cases speed <;> decide

theorem Stage.data_of_driven {stage : Stage} {level : Bool} (driven : stage.dataPeer = some level) :
    stage.data = level := by
  simp [data, driven]

theorem Stage.data_of_free {stage : Stage} (free : stage.dataPeer = none) :
    stage.data = stage.weakData := by
  simp [data, free]

theorem Stage.resumed_of_done {stage : Stage} (paused : stage.Paused)
    (done : stage.program = []) : stage.resumed = stage.moveTo stage.resumeAt := by
  have running := paused.running
  cases stage
  simp_all [Stage.resumed, Stage.due, Stage.run, Stage.wake, Stage.moveTo]

namespace Setting

/-- The bus is idle and the program, in a delay, is about to go on with `moves`. -/
structure Idle (setting : Setting) (checker : Checker Simulation) (stage : Stage) (core : Protocol)
    (got : Yield) (moves : List Move) : Prop extends Up setting checker stage core got.events where
  stopped : core.phase = .stopped
  peer : stage.dataPeer = none
  weak : stage.weakData = true
  paced : Paced setting.timing setting.slack moves stage.program
  reads : stage.readBits = got.reads.reverse
  acks : stage.ackBits = got.acks.reverse
  since : setting.faultless → ∀ start, checker.probe.detector.clock.changedAt = some start ∨
    checker.probe.detector.data.changedAt = some start →
      start + setting.speed.limits.busFreeMin ≤ stage.resumeAt

variable {setting : Setting} {checker : Checker Simulation} {stage : Stage} {core : Protocol}
  {got : Yield} {moves : List Move}

theorem Up.move {told : List Event} (up : setting.Up checker stage core told) {level : Option Bool}
    {delay : Nat} (positive : 0 < delay) {rest : List Step}
    (program : stage.program = .drive .data level :: .delay delay :: rest)
    (moved : (stage.placed level delay rest).data ≠ stage.data) :
    ∃ after, checker.Passed after ∧ after.probe.bus.stage = stage.placed level delay rest := by
  have resumed := Stage.resumed_of_set up.paused positive program
  obtain ⟨after, passed, place⟩ := up.quiet.advance up.underway up.free up.paused (by
    rw [resumed]
    exact fun same => moved (congrArg Prod.snd same))
  exact ⟨after, passed, place.trans resumed⟩

theorem Up.turned {told told' : List Event} {core' : Protocol}
    (up : setting.Up checker stage core told) {before after : Checker Simulation}
    (passed : checker.Passed before) {level : Option Bool} {delay : Nat} (positive : 0 < delay)
    {rest : List Step} {seen : Bool} (same : (stage.placed level delay rest).data = seen)
    (turned : setting.Turned before core' told' (stage.placed level delay rest)
      { before.probe.detector with
        data := before.probe.detector.data.commit seen stage.resumeAt } after) :
    setting.Up after (stage.placed level delay rest) core' told' := by
  have paused := Stage.paused_placed up.paused.running positive level rest
  refine ⟨turned.account, ?_, paused, up.free, up.released⟩
  apply Checker.quiet_of_stage turned.stage (Stage.due_of_paused paused)
  · rw [turned.detector, passed.detector]
    exact up.quiet.clock
  · rw [turned.detector]
    exact same.symm

theorem Up.clock {told : List Event} (up : setting.Up checker stage core told) :
    stage.clock = true := by
  simp [Stage.clock, up.released, up.free]

theorem Idle.start
    (idle : setting.Idle checker stage core got (Move.start setting.timing ++ moves)) :
    ∃ after stage', checker.watch = after.watch ∧
      setting.Beating after stage' core.begun (got ++ ⟨[.startBit], [], []⟩) moves := by
  obtain ⟨others, program, paced⟩ := idle.paced.of_act
  obtain ⟨delay, rest, fits, rfl, paced'⟩ := paced.of_pause setting.startHold
  have positive := Nat.lt_of_lt_of_le setting.startHold fits.least
  have high : stage.data = true := (Stage.data_of_free idle.peer).trans idle.weak
  have low : (stage.placed (some false) delay rest).data = false := Stage.data_of_driven rfl
  obtain ⟨before, passed, place⟩ := idle.toUp.move positive program (by rw [low, high]; decide)
  have account := idle.toAccount.passed passed
  have detector := passed.detector
  obtain ⟨startSetup, clockHigh⟩ := setting.speed.le_busFreeMin
  obtain ⟨after, turned⟩ := account.start place idle.stopped idle.clock
    (by rw [detector, idle.quiet.clock, idle.clock]) low
    (by rw [detector, idle.quiet.data, high])
    (fun faultless start known => by
      rw [detector] at known
      have : _ ≤ stage.resumeAt := idle.since faultless start (.inl known)
      change _ ≤ stage.resumeAt
      omega)
    (fun faultless start known => by
      rw [detector] at known
      exact idle.since faultless start (.inr known))
  have up := idle.toUp.turned passed positive low turned
  refine ⟨after, _, passed.watch.trans turned.watch, up, rfl, paced', ?_, ?_, ?_, ?_⟩
  · rw [Yield.reads_append, List.append_nil]
    exact idle.reads
  · rw [Yield.acks_append, List.append_nil]
    exact idle.acks
  · intro faultless start known
    rw [turned.detector, detector] at known
    have : _ ≤ stage.resumeAt := idle.since faultless start (.inl known)
    change _ ≤ stage.resumeAt + delay
    omega
  · intro faultless _ start known
    rw [turned.detector] at known
    cases known
    have := (setting.keeps faultless).startHold
    have := fits.least
    change stage.resumeAt + _ ≤ stage.resumeAt + delay
    omega

theorem Beating.stop (beating : setting.Beating checker stage core got
      (Move.stop setting.timing ++ moves)) (begun : core.phase ≠ .byteDone)
    (first : core.shifter.bits = 0) (free : core.shifter.outgoing = none) :
    ∃ after stage' core', checker.watch = after.watch ∧
      setting.Idle after stage' core' (got ++ ⟨[.stopBit], [], []⟩) moves ∧
      core'.responses = core.responses := by
  have wanted : core.wanted = true := by
    simp [Protocol.wanted, begun, Shifter.outgoingLevel, Shifter.outgoingBit?, free]
  obtain ⟨pulse, yield, bits⟩ := Protocol.pulse_open ⟨beating.high, begun⟩ (by omega) (some false)
    .nothing
  obtain ⟨high, stage', watch, up, paced, reads, acks, peer, weak, since⟩ :=
    @Beating.beat setting checker stage core got (Move.letGo .data ::
      .pause setting.timing.busFree :: moves) (some false) .nothing setting.timing.stopSetup beating
      setting.stopSetup (fun _ => .inr (by omega)) (fun _ done => absurd done begun)
  have silent : core.pulseYield ⟨some false, .nothing⟩ = {} := yield
  rw [silent, Yield.append_empty] at up reads acks
  have bits' : (core.pulse ⟨some false, .nothing⟩).shifter.bits = 1 := by
    rw [pulse]
    exact bits.trans (by omega)
  have sampled : (core.pulse ⟨some false, .nothing⟩).phase = .sampleBit := by rw [pulse]
  obtain ⟨others, program, paced'⟩ := paced.of_act
  obtain ⟨delay, rest, fits, rfl, paced''⟩ := paced'.of_pause setting.busFree
  have positive := Nat.lt_of_lt_of_le setting.busFree fits.least
  have low : stage'.data = false := Stage.data_of_driven peer
  have rose : (stage'.placed none delay rest).data = true :=
    (Stage.data_of_free rfl).trans (weak.trans wanted)
  obtain ⟨before, passed, place⟩ := up.move positive program (by rw [low, rose]; decide)
  have account := up.toAccount.passed passed
  have detector := passed.detector
  obtain ⟨after, turned⟩ := account.stop place sampled bits' up.clock
    (by rw [detector, up.quiet.clock, up.clock]) rose
    (by rw [detector, up.quiet.data, low])
    (fun faultless start known => by
      rw [detector] at known
      have : start + _ ≤ stage'.resumeAt := since start known
      have := (setting.keeps faultless).stopSetup
      change _ ≤ stage'.resumeAt
      omega)
  have up' := up.turned passed positive rose turned
  refine ⟨after, _, _, watch.trans (passed.watch.trans turned.watch),
    ⟨up', rfl, rfl, weak.trans wanted, paced'', ?_, ?_, ?_⟩, by rw [pulse]; rfl⟩
  · rw [Yield.reads_append, List.append_nil]
    exact reads
  · rw [Yield.acks_append, List.append_nil]
    exact acks
  · intro faultless start known
    have := (setting.keeps faultless).busFree
    have := fits.least
    have earlier : start ≤ stage'.resumeAt := by
      rw [turned.detector, detector] at known
      rcases known with clock | data
      · have := since start clock
        omega
      · cases data
        exact Nat.le_refl _
    change start + _ ≤ stage'.resumeAt + delay
    omega

variable {responses : Responses} {k m : Nat}

theorem Idle.transaction (transaction : Transaction) (proper : transaction.Proper)
    (idle : setting.Idle checker stage core got (transaction.call.moves setting.timing ++ moves))
    (left : core.responses = responses.after k m)
    (agreed : setting.faultless → ∀ i, responses.ackAt i = true) :
    ∃ after stage' core', checker.watch = after.watch ∧
      setting.Idle after stage' core' (got ++ transaction.yield responses k m) moves ∧
      core'.responses =
        responses.after (k + transaction.ackCount) (m + transaction.byteCount) := by
  rw [transaction.moves_call, List.append_assoc, List.append_assoc] at idle
  obtain ⟨begun, stage₁, watch, beating⟩ := idle.start
  have awaits : core.begun.Awaits .sink (responses.after k m) 0 := ⟨.of_begun core, rfl, left, rfl⟩
  obtain ⟨⟨shifter, count, kind, awaits'⟩, yield, undisturbed⟩ :=
    Protocol.served_transaction transaction proper awaits
  obtain ⟨filled, stage₂, watch', beating'⟩ := beating.pulses transaction.pulses
    (fun faultless => undisturbed (agreed faultless) rfl)
  have first : (core.begun.pulses transaction.pulses).shifter.bits = 0 := by
    rw [awaits'.shifter]
    rcases kind with rfl | rfl <;> rfl
  have free : (core.begun.pulses transaction.pulses).shifter.outgoing = none := by
    rw [awaits'.shifter]
    rcases kind with rfl | rfl <;> rfl
  obtain ⟨after, stage₃, core', watch'', idle', kept⟩ := beating'.stop awaits'.begun first free
  refine ⟨after, stage₃, core', watch.trans (watch'.trans watch''), ?_,
    kept.trans awaits'.responses⟩
  have total : got ++ ⟨[.startBit], [], []⟩ ++ core.begun.yield transaction.pulses ++
      ⟨[.stopBit], [], []⟩ = got ++ transaction.yield responses k m := by
    rw [yield, Yield.append_assoc, Yield.append_assoc]
    simp [Transaction.yield, Transaction.talk]
  rw [← total]
  exact idle'

theorem Idle.transactions (transactions : List Transaction)
    (proper : ∀ transaction ∈ transactions, transaction.Proper)
    (idle : setting.Idle checker stage core got
      (transactions.flatMap fun transaction => transaction.call.moves setting.timing))
    (left : core.responses = responses.after k m)
    (agreed : setting.faultless → ∀ i, responses.ackAt i = true) :
    ∃ after stage' core', checker.watch = after.watch ∧
      setting.Idle after stage' core' (got ++ Transaction.yields responses k m transactions)
        [] := by
  induction transactions generalizing checker stage core got k m with
  | nil =>
    refine ⟨checker, stage, core, rfl, ?_⟩
    rw [Transaction.yields, Yield.append_empty]
    exact idle
  | cons transaction rest ih =>
    obtain ⟨next, stage₁, core₁, watch, idle', left'⟩ :=
      idle.transaction transaction (proper transaction List.mem_cons_self) left agreed
    obtain ⟨after, stage₂, core₂, watch', last⟩ :=
      ih (fun other mem => proper other (List.mem_cons_of_mem _ mem)) idle' left'
    rw [Yield.append_assoc] at last
    exact ⟨after, stage₂, core₂, watch.trans watch', last⟩

theorem Idle.close (idle : setting.Idle checker stage core got []) :
    ∃ last : Checker Simulation, checker.watch = (.closed, last) ∧
      last.protocol.phase = .stopped ∧ last.probe.bus.isFinished = true ∧
      last.talk = got.events ∧ last.probe.bus.readBits = got.reads.reverse ∧
      last.probe.bus.ackBits = got.acks.reverse ∧ (setting.faultless → last.Clean) := by
  have done : stage.program = [] := idle.paced.of_nil
  have resumed := Stage.resumed_of_done idle.paused done
  have running := idle.paused.running
  obtain ⟨last, watch, place, protocol, findings⟩ := idle.quiet.close idle.underway idle.free
    idle.paused (by rw [resumed]; rfl) (by rw [resumed]; exact running)
    (by rw [resumed]; exact Nat.le_refl _) (by rw [resumed]; exact done)
  rw [resumed] at place
  refine ⟨last, watch, ?_, ?_, ?_, ?_, ?_, ?_⟩
  · rw [protocol, idle.phase, idle.stopped]
  · have program : last.probe.bus.program = [] := (congrArg Stage.program place).trans done
    have waiting : last.probe.bus.waiting = false := (congrArg Stage.waiting place).trans running
    have now : last.probe.bus.now = stage.resumeAt := congrArg Stage.now place
    have resumeAt : last.probe.bus.resumeAt = stage.resumeAt := congrArg Stage.resumeAt place
    simp [Simulation.isFinished, program, waiting, now, resumeAt]
  · unfold Checker.talk
    rw [findings]
    exact idle.told
  · exact (congrArg Stage.readBits place).trans idle.reads
  · exact (congrArg Stage.ackBits place).trans idle.acks
  · intro faultless
    unfold Checker.Clean
    rw [findings]
    exact idle.clean faultless

end Setting
end TwoWire
