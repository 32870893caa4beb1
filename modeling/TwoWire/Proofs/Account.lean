import TwoWire.Proofs.Clocked
import TwoWire.Proofs.Elapse

/-! A run and what it has reported: the edges of a clock pulse and of the two conditions take one
account of the core and the talk to the next. -/

namespace TwoWire

/-- The intervals of a controller, with delays lengthened by `slack` at most, are within limits. -/
structure ControllerTiming.Keeps (timing : ControllerTiming) (slack : Nat) (limits : Limits) :
    Prop where
  dataDelay : 1 ≤ timing.dataDelay
  clockLow : limits.clockLowMin ≤ timing.clockLow
  clockHigh : limits.clockHighMin ≤ timing.clockHigh
  dataSetup : limits.dataSetupMin ≤ timing.clockLow - timing.dataDelay
  startHold : limits.startHoldMin ≤ timing.startHold
  stopSetup : limits.stopSetupMin ≤ timing.stopSetup
  busFree : limits.busFreeMin ≤ timing.busFree
  dataValid : ∀ most, limits.dataValidMax = some most → timing.dataDelay + slack ≤ most

structure Setting where
  timing : ControllerTiming
  slack : Nat
  speed : SpeedClass
  /-- The controller keeps to the limits of the class that it is held to. -/
  faultless : Prop
  early : timing.dataDelay < timing.clockLow
  clockHigh : 0 < timing.clockHigh
  startHold : 0 < timing.startHold
  stopSetup : 0 < timing.stopSetup
  busFree : 0 < timing.busFree
  keeps : faultless → timing.Keeps slack speed.limits

namespace Checker

/-- The events so far but for the speeds, oldest first. -/
def talk (checker : Checker Simulation) : List Event :=
  checker.findings.filterMap Finding.spoken?

def Clean (checker : Checker Simulation) : Prop :=
  ∀ broken, .violation broken ∉ checker.findings

end Checker

namespace Protocol

/-- The intervals of a class are judged, and the speed is not. -/
structure HeldTo (protocol : Protocol) (speed : SpeedClass) : Prop where
  speed : protocol.speed = some speed
  unjudged : protocol.expectedSpeed = none

variable {protocol : Protocol} {speed : SpeedClass}

theorem HeldTo.fall (held : protocol.HeldTo speed) : protocol.fall.HeldTo speed := by
  unfold Protocol.fall
  split
  · split <;> exact ⟨held.speed, held.unjudged⟩
  · exact ⟨held.speed, held.unjudged⟩

theorem HeldTo.byteReceived (held : protocol.HeldTo speed) (byte : UInt8) :
    (protocol.byteReceived byte).HeldTo speed := by
  unfold Protocol.byteReceived command
  dsimp only
  split
  · split <;> exact ⟨held.speed, held.unjudged⟩
  · exact ⟨held.speed, held.unjudged⟩

theorem HeldTo.rise (held : protocol.HeldTo speed) (level : Bool) :
    (protocol.rise level).HeldTo speed := by
  unfold Protocol.rise
  dsimp only
  split
  · split
    · split
      · have received : ∀ (other : Protocol) (byte : UInt8), other.HeldTo speed →
            ({ other.byteReceived byte with phase := .byteDone } : Protocol).HeldTo speed := by
          intro other byte held
          exact ⟨(held.byteReceived byte).speed, (held.byteReceived byte).unjudged⟩
        exact received _ _ ⟨held.speed, held.unjudged⟩
      · exact ⟨held.speed, held.unjudged⟩
    · exact ⟨held.speed, held.unjudged⟩
  · unfold endByte peerAnswered
    dsimp only
    split
    · exact ⟨held.speed, held.unjudged⟩
    · split <;> exact ⟨held.speed, held.unjudged⟩

theorem HeldTo.of_core (held : protocol.core.HeldTo speed) : protocol.HeldTo speed :=
  ⟨held.speed, held.unjudged⟩

end Protocol

namespace Setting

structure Account (setting : Setting) (checker : Checker Simulation) (core : Protocol)
    (told : List Event) : Prop where
  underway : checker.Underway
  protocol : checker.protocol.core = core
  told : checker.talk = told
  clean : setting.faultless → checker.Clean
  held : setting.faultless → core.HeldTo setting.speed

structure Turned (setting : Setting) (before : Checker Simulation) (core : Protocol)
    (told : List Event) (stage : Stage) (detector : EdgeDetector) (after : Checker Simulation) :
    Prop where
  watch : before.watch = after.watch
  account : setting.Account after core told
  stage : after.probe.bus.stage = stage
  detector : after.probe.detector = detector

variable {setting : Setting} {checker : Checker Simulation} {core : Protocol} {told : List Event}
  {stage : Stage}

theorem Account.passed (account : setting.Account checker core told) {after : Checker Simulation}
    (passed : checker.Passed after) : setting.Account after core told where
  underway := passed.underway
  protocol := by rw [passed.protocol, account.protocol]
  told := by
    unfold Checker.talk
    rw [passed.findings]
    exact account.told
  clean faultless := by
    unfold Checker.Clean
    rw [passed.findings]
    exact account.clean faultless
  held := account.held

theorem Account.meet (account : setting.Account checker core told) {edge : Edge}
    {next : Protocol} {said : List Event}
    (seen : checker.probe.detector.edge? checker.probe.lines checker.probe.sight = some edge)
    (protocol : (checker.answerTo edge).protocol.core = next)
    (talk : Note.talk (checker.answerTo edge).notes = said)
    (clean : setting.faultless → Note.Clean (checker.answerTo edge).notes)
    (held : setting.faultless → next.HeldTo setting.speed) :
    ∃ after, checker.Met edge after ∧ setting.Account after next (told ++ said) := by
  obtain ⟨after, met⟩ := account.underway.meet seen
  refine ⟨after, met, met.underway, ?_, ?_, ?_, held⟩
  · rw [met.protocol, protocol]
  · unfold Checker.talk
    rw [met.findings, List.filterMap_append]
    exact congr (congrArg _ account.told) talk
  · intro faultless broken
    rw [met.findings]
    intro h
    rcases List.mem_append.mp h with before | answered
    · exact account.clean faultless broken before
    · exact Note.not_mem_findings (clean faultless) broken answered

theorem Account.phase (account : setting.Account checker core told) :
    checker.protocol.phase = core.phase := by rw [← account.protocol, Protocol.phase_core]

theorem Account.heldTo (account : setting.Account checker core told)
    (faultless : setting.faultless) : checker.protocol.HeldTo setting.speed := by
  have held := account.held faultless
  rw [← account.protocol] at held
  exact held.of_core

structure Seen (checker : Checker Simulation) (stage : Stage) (edge : Edge) : Prop where
  now : (checker.probe.seen edge).now = stage.now
  clock : (checker.probe.seen edge).level .clock = stage.clock
  data : (checker.probe.seen edge).level .data = stage.data
  early : (checker.probe.seen edge).now < Time.half
  detector : (checker.probe.seen edge).detector =
    match edge.line with
    | .clock => { checker.probe.detector with
        clock := checker.probe.detector.clock.commit stage.clock stage.now }
    | .data => { checker.probe.detector with
        data := checker.probe.detector.data.commit stage.data stage.now }

theorem Account.seen (account : setting.Account checker core told)
    (place : checker.probe.bus.stage = stage) (edge : Edge) : Seen checker stage edge := by
  obtain ⟨clock, data⟩ := Probe.level_sight account.underway.wired
  have now : checker.probe.sight.now = stage.now := by rw [← place]; rfl
  rw [place] at clock data
  refine ⟨now, clock, data, account.underway.now_lt, ?_⟩
  unfold Probe.seen EdgeDetector.commit
  dsimp only
  cases edge.line with
  | clock => simp only [clock, now]
  | data => simp only [data, now]

theorem Account.weak (account : setting.Account checker core told)
    (place : checker.probe.bus.stage = stage) :
    checker.probe.lines.weakClock = stage.weakClock ∧
      checker.probe.lines.weakData = stage.weakData := by
  rw [← account.underway.wired.weakClock, ← account.underway.wired.weakData, ← place]
  exact ⟨rfl, rfl⟩

theorem Account.still (account : setting.Account checker core told)
    (place : checker.probe.bus.stage = stage) {edge : Edge} {after : Checker Simulation}
    (met : checker.Met edge after) (rises : (checker.probe.seen edge).falls edge = false)
    (drive : (checker.answerTo edge).drive?.getD stage.weakData = stage.weakData) :
    after.probe.bus.stage = stage := by
  obtain ⟨weakClock, weakData⟩ := account.weak place
  rw [met.stage, place, rises, weakClock, weakData, drive]
  simp [Stage.held]

theorem Account.shift (account : setting.Account checker core told)
    (place : checker.probe.bus.stage = stage)
    (clock : checker.probe.detector.clock.level = stage.clock)
    (moved : checker.probe.detector.data.level ≠ stage.data) {phase : Phase} {next : Protocol}
    {said : List Event}
    (successor : checker.protocol.successor (checker.probe.seen .data).detector .data = phase)
    (follow : (checker.protocol.follow (checker.probe.seen .data) phase).protocol.core = next)
    (drive : (checker.protocol.follow (checker.probe.seen .data) phase).drive?.getD
      stage.weakData = stage.weakData)
    (talk : Note.talk (checker.protocol.follow (checker.probe.seen .data) phase).notes = said)
    (clean : setting.faultless →
      Note.Clean (checker.protocol.edgeNotes (checker.probe.seen .data) .data) ∧
        Note.Clean (checker.protocol.follow (checker.probe.seen .data) phase).notes)
    (held : setting.faultless → next.HeldTo setting.speed) :
    ∃ after, setting.Turned checker next (told ++ said) stage
      { checker.probe.detector with
        data := checker.probe.detector.data.commit stage.data stage.now } after := by
  have edge? : checker.probe.detector.edge? checker.probe.lines checker.probe.sight =
      some .data := by
    rw [Checker.edge?_of_levels account.underway.wired, place, clock]
    simp [Ne.symm moved]
  obtain ⟨answer, drive?, notes⟩ := Protocol.answer_data checker.protocol
    (checker.probe.seen .data) checker.probe.stretch.isEnabled
  rw [successor] at answer drive? notes
  have kept : (checker.answerTo .data).protocol.core = next := by
    rw [Checker.answerTo, answer, follow]
  have told' : Note.talk (checker.answerTo .data).notes = said := by
    rw [Checker.answerTo, notes, Note.talk_append, Protocol.talk_edgeNotes, talk]
    rfl
  obtain ⟨after, met, account'⟩ := account.meet edge? kept told'
    (fun faultless => by
      rw [Checker.answerTo, notes]
      exact Note.clean_append (clean faultless).1 (clean faultless).2)
    held
  refine ⟨after, met.watch, account', account.still place met rfl ?_,
    met.detector.trans (account.seen place .data).detector⟩
  rw [Checker.answerTo, drive?, drive]

theorem Account.fall (account : setting.Account checker core told)
    (place : checker.probe.bus.stage = stage) (high : core.phase.isHigh = true)
    (low : stage.clock = false) (committed : checker.probe.detector.clock.level = true)
    (data : setting.faultless → checker.probe.detector.data.level = stage.data)
    (clockHigh : setting.faultless → ∀ start, checker.probe.detector.clock.changedAt = some start →
      start + setting.speed.limits.clockHighMin ≤ stage.now)
    (startHold : setting.faultless → core.phase = .starting →
      ∀ start, checker.probe.detector.data.changedAt = some start →
        start + setting.speed.limits.startHoldMin ≤ stage.now) :
    ∃ after weak, setting.Turned checker core.fall (told ++ core.fallTalk)
      (stage.held weak core.wanted)
      { checker.probe.detector with
        clock := checker.probe.detector.clock.commit false stage.now } after := by
  have phase : checker.protocol.phase.isHigh = true := account.phase ▸ high
  -- The data line may have moved with the clock, if the controller may be at fault.
  generalize known : (if stage.data != checker.probe.detector.data.level then Edge.simultaneous
    else .clock) = edge
  have line : edge.line = .clock := by
    rw [← known]
    split <;> rfl
  have edge? : checker.probe.detector.edge? checker.probe.lines checker.probe.sight =
      some edge := by
    rw [Checker.edge?_of_levels account.underway.wired, place, low, committed, ← known]
    rfl
  have seen := account.seen place edge
  have detector := seen.detector
  rw [line, low] at detector
  obtain ⟨next, drive?, said⟩ := Protocol.answer_fall phase line (checker.probe.seen edge)
    checker.probe.stretch.isEnabled
  rw [account.protocol] at next
  obtain ⟨after, met, account'⟩ := account.meet edge? next said
    (fun faultless => by
      have held := account.heldTo faultless
      have same : edge = .clock := by rw [← known, data faultless]; simp
      subst same
      refine Protocol.clean_answer_fall phase held.speed seen.early (seen.clock.trans low) ?_ ?_ ?_
      · exact congrArg (fun detector => detector.clock.level) detector
      · rw [View.clock, detector, seen.now]
        exact clockHigh faultless
      · rw [View.data, detector, seen.now]
        exact fun start => startHold faultless (account.phase ▸ start))
    (fun faultless => (account.held faultless).fall)
  have wanted : checker.protocol.wanted = core.wanted := by rw [← account.protocol]; rfl
  have talk : checker.protocol.fallTalk = core.fallTalk := by rw [← account.protocol]; rfl
  rw [talk] at account'
  refine ⟨after, checker.probe.lines.weakClock &&
    !((checker.probe.seen edge).falls edge && checker.probe.stretch.isEnabled), met.watch, account',
    ?_, met.detector.trans detector⟩
  rw [met.stage, place, show (checker.answerTo edge).drive? = _ from drive?, wanted]
  rfl

theorem Account.absorb (account : setting.Account checker core told)
    (place : checker.probe.bus.stage = stage) (low : core.phase.isLow = true)
    (steady : core.holds stage.weakData = true) (clock : stage.clock = false)
    (committed : checker.probe.detector.clock.level = false)
    (moved : checker.probe.detector.data.level ≠ stage.data)
    (soon : setting.faultless → ∀ start, checker.probe.detector.clock.changedAt = some start →
      ∀ most, setting.speed.limits.dataValidMax = some most → stage.now ≤ start + most) :
    ∃ after, setting.Turned checker core told stage
      { checker.probe.detector with
        data := checker.probe.detector.data.commit stage.data stage.now } after := by
  have phase : checker.protocol.phase.isLow = true := account.phase ▸ low
  have held : checker.protocol.holds stage.weakData = true := by
    rw [← account.protocol] at steady
    exact steady
  have seen := account.seen place .data
  obtain ⟨kept, same, silent⟩ := Protocol.follow_low phase held (checker.probe.seen .data)
  obtain ⟨after, turned⟩ := account.shift place (committed.trans clock.symm) moved
    (Protocol.successor_of_low phase _).2 (kept.trans account.protocol) same silent
    (fun faultless => by
      have held := account.heldTo faultless
      refine ⟨Protocol.clean_edgeNotes_low held.speed seen.early ?_,
        Protocol.clean_follow_low held.speed seen.early (seen.clock.trans clock) phase⟩
      rw [View.clock, seen.detector, seen.now]
      intro start known
      refine ⟨?_, soon faultless start known⟩
      have past := account.underway.past.clock.changed start known
      rwa [← place])
    account.held
  rw [List.append_nil] at turned
  exact ⟨after, turned⟩

theorem Account.rise (account : setting.Account checker core told)
    (place : checker.probe.bus.stage = stage) (low : core.phase.isLow = true)
    (clock : stage.clock = true) (committed : checker.probe.detector.clock.level = false)
    (data : checker.probe.detector.data.level = stage.data)
    (clockLow : setting.faultless → ∀ start, checker.probe.detector.clock.changedAt = some start →
      start + setting.speed.limits.clockLowMin ≤ stage.now)
    (setup : setting.faultless → ∀ start, checker.probe.detector.data.changedAt = some start →
      start + setting.speed.limits.dataSetupMin ≤ stage.now)
    (quiet : setting.faultless → core.afterNack = false ∨ core.shifter.bits ≠ 1)
    (alone : setting.faultless → core.phase ≠ .driveBit → core.acknowledging = true →
      stage.dataPeer = none) :
    ∃ after, setting.Turned checker (core.rise stage.data) (told ++ core.riseTalk stage.data) stage
      { checker.probe.detector with
        clock := checker.probe.detector.clock.commit true stage.now } after := by
  have phase : checker.protocol.phase.isLow = true := account.phase ▸ low
  have edge? : checker.probe.detector.edge? checker.probe.lines checker.probe.sight =
      some .clock := by
    rw [Checker.edge?_of_levels account.underway.wired, place, clock, committed, data]
    simp
  have seen := account.seen place .clock
  have detector := seen.detector
  rw [clock] at detector
  have rose : (checker.probe.seen .clock).clock.level = true :=
    congrArg (fun detector => detector.clock.level) detector
  obtain ⟨next, drive?, said⟩ := Protocol.answer_rise phase (rfl : Edge.clock.line = .clock) rose
    checker.probe.stretch.isEnabled
  rw [seen.data] at next said
  have talk : checker.protocol.riseTalk stage.data = core.riseTalk stage.data := by
    rw [← account.protocol]
    rfl
  rw [account.protocol] at next
  rw [talk] at said
  obtain ⟨after, met, account'⟩ := account.meet edge? next said
    (fun faultless => by
      have held := account.heldTo faultless
      refine Protocol.clean_answer_rise phase held.speed held.unjudged seen.early rose
        (seen.clock.trans clock) ?_ ?_ ?_ ?_
      · rw [View.clock, detector, seen.now]
        exact clockLow faultless
      · rw [View.data, detector, seen.now]
        exact setup faultless
      · have quiet := quiet faultless
        rw [← account.protocol] at quiet
        exact quiet
      · intro other ours
        have free := alone faultless (account.phase ▸ other)
          (by rw [← account.protocol]; exact ours)
        have peer : (checker.probe.seen .clock).sight.peer .data = none := by
          rw [← place] at free
          exact free
        simp [View.driver, Lines.driver, Lines.reading, peer])
    (fun faultless => (account.held faultless).rise stage.data)
  refine ⟨after, met.watch, account', account.still place met ?_ ?_, met.detector.trans detector⟩
  · simp [View.falls, rose]
  · rw [show (checker.answerTo .clock).drive? = _ from drive?]
    rfl

theorem Account.start (account : setting.Account checker core told)
    (place : checker.probe.bus.stage = stage) (stopped : core.phase = .stopped)
    (clock : stage.clock = true) (committed : checker.probe.detector.clock.level = true)
    (data : stage.data = false) (committed' : checker.probe.detector.data.level = true)
    (setup : setting.faultless → ∀ start, checker.probe.detector.clock.changedAt = some start →
      start + setting.speed.limits.startSetupMin ≤ stage.now)
    (free : setting.faultless → ∀ start, checker.probe.detector.data.changedAt = some start →
      start + setting.speed.limits.busFreeMin ≤ stage.now) :
    ∃ after, setting.Turned checker core.begun (told ++ [.startBit]) stage
      { checker.probe.detector with
        data := checker.probe.detector.data.commit false stage.now } after := by
  have phase := account.phase.trans stopped
  have seen := account.seen place .data
  have detector := seen.detector
  rw [data] at detector
  have moved : checker.probe.detector.data.level ≠ stage.data := by
    rw [committed', data]
    decide
  have successor : checker.protocol.successor (checker.probe.seen .data).detector .data =
      .starting := by
    simp [Protocol.successor, phase, Phase.next]
  have begun : (checker.protocol.follow (checker.probe.seen .data) .starting).protocol.core =
      core.begun := by
    rw [Protocol.core_follow_starting, account.protocol]
  obtain ⟨after, turned⟩ := account.shift place (committed.trans clock.symm) moved successor begun
    (by rw [Protocol.drive?_follow_of_not_drives (by decide)]; rfl)
    (Protocol.talk_follow_starting _ _)
    (fun faultless => by
      have held := account.heldTo faultless
      have high : (checker.probe.seen .data).clock.level = true := by
        rw [View.clock, detector]
        exact committed
      refine ⟨Protocol.clean_edgeNotes_high _ high,
        Protocol.clean_follow_starting held.speed seen.early (seen.clock.trans clock)
          (seen.data.trans data) ?_ ?_⟩
      · rw [View.data, View.clock, detector, seen.now]
        intro stop known
        cases known
        exact ⟨Nat.le_refl _, setup faultless⟩
      · rw [View.data, detector, seen.now]
        exact free faultless)
    (fun faultless => ⟨(account.held faultless).speed, (account.held faultless).unjudged⟩)
  rw [data] at turned
  exact ⟨after, turned⟩

theorem Account.stop (account : setting.Account checker core told)
    (place : checker.probe.bus.stage = stage) (sampled : core.phase = .sampleBit)
    (first : core.shifter.bits = 1) (clock : stage.clock = true)
    (committed : checker.probe.detector.clock.level = true) (data : stage.data = true)
    (committed' : checker.probe.detector.data.level = false)
    (setup : setting.faultless → ∀ start, checker.probe.detector.clock.changedAt = some start →
      start + setting.speed.limits.stopSetupMin ≤ stage.now) :
    ∃ after, setting.Turned checker core.ended (told ++ [.stopBit]) stage
      { checker.probe.detector with
        data := checker.probe.detector.data.commit true stage.now } after := by
  have phase := account.phase.trans sampled
  have bits : checker.protocol.shifter.bits = 1 := by
    rw [← account.protocol] at first
    exact first
  have seen := account.seen place .data
  have detector := seen.detector
  rw [data] at detector
  have rose : (checker.probe.seen .data).data.level = true :=
    congrArg (fun detector => detector.data.level) detector
  have moved : checker.probe.detector.data.level ≠ stage.data := by
    rw [committed', data]
    decide
  have successor : checker.protocol.successor (checker.probe.seen .data).detector .data =
      .checkStartStop := by
    simp [Protocol.successor, phase, Phase.next]
  have ended :
      (checker.protocol.follow (checker.probe.seen .data) .checkStartStop).protocol.core =
        core.ended := by
    rw [Protocol.core_follow_stop _ rose, account.protocol]
  obtain ⟨after, turned⟩ := account.shift place (committed.trans clock.symm) moved successor ended
    (by rw [Protocol.drive?_follow_of_not_drives (by decide)]; rfl)
    (Protocol.talk_follow_stop _ rose)
    (fun faultless => by
      have held := account.heldTo faultless
      have high : (checker.probe.seen .data).clock.level = true := by
        rw [View.clock, detector]
        exact committed
      refine ⟨Protocol.clean_edgeNotes_high _ high,
        Protocol.clean_follow_stop held.speed (seen.clock.trans clock) (seen.data.trans data) rose
          bits ?_⟩
      rw [View.data, View.clock, detector]
      intro stop known
      cases known
      have early := seen.early
      rw [seen.now] at early
      exact ⟨early, setup faultless⟩)
    (fun faultless => ⟨(account.held faultless).speed, (account.held faultless).unjudged⟩)
  rw [data] at turned
  exact ⟨after, turned⟩

end Setting
end TwoWire
