import TwoWire.Proofs.Account
import TwoWire.Proofs.Pace

/-! One beat of the clock. Whatever the stretch and the delays, the protocol goes from one clock
high to the next by its fall and its rise. -/

namespace TwoWire

namespace Stage

variable {stage : Stage}

theorem resumed_of_step {step : Step} {rest : List Step} (paused : stage.Paused)
    (program : stage.program = step :: rest) :
    stage.resumed = ((stage.moveTo stage.resumeAt).execute step).run rest := by
  unfold resumed due
  rw [show (stage.moveTo stage.resumeAt).program = step :: rest from program]
  exact @run_of_ready (stage.moveTo stage.resumeAt) paused.running (Nat.le_refl _) _ _

theorem run_of_set (running : stage.waiting = false) (late : stage.resumeAt ≤ stage.now)
    {second : Nat} (positive : 0 < second) (level : Option Bool) (rest : List Step) :
    stage.run (.drive .data level :: .delay second :: rest) =
      { stage with dataPeer := level, resumeAt := stage.now + second, program := rest } := by
  rw [run_of_ready running late]
  refine (@run_of_samples ({ stage with dataPeer := level } : Stage) [] (by simp [Samples]) running
    late second positive rest).trans ?_
  rfl

def placed (stage : Stage) (level : Option Bool) (second : Nat) (rest : List Step) : Stage :=
  { stage with
    now := stage.resumeAt
    resumeAt := stage.resumeAt + second
    dataPeer := level
    program := rest }

theorem paused_placed (running : stage.waiting = false) {second : Nat} (positive : 0 < second)
    (level : Option Bool) (rest : List Step) : (stage.placed level second rest).Paused :=
  ⟨running, Nat.lt_add_of_pos_right positive⟩

theorem resumed_of_set (paused : stage.Paused) {second : Nat} (positive : 0 < second)
    {level : Option Bool} {rest : List Step}
    (program : stage.program = .drive .data level :: .delay second :: rest) :
    stage.resumed = stage.placed level second rest := by
  unfold resumed due
  rw [show (stage.moveTo stage.resumeAt).program = _ from program]
  exact @run_of_set (stage.moveTo stage.resumeAt) paused.running (Nat.le_refl _) second positive
    level rest

def pulled (stage : Stage) (delay : Nat) (rest : List Step) : Stage :=
  { stage with
    now := stage.resumeAt
    resumeAt := stage.resumeAt + delay
    clockPeer := some false
    program := rest }

theorem paused_pulled (running : stage.waiting = false) {delay : Nat} (positive : 0 < delay)
    (rest : List Step) : (stage.pulled delay rest).Paused :=
  ⟨running, Nat.lt_add_of_pos_right positive⟩

theorem resumed_of_late (paused : stage.Paused) {delay : Nat} (positive : 0 < delay)
    {rest : List Step}
    (program : stage.program = .drive .clock (some false) :: .delay delay :: rest) :
    stage.resumed = stage.pulled delay rest := by
  rw [resumed_of_step paused program]
  refine (@run_of_samples { stage.moveTo stage.resumeAt with clockPeer := some false } []
    (by simp [Samples]) paused.running (Nat.le_refl _) delay positive rest).trans ?_
  rfl

theorem resumed_of_together (paused : stage.Paused) {second : Nat} (positive : 0 < second)
    {level : Option Bool} {rest : List Step} (program : stage.program =
      .drive .clock (some false) :: .drive .data level :: .delay second :: rest) :
    stage.resumed = ({ stage with dataPeer := level } : Stage).pulled second rest := by
  rw [resumed_of_step paused program]
  exact @run_of_set { stage.moveTo stage.resumeAt with clockPeer := some false } paused.running
    (Nat.le_refl _) second positive level rest

def sampled (stage : Stage) (sample : List Step) : Stage :=
  { stage with
    readBits := List.replicate (sample.count .sampleData) stage.data ++ stage.readBits
    ackBits := List.replicate (sample.count .sampleAck) (!stage.data) ++ stage.ackBits }

theorem foldl_samples {sample : List Step} (samples : Samples sample) (stage : Stage) :
    sample.foldl execute stage = stage.sampled sample := by
  induction sample generalizing stage with
  | nil => rfl
  | cons step sample ih =>
    have others : Samples sample := fun other mem => samples other (List.mem_cons_of_mem _ mem)
    refine (ih others (stage.execute step)).trans ?_
    have slide : ∀ (n : Nat) (bit : Bool) (bits : List Bool),
        List.replicate n bit ++ bit :: bits = List.replicate (n + 1) bit ++ bits := by
      intro n bit bits
      rw [List.replicate_succ', List.append_assoc]
      rfl
    rcases samples step List.mem_cons_self with rfl | rfl
    · simp [sampled, execute, data, slide]
    · simp [sampled, execute, data, slide]

/-- The clock has risen at `time`, and the program stays there for `dwell` once it has sampled. -/
def risen (stage : Stage) (sample : List Step) (dwell : Nat) (rest : List Step) (time : Nat) :
    Stage :=
  { stage.sampled sample with
    now := time
    resumeAt := time + dwell
    waiting := false
    clockPeer := none
    weakClock := true
    program := rest }

def awaiting (stage : Stage) (program : List Step) : Stage :=
  { stage with now := stage.resumeAt, clockPeer := none, waiting := true, program }

/-- The clock has been let go by both sides, and the program has not been told yet. -/
def woken (stage : Stage) (program : List Step) (time : Nat) : Stage :=
  { stage with now := time, clockPeer := none, weakClock := true, waiting := true, program }

variable {sample rest : List Step} {dwell : Nat}

def riseSteps (sample : List Step) (dwell : Nat) (rest : List Step) : List Step :=
  .drive .clock none :: .waitClockHigh :: (sample ++ .delay dwell :: rest)

theorem resumed_of_free (paused : stage.Paused) (free : stage.weakClock = true)
    (samples : Samples sample) (positive : 0 < dwell)
    (program : stage.program = riseSteps sample dwell rest) :
    stage.resumed = stage.risen sample dwell rest stage.resumeAt := by
  rw [resumed_of_step paused program]
  refine (@run_of_ready { stage.moveTo stage.resumeAt with clockPeer := none } paused.running
    (Nat.le_refl _) _ _).trans ?_
  refine (@run_of_high { stage.moveTo stage.resumeAt with clockPeer := none, waiting := true }
    free _).trans ?_
  refine (@run_of_samples { stage.moveTo stage.resumeAt with
    clockPeer := none, waiting := false } sample samples rfl (Nat.le_refl _) dwell positive
    rest).trans ?_
  rw [foldl_samples samples]
  unfold risen sampled moveTo
  rw [free]
  rfl

theorem resumed_of_held (paused : stage.Paused) (held : stage.weakClock = false)
    (program : stage.program = riseSteps sample dwell rest) :
    stage.resumed = stage.awaiting (sample ++ .delay dwell :: rest) := by
  rw [resumed_of_step paused program]
  refine (@run_of_ready { stage.moveTo stage.resumeAt with clockPeer := none } paused.running
    (Nat.le_refl _) _ _).trans ?_
  exact @run_of_blocked { stage.moveTo stage.resumeAt with clockPeer := none, waiting := true }
    ⟨rfl, held⟩ _

theorem blocked_awaiting (held : stage.weakClock = false) (program : List Step) :
    (stage.awaiting program).Blocked := ⟨rfl, held⟩

theorem due_woken (samples : Samples sample) (positive : 0 < dwell) {time : Nat}
    (late : stage.resumeAt ≤ time) :
    (stage.woken (sample ++ .delay dwell :: rest) time).due =
      stage.risen sample dwell rest time := by
  refine (@run_of_high (stage.woken (sample ++ .delay dwell :: rest) time) rfl _).trans ?_
  refine (@run_of_samples { stage.woken (sample ++ .delay dwell :: rest) time with
    waiting := false } sample samples rfl late dwell positive rest).trans ?_
  rw [foldl_samples samples]
  rfl

@[simp] theorem levels_risen (stage : Stage) (time : Nat) :
    (stage.risen sample dwell rest time).levels = (true, stage.data) := rfl

theorem paused_risen (stage : Stage) (positive : 0 < dwell) (time : Nat) :
    (stage.risen sample dwell rest time).Paused :=
  ⟨rfl, Nat.lt_add_of_pos_right positive⟩

theorem clock_of_pulled (pulled : stage.clockPeer = some false) : stage.clock = false := by
  simp [clock, pulled]

end Stage

namespace Protocol

theorem isLow_fall (protocol : Protocol) : protocol.fall.phase.isLow = true := by
  by_cases done : protocol.phase = .byteDone
  · by_cases ours : protocol.acknowledging = true <;> simp [fall, done, ours, Phase.isLow]
  · simp [fall, done, Phase.isLow]

theorem holds_fall (protocol : Protocol) : protocol.fall.holds protocol.wanted = true := by
  by_cases done : protocol.phase = .byteDone
  · by_cases ours : protocol.acknowledging = true <;> simp [fall, wanted, holds, done, ours]
  · simp [fall, wanted, holds, done]

end Protocol

namespace Setting

/-- The clock is high, every edge has been seen and the program is in a delay. -/
structure Up (setting : Setting) (checker : Checker Simulation) (stage : Stage) (core : Protocol)
    (told : List Event) : Prop extends Account setting checker core told where
  quiet : checker.Quiet stage
  paused : stage.Paused
  free : stage.weakClock = true
  released : stage.clockPeer = none

/-- The program holds the clock low since `fell`, and every edge has been seen. -/
structure Low (setting : Setting) (checker : Checker Simulation) (stage : Stage) (core : Protocol)
    (told : List Event) (fell : Nat) : Prop extends Account setting checker core told where
  quiet : checker.Quiet stage
  paused : stage.Paused
  pulled : stage.clockPeer = some false
  isLow : core.phase.isLow = true
  steady : core.holds stage.weakData = true
  fellAt : checker.probe.detector.clock.changedAt = some fell

variable {setting : Setting} {checker : Checker Simulation} {stage : Stage} {core : Protocol}
  {told : List Event} {fell : Nat}

theorem Account.settle (account : setting.Account checker core told)
    (place : checker.probe.bus.stage = stage) (paused : stage.Paused)
    (pulled : stage.clockPeer = some false) (isLow : core.phase.isLow = true)
    (steady : core.holds stage.weakData = true)
    (committed : checker.probe.detector.clock.level = false)
    (fellAt : checker.probe.detector.clock.changedAt = some fell)
    (soon : setting.faultless → ∀ most, setting.speed.limits.dataValidMax = some most →
      stage.now ≤ fell + most) :
    ∃ after, checker.watch = after.watch ∧ setting.Low after stage core told fell := by
  have clock : stage.clock = false := by simp [Stage.clock, pulled]
  by_cases moved : checker.probe.detector.data.level = stage.data
  · exact ⟨checker, rfl, account, Checker.quiet_of_stage place (Stage.due_of_paused paused)
      (committed.trans clock.symm) moved, paused, pulled, isLow, steady, fellAt⟩
  · obtain ⟨after, watch, account', place', detector⟩ :=
      account.absorb place isLow steady clock committed moved (fun faultless start known => by
        rw [fellAt] at known
        cases known
        exact soon faultless)
    refine ⟨after, watch, account',
      Checker.quiet_of_stage place' (Stage.due_of_paused paused) ?_ ?_, paused, pulled, isLow,
      steady, ?_⟩
    · rw [detector]
      exact committed.trans clock.symm
    · rw [detector]
      rfl
    · rw [detector]
      exact fellAt

theorem Up.pull (up : setting.Up checker stage core told) (high : core.phase.isHigh = true)
    {low : Stage} (resumed : stage.resumed = low) (pulled : low.clockPeer = some false)
    (paused : low.Paused) (data : setting.faultless → low.data = stage.data)
    (clockHigh : setting.faultless → ∀ start, checker.probe.detector.clock.changedAt = some start →
      start + setting.speed.limits.clockHighMin ≤ low.now)
    (startHold : setting.faultless → core.phase = .starting →
      ∀ start, checker.probe.detector.data.changedAt = some start →
        start + setting.speed.limits.startHoldMin ≤ low.now) :
    ∃ after weak, checker.watch = after.watch ∧
      setting.Low after (low.held weak core.wanted) core.fall (told ++ core.fallTalk) low.now := by
  subst resumed
  have clock : stage.resumed.clock = false := Stage.clock_of_pulled pulled
  have clock' : stage.clock = true := by simp [Stage.clock, up.released, up.free]
  obtain ⟨woken, passed, place⟩ := up.quiet.advance up.underway up.free up.paused (by
    intro same
    have clocks : stage.resumed.clock = stage.clock := congrArg Prod.fst same
    rw [clock, clock'] at clocks
    cases clocks)
  have account := up.toAccount.passed passed
  have detector := passed.detector
  obtain ⟨seen, weak, turned⟩ := account.fall place high clock
    (by rw [detector, up.quiet.clock, clock'])
    (fun faultless => by rw [detector, up.quiet.data, data faultless])
    (fun faultless => by rw [detector]; exact clockHigh faultless)
    (fun faultless => by rw [detector]; exact startHold faultless)
  have committed := congrArg EdgeDetector.clock turned.detector
  obtain ⟨after, watch, low⟩ := turned.account.settle turned.stage
    ⟨paused.running, paused.early⟩ pulled
    core.isLow_fall core.holds_fall (by rw [committed]; rfl) (by rw [committed]; rfl)
    (fun _ most _ => Nat.le_add_right _ most)
  exact ⟨after, weak, passed.watch.trans (turned.watch.trans watch), low⟩

/-- The clock is high again, which has not been seen, and `stage` is where the program comes to
with that. -/
structure Risen (setting : Setting) (checker : Checker Simulation) (stage : Stage)
    (core : Protocol) (told : List Event) (fell : Nat) : Prop
    extends Account setting checker core told where
  due : checker.probe.bus.stage.due = stage
  now : checker.probe.bus.stage.now = stage.now
  levels : checker.probe.bus.stage.levels = stage.levels
  peer : checker.probe.bus.stage.dataPeer = stage.dataPeer
  isLow : core.phase.isLow = true
  committed : checker.probe.detector.clock.level = false
  data : checker.probe.detector.data.level = stage.data
  fellAt : checker.probe.detector.clock.changedAt = some fell

theorem Low.clock (low : setting.Low checker stage core told fell) : stage.clock = false :=
  Stage.clock_of_pulled low.pulled

theorem Low.data_since (low : setting.Low checker stage core told fell) {start : Nat}
    (known : checker.probe.detector.data.changedAt = some start) : start ≤ stage.now := by
  rw [low.quiet.now]
  exact low.underway.past.data.changed start known

theorem Low.passed (low : setting.Low checker stage core told fell) {after : Checker Simulation}
    (passed : checker.Passed after) {time : Nat} (early : time < stage.resumeAt) {free : Bool}
    (place : after.probe.bus.stage = (stage.moveTo time).letGo free) :
    setting.Low after ((stage.moveTo time).letGo free) core told fell where
  toAccount := low.toAccount.passed passed
  quiet := by
    have paused : ((stage.moveTo time).letGo free).Paused := ⟨low.paused.running, early⟩
    apply Checker.quiet_of_stage place (Stage.due_of_paused paused)
    · rw [passed.detector, low.quiet.clock, low.clock]
      exact (@Stage.clock_of_pulled ((stage.moveTo time).letGo free) low.pulled).symm
    · rw [passed.detector]
      exact low.quiet.data
  paused := ⟨low.paused.running, early⟩
  pulled := low.pulled
  isLow := low.isLow
  steady := low.steady
  fellAt := by
    rw [passed.detector]
    exact low.fellAt

variable {sample rest : List Step} {dwell : Nat}

theorem Low.risen (low : setting.Low checker stage core told fell) {after : Checker Simulation}
    (passed : checker.Passed after) {other : Stage} (same : other.data = stage.data) {time : Nat}
    (due : after.probe.bus.stage.due = other.risen sample dwell rest time)
    (now : after.probe.bus.stage.now = time)
    (levels : after.probe.bus.stage.levels = (true, other.data))
    (peer : after.probe.bus.stage.dataPeer = other.dataPeer) :
    setting.Risen after (other.risen sample dwell rest time) core told fell where
  toAccount := low.toAccount.passed passed
  due := due
  now := now
  levels := levels
  peer := peer
  isLow := low.isLow
  committed := by rw [passed.detector, low.quiet.clock, low.clock]
  data := by
    rw [passed.detector, low.quiet.data]
    exact same.symm
  fellAt := by
    rw [passed.detector]
    exact low.fellAt

/-- With the clock let go on our side, it rises as soon as the program lets go of it. -/
theorem Low.rise_free (low : setting.Low checker stage core told fell)
    (free : stage.weakClock = true) (samples : Stage.Samples sample) (positive : 0 < dwell)
    (program : stage.program = Stage.riseSteps sample dwell rest) :
    ∃ after, checker.Passed after ∧
      setting.Risen after (stage.risen sample dwell rest stage.resumeAt) core told fell := by
  have resumed := Stage.resumed_of_free low.paused free samples positive program
  obtain ⟨after, passed, place⟩ := low.quiet.advance low.underway free low.paused (by
    rw [resumed, Stage.levels_risen]
    intro same
    have clock : true = stage.clock := congrArg Prod.fst same
    rw [low.clock] at clock
    cases clock)
  rw [resumed] at place
  refine ⟨after, passed, low.risen passed rfl ?_ ?_ ?_ ?_⟩
  · rw [place]
    exact Stage.due_of_paused (Stage.paused_risen stage positive _)
  all_goals rw [place]; rfl

theorem Low.woken (low : setting.Low checker stage core told fell) (samples : Stage.Samples sample)
    (positive : 0 < dwell) {after : Checker Simulation} (passed : checker.Passed after) {time : Nat}
    (late : stage.resumeAt ≤ time)
    (place : after.probe.bus.stage = stage.woken (sample ++ .delay dwell :: rest) time) :
    setting.Risen after (stage.risen sample dwell rest time) core told fell := by
  refine low.risen passed rfl ?_ ?_ ?_ ?_
  · rw [place]
    exact Stage.due_woken samples positive late
  all_goals rw [place]; rfl

/-- A program that waits for a clock that we hold is woken at the end of the stretch. -/
theorem Low.hold_out (low : setting.Low checker stage core told fell)
    (held : stage.weakClock = false) {after : Checker Simulation} (passed : checker.Passed after)
    {program : List Step} (place : after.probe.bus.stage = stage.awaiting program) :
    ∃ last time, checker.Passed last ∧ stage.resumeAt ≤ time ∧
      last.probe.bus.stage = stage.woken program time := by
  have blocked := Stage.blocked_awaiting held program
  have quiet : after.Quiet (stage.awaiting program) := by
    apply Checker.quiet_of_stage place (Stage.due_of_blocked blocked)
    · rw [passed.detector, low.quiet.clock, low.clock, blocked.low]
    · rw [passed.detector, low.quiet.data]
      rfl
  obtain ⟨last, passed', time, later, place'⟩ := quiet.hold_out passed.underway held blocked
  refine ⟨last, time, passed.trans passed', Nat.le_of_lt later, ?_⟩
  rw [place']
  simp [Stage.letGo, Stage.woken, Stage.awaiting, Stage.moveTo]

theorem Low.rise (low : setting.Low checker stage core told fell)
    (samples : Stage.Samples sample) (positive : 0 < dwell)
    (program : stage.program = Stage.riseSteps sample dwell rest) :
    ∃ after time, checker.Passed after ∧ stage.resumeAt ≤ time ∧
      setting.Risen after (stage.risen sample dwell rest time) core told fell := by
  cases held : stage.weakClock with
  | true =>
    obtain ⟨after, passed, risen⟩ := low.rise_free held samples positive program
    exact ⟨after, stage.resumeAt, passed, Nat.le_refl _, risen⟩
  | false =>
    have resumed := Stage.resumed_of_held low.paused held program
    obtain ⟨after, passed, ⟨free, place⟩ | ⟨time, -, early, place⟩⟩ :=
      low.quiet.cycles low.underway held low.pulled low.paused
    · rw [resumed] at place
      -- At the end of the delay the clock is let go by both, or by the program alone.
      cases free with
      | true =>
        refine ⟨after, stage.resumeAt, passed, Nat.le_refl _,
          low.woken samples positive passed (Nat.le_refl _) ?_⟩
        rw [place]
        simp [Stage.letGo, Stage.woken, Stage.awaiting]
      | false =>
        rw [Stage.letGo_false] at place
        obtain ⟨last, time, passed', late, place'⟩ := low.hold_out held passed place
        exact ⟨last, time, passed', late, low.woken samples positive passed' late place'⟩
    · have low' := low.passed passed early place
      obtain ⟨last, passed', risen⟩ := low'.rise_free (by simp [Stage.letGo]) samples positive
        program
      exact ⟨last, stage.resumeAt, passed.trans passed', Nat.le_refl _, risen⟩

theorem Low.set_free (low : setting.Low checker stage core told fell)
    (free : stage.weakClock = true) (samples : Stage.Samples sample) (positive : 0 < dwell)
    {level : Option Bool} {second : Nat} (positive' : 0 < second)
    (program : stage.program =
      .drive .data level :: .delay second :: Stage.riseSteps sample dwell rest)
    (soon : setting.faultless → ∀ most, setting.speed.limits.dataValidMax = some most →
      stage.resumeAt ≤ fell + most) :
    ∃ after time, checker.watch = after.watch ∧ stage.resumeAt + second ≤ time ∧
      setting.Risen after (({ stage with dataPeer := level } : Stage).risen sample dwell rest time)
        core told fell ∧
      ∀ start, after.probe.detector.data.changedAt = some start → start ≤ stage.resumeAt := by
  have resumed := Stage.resumed_of_set low.paused positive' program
  have paused := Stage.paused_placed low.paused.running positive' level
    (Stage.riseSteps sample dwell rest)
  have last := Stage.resumed_of_free paused free samples positive rfl
  -- A data line that is set to the level it has is nothing to wake up for.
  by_cases same : stage.resumed.levels = stage.levels
  · have silent := same
    rw [resumed] at silent
    obtain ⟨after, passed, place⟩ := low.quiet.advance_twice low.underway free low.paused same
      (by rw [resumed]; exact paused) (by
        rw [resumed, last, Stage.levels_risen]
        intro same
        have clock : true = stage.clock := congrArg Prod.fst same
        rw [low.clock] at clock
        cases clock)
    rw [resumed, last] at place
    refine ⟨after, stage.resumeAt + second, passed.watch, Nat.le_refl _,
      low.risen passed (congrArg Prod.snd silent) ?_ ?_ ?_ ?_, ?_⟩
    · rw [place]
      exact Stage.due_of_paused (Stage.paused_risen _ positive _)
    · rw [place]
      rfl
    · rw [place]
      rfl
    · rw [place]
      rfl
    · intro start known
      rw [passed.detector] at known
      have := low.data_since known
      have := low.paused.early
      omega
  · obtain ⟨woken, passed, place⟩ := low.quiet.advance low.underway free low.paused same
    rw [resumed] at place
    obtain ⟨seen, watch, low'⟩ := (low.toAccount.passed passed).settle place paused low.pulled
      low.isLow low.steady (by rw [passed.detector, low.quiet.clock, low.clock])
      (by rw [passed.detector]; exact low.fellAt) soon
    obtain ⟨after, passed', risen⟩ := low'.rise_free free samples positive rfl
    refine ⟨after, stage.resumeAt + second, passed.watch.trans (watch.trans passed'.watch),
      Nat.le_refl _, risen, ?_⟩
    intro start known
    rw [passed'.detector] at known
    exact low'.data_since known

theorem Low.set (low : setting.Low checker stage core told fell)
    (samples : Stage.Samples sample) (positive : 0 < dwell) {level : Option Bool} {second : Nat}
    (positive' : 0 < second)
    (program : stage.program =
      .drive .data level :: .delay second :: Stage.riseSteps sample dwell rest)
    (soon : setting.faultless → ∀ most, setting.speed.limits.dataValidMax = some most →
      stage.resumeAt ≤ fell + most) :
    ∃ after time, checker.watch = after.watch ∧ stage.resumeAt + second ≤ time ∧
      setting.Risen after (({ stage with dataPeer := level } : Stage).risen sample dwell rest time)
        core told fell ∧
      ∀ start, after.probe.detector.data.changedAt = some start → start ≤ stage.resumeAt := by
  cases held : stage.weakClock with
  | true => exact low.set_free held samples positive positive' program soon
  | false =>
    have resumed := Stage.resumed_of_set low.paused positive' program
    obtain ⟨woken, passed, ⟨free, place⟩ | ⟨time, -, early, place⟩⟩ :=
      low.quiet.cycles low.underway held low.pulled low.paused
    · rw [resumed] at place
      have paused : ((stage.placed level second
          (Stage.riseSteps sample dwell rest)).letGo free).Paused :=
        @Stage.paused_placed (stage.letGo free) low.paused.running second positive' level
          (Stage.riseSteps sample dwell rest)
      obtain ⟨seen, watch, low'⟩ := (low.toAccount.passed passed).settle place paused low.pulled
        low.isLow low.steady (by rw [passed.detector, low.quiet.clock, low.clock])
        (by rw [passed.detector]; exact low.fellAt) soon
      obtain ⟨after, time, passed', late, risen⟩ := low'.rise samples positive rfl
      refine ⟨after, time, passed.watch.trans (watch.trans passed'.watch), late, risen, ?_⟩
      intro start known
      rw [passed'.detector] at known
      exact low'.data_since known
    · have low' := low.passed passed early place
      obtain ⟨after, later, watch, late, risen, set⟩ :=
        low'.set_free (by simp [Stage.letGo]) samples positive positive' program soon
      exact ⟨after, later, passed.watch.trans watch, late, risen, set⟩

theorem Risen.rise (risen : setting.Risen checker stage core told fell) (paused : stage.Paused)
    (free : stage.weakClock = true) (released : stage.clockPeer = none)
    (clockLow : setting.faultless → fell + setting.speed.limits.clockLowMin ≤ stage.now)
    (setup : setting.faultless → ∀ start, checker.probe.detector.data.changedAt = some start →
      start + setting.speed.limits.dataSetupMin ≤ stage.now)
    (quiet : setting.faultless → core.afterNack = false ∨ core.shifter.bits ≠ 1)
    (alone : setting.faultless → core.phase ≠ .driveBit → core.acknowledging = true →
      stage.dataPeer = none) :
    ∃ after, checker.watch = after.watch ∧
      setting.Up after stage (core.rise stage.data) (told ++ core.riseTalk stage.data) ∧
      after.probe.detector.clock.changedAt = some stage.now := by
  generalize place : checker.probe.bus.stage = before
  have now : before.now = stage.now := place ▸ risen.now
  have due : before.due = stage := place ▸ risen.due
  have levels : before.levels = stage.levels := place ▸ risen.levels
  have peer : before.dataPeer = stage.dataPeer := place ▸ risen.peer
  have clock : before.clock = stage.clock := congrArg Prod.fst levels
  have data : before.data = stage.data := congrArg Prod.snd levels
  have high : stage.clock = true := by simp [Stage.clock, released, free]
  obtain ⟨after, turned⟩ := risen.toAccount.rise place risen.isLow (clock.trans high)
    risen.committed (risen.data.trans data.symm)
    (fun faultless start known => by
      rw [risen.fellAt] at known
      cases known
      rw [now]
      exact clockLow faultless)
    (fun faultless => by rw [now]; exact setup faultless)
    quiet (fun faultless => by rw [peer]; exact alone faultless)
  rw [data] at turned
  have committed := congrArg EdgeDetector.clock turned.detector
  have kept := congrArg EdgeDetector.data turned.detector
  refine ⟨after, turned.watch, ⟨turned.account, ⟨?_, ?_, ?_, ?_⟩, paused, free, released⟩, ?_⟩
  · rw [Simulation.stage_runDue, turned.stage, due]
  · rw [← Simulation.levels_stage, turned.stage, levels]
  · rw [committed, high]
    rfl
  · rw [kept]
    exact risen.data
  · rw [committed, ← now]
    rfl

structure Pulsing (setting : Setting) (level : Option Bool) (sample : List Step) (dwell : Nat)
    (rest : List Step) (program : List Step) : Prop where
  samples : Stage.Samples sample
  positive : 0 < dwell
  program : ∃ first second, Lengthened setting.slack setting.timing.dataDelay first ∧
    Lengthened setting.slack (setting.timing.clockLow - setting.timing.dataDelay) second ∧
    program = .drive .clock (some false) :: (Step.delayed first ++ .drive .data level ::
      .delay second :: Stage.riseSteps sample dwell rest)

/-- From one clock high to the next rise of the clock. -/
theorem Up.lowPhase (up : setting.Up checker stage core told) (high : core.phase.isHigh = true)
    {level : Option Bool} (pulse : setting.Pulsing level sample dwell rest stage.program)
    (clockHigh : setting.faultless → ∀ start, checker.probe.detector.clock.changedAt = some start →
      start + setting.speed.limits.clockHighMin ≤ stage.resumeAt)
    (startHold : setting.faultless → core.phase = .starting →
      ∀ start, checker.probe.detector.data.changedAt = some start →
        start + setting.speed.limits.startHoldMin ≤ stage.resumeAt) :
    ∃ after time, checker.watch = after.watch ∧
      setting.Risen after
        (({ stage with dataPeer := level, weakData := core.wanted } : Stage).risen sample dwell rest
          time) core.fall (told ++ core.fallTalk) stage.resumeAt ∧
      (setting.faultless → stage.resumeAt + setting.timing.clockLow ≤ time ∧
        ∀ start, after.probe.detector.data.changedAt = some start →
          start + (setting.timing.clockLow - setting.timing.dataDelay) ≤ time) := by
  obtain ⟨first, second, fits, fits', program⟩ := pulse.program
  have early := setting.early
  have least := fits.least
  have least' := fits'.least
  have positive : 0 < second := by omega
  -- With no delay the data line is set at the instant of the fall, in the same burst of steps.
  by_cases together : first = 0
  · subst together
    have resumed := Stage.resumed_of_together up.paused positive program
    obtain ⟨seen, weak, watch, low⟩ := up.pull high resumed rfl
      (@Stage.paused_pulled { stage with dataPeer := level } up.paused.running second positive _)
      (fun faultless => by
        have := (setting.keeps faultless).dataDelay
        omega)
      clockHigh startHold
    obtain ⟨after, time, passed, late, risen⟩ := low.rise pulse.samples pulse.positive rfl
    refine ⟨after, time, watch.trans passed.watch, risen, fun faultless => ?_⟩
    have := (setting.keeps faultless).dataDelay
    omega
  · have resumed := Stage.resumed_of_late up.paused (Nat.pos_of_ne_zero together)
      (program.trans (by rw [Step.delayed_of_pos (Nat.pos_of_ne_zero together)]; rfl))
    obtain ⟨seen, weak, watch, low⟩ := up.pull high resumed rfl
      (Stage.paused_pulled up.paused.running (Nat.pos_of_ne_zero together) _) (fun _ => rfl)
      clockHigh startHold
    obtain ⟨after, time, watch', late, risen, since⟩ :=
      low.set pulse.samples pulse.positive positive rfl (fun faultless most known => by
        have := (setting.keeps faultless).dataValid most known
        have := fits.most
        change stage.resumeAt + first ≤ stage.resumeAt + most
        omega)
    change stage.resumeAt + first + second ≤ time at late
    refine ⟨after, time, watch.trans watch', risen, fun _ => ⟨by omega, ?_⟩⟩
    intro start known
    have : start ≤ stage.resumeAt + first := since start known
    omega

/-- From one clock high to the next. -/
theorem Up.beat (up : setting.Up checker stage core told) (high : core.phase.isHigh = true)
    {level : Option Bool} (pulse : setting.Pulsing level sample dwell rest stage.program)
    (clockHigh : setting.faultless → ∀ start, checker.probe.detector.clock.changedAt = some start →
      start + setting.speed.limits.clockHighMin ≤ stage.resumeAt)
    (startHold : setting.faultless → core.phase = .starting →
      ∀ start, checker.probe.detector.data.changedAt = some start →
        start + setting.speed.limits.startHoldMin ≤ stage.resumeAt)
    (quiet : setting.faultless → core.afterNack = false ∨ core.shifter.bits ≠ 1)
    (alone : setting.faultless → core.phase = .byteDone → core.acknowledging = true →
      level = none) :
    ∃ after time, checker.watch = after.watch ∧
      setting.Up after
        (({ stage with dataPeer := level, weakData := core.wanted } : Stage).risen sample dwell rest
          time) (core.fall.rise (level.getD core.wanted))
        (told ++ core.fallTalk ++ core.fall.riseTalk (level.getD core.wanted)) ∧
      after.probe.detector.clock.changedAt = some time := by
  obtain ⟨seen, time, watch, risen, apart⟩ := up.lowPhase high pulse clockHigh startHold
  have kept : core.fall.afterNack = core.afterNack ∧ core.fall.shifter = core.shifter ∧
      core.fall.acknowledging = core.acknowledging := by
    unfold Protocol.fall
    split
    · split <;> exact ⟨rfl, rfl, rfl⟩
    · exact ⟨rfl, rfl, rfl⟩
  obtain ⟨after, watch', up', rose⟩ := risen.rise (Stage.paused_risen _ pulse.positive _) rfl rfl
    (fun faultless => Nat.le_trans
      (Nat.add_le_add_left (setting.keeps faultless).clockLow _) (apart faultless).1)
    (fun faultless start known => Nat.le_trans
      (Nat.add_le_add_left (setting.keeps faultless).dataSetup _)
      ((apart faultless).2 start known))
    (fun faultless => by rw [kept.1, kept.2.1]; exact quiet faultless)
    (fun faultless bit ours => by
      refine alone faultless ?_ (kept.2.2 ▸ ours)
      apply Classical.byContradiction
      intro other
      exact bit (by simp [Protocol.fall, other]))
  exact ⟨after, time, watch.trans watch', up', rose⟩

end Setting
end TwoWire
