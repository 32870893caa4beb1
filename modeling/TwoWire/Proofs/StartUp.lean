import TwoWire.Proofs.Frame
import TwoWire.Proofs.Rest

/-! The start of a run on the simulated bus, while the controller is still in its first delay. -/

namespace TwoWire

/-- Nothing has happened yet, and the program is in a delay or about to begin. -/
def Stage.opening (delay : Nat) (program : List Step) : Stage where
  now := 0
  resumeAt := delay
  waiting := false
  clockPeer := none
  dataPeer := none
  weakClock := true
  weakData := true
  program
  readBits := []
  ackBits := []

namespace Simulation

theorem waitUntil_of_paused {bus : Simulation} {stage : Stage} (due : bus.runDue.stage = stage)
    (paused : stage.Paused) {time : Nat} (later : stage.now ≤ time)
    (early : time < stage.resumeAt) :
    (bus.waitUntil time).stage = stage.moveTo time ∧ Kin bus (bus.waitUntil time) := by
  have wake : bus.runDue.nextWake? = some stage.resumeAt := by
    rw [← due] at paused ⊢
    exact nextWake?_of_paused paused
  have waited : bus.waitUntil time = (bus.runDue.moveTo time).runDue := by
    rw [waitUntil]
    split
    case h_1 closed => exact absurd (wake.symm.trans closed) (Option.some_ne_none _)
    case h_2 instant woken =>
      rw [wake] at woken
      cases woken
      rw [if_neg (by omega)]
  have moved : (bus.runDue.moveTo time).stage = stage.moveTo time := by
    rw [stage_moveTo (by rw [← due] at later; exact later), due]
  have paused' : (stage.moveTo time).Paused := ⟨paused.running, early⟩
  rw [waited]
  exact ⟨by rw [stage_runDue, moved, Stage.due_of_paused paused'], kin_resumed bus time⟩

theorem wait_of_paused {bus : Simulation} {stage : Stage} (due : bus.runDue.stage = stage)
    (paused : stage.Paused) {time : Nat} (later : stage.now ≤ time)
    (early : time < stage.resumeAt) (range : stage.resumeAt < Time.limit) :
    LineBus.wait bus (.instant time) = .ok () (bus.waitUntil time) := by
  obtain ⟨moved, -⟩ := waitUntil_of_paused due paused later early
  have now : (bus.waitUntil time).now = time := congrArg Stage.now moved
  have resumeAt : (bus.waitUntil time).resumeAt = stage.resumeAt := congrArg Stage.resumeAt moved
  change checkRange (.ok () (bus.waitUntil time)) = _
  unfold checkRange inRange
  simp only [Outcome.state_ok, now, resumeAt]
  rw [decide_eq_true (by omega), decide_eq_true range]
  rfl

end Simulation

namespace Probe

variable {probe : Probe Simulation}

theorem Wired.release (wired : probe.Wired) {line : Line} (free : probe.lines.weak line = true) :
    ∃ after, probe.drive line true = .ok () after ∧ after.Wired ∧ after.bus = probe.bus ∧
      after.lines = probe.lines ∧ after.detector = probe.detector ∧
      after.stretch = probe.stretch ∧ after.findings = probe.findings := by
  obtain ⟨after, through, steered, bus⟩ := wired.drive line true
  have still := probe.still_drive line true
  have lines := probe.lines_drive line true
  have stretch := probe.stretch_drive line true
  have told := (probe.silent_drive line true).findings
  rw [through] at still lines stretch told
  refine ⟨after, through, steered.wired, ?_, ?_, still.detector, stretch, told⟩
  · have same := Simulation.hold_weak probe.bus line
    rw [← wired.weak, free] at same
    rw [bus, same]
  · rw [show after.lines = _ from lines]
    cases line with
    | clock =>
      have free : probe.lines.weakClock = true := free
      simp [Lines.setWeak, ← free]
    | data =>
      have free : probe.lines.weakData = true := free
      simp [Lines.setWeak, ← free]

theorem Wired.settle (wired : probe.Wired) (clock : probe.lines.weakClock = true)
    (data : probe.lines.weakData = true) {stage : Stage} (due : probe.bus.runDue.stage = stage)
    (paused : stage.Paused) (idle : stage.levels = (true, true)) {time : Nat}
    (later : stage.now ≤ time) (early : time < stage.resumeAt)
    (range : stage.resumeAt < Time.limit) :
    ∃ after, probe.settle time = .ok () after ∧ after.Wired ∧
      Simulation.Kin probe.bus after.bus ∧ after.bus.stage = stage.moveTo time ∧
      after.lines = probe.lines ∧ after.detector = probe.detector.prime true true ∧
      after.stretch = probe.stretch ∧ after.findings = probe.findings := by
  obtain ⟨first, through, wired₁, bus₁, lines₁, detector₁, stretch₁, told₁⟩ :=
    @Wired.release probe wired .clock clock
  obtain ⟨second, through', wired₂, bus₂, lines₂, detector₂, stretch₂, told₂⟩ :=
    @Wired.release first wired₁ .data (by rw [lines₁]; exact data)
  have due' : second.bus.runDue.stage = stage := by rw [bus₂, bus₁, due]
  obtain ⟨moved, kin⟩ := Simulation.waitUntil_of_paused due' paused later early
  have weak := second.bus.stage.weak_run second.bus.program
  have waited := Simulation.wait_of_paused due' paused later early range
  have same : second.bus.stage.weakClock = stage.weakClock ∧
      second.bus.stage.weakData = stage.weakData := by
    rw [← due', Simulation.stage_runDue]
    exact ⟨weak.1.symm, weak.2.symm⟩
  have wired₃ := wired₂.called (.waited (.instant time)) kin
    ⟨(congrArg Stage.weakClock moved).trans same.1.symm,
      (congrArg Stage.weakData moved).trans same.2.symm⟩
  have told₃ := (second.silent_called (.waited (.instant time)) rfl rfl
    (second.bus.waitUntil time)).findings
  generalize called : second.called (.waited (.instant time)) (second.bus.waitUntil time) = third
    at wired₃ told₃
  have bus₃ : third.bus = second.bus.waitUntil time := by rw [← called]; rfl
  have place : third.bus.stage = stage.moveTo time := by rw [bus₃, moved]
  obtain ⟨high, high'⟩ := level_sight wired₃
  rw [place] at high high'
  have clockHigh : third.lines.level third.sight .clock = true :=
    high.trans (congrArg Prod.fst idle)
  have dataHigh : third.lines.level third.sight .data = true :=
    high'.trans (congrArg Prod.snd idle)
  refine ⟨{ third with detector := third.detector.prime true true }, ?_, ?_, ?_, place, ?_, ?_, ?_,
    ?_⟩
  · unfold Probe.settle
    rw [through, Outcome.andThen_ok, through', Outcome.andThen_ok]
    unfold Probe.wait
    rw [waited, Outcome.mapState_ok, called, Outcome.andThen_ok, awaitIdle, wired₃.look]
    dsimp only
    rw [clockHigh, dataHigh]
    rfl
  · exact ⟨wired₃.clock, wired₃.data, wired₃.distinct, wired₃.weakClock, wired₃.weakData⟩
  · change Simulation.Kin probe.bus third.bus
    rw [bus₃, ← bus₁, ← bus₂]
    exact kin
  · rw [← called]
    exact lines₂.trans lines₁
  · rw [← called]
    exact congrArg (EdgeDetector.prime · true true) (detector₂.trans detector₁)
  · rw [← called]
    exact stretch₂.trans stretch₁
  · exact told₃.trans (told₂.trans told₁)

end Probe

namespace Checker

variable {checker ready : Checker Simulation}

/-- The checker is fresh, and nothing has happened on its bus. -/
structure Fresh (config : Config) (program : List Step) (cycle : Nat)
    (checker : Checker Simulation) : Prop where
  protocol : checker.protocol = .ofConfig config ⟨config.ackSequence, config.txData⟩
  wired : checker.probe.Wired
  stage : checker.probe.bus.stage = .opening 0 program
  cycle : checker.probe.bus.cycle = max cycle 1
  weakClock : checker.probe.lines.weakClock = true
  weakData : checker.probe.lines.weakData = true
  stretch : checker.probe.stretch = { duration := config.clockStretch }
  detector : checker.probe.detector = {}
  findings : checker.findings = []
  config : checker.config = config

theorem fresh_of_ofConfig {config : Config} {program : List Step} {cycle : Nat} {bus : Simulation}
    (built : Simulation.ofProgram config.clock config.data program = .ok bus)
    (accepted : ofConfig config (bus.withCycle cycle) = .ok checker) :
    Fresh config program cycle checker := by
  unfold ofConfig at accepted
  unfold Simulation.ofProgram at built
  split at built
  case isTrue => cases built
  case isFalse distinct =>
    cases built
    cases check : config.check with
    | error wrong =>
      rw [check] at accepted
      cases accepted
    | ok responses =>
      rw [check] at accepted
      rw [Config.of_check check] at accepted
      cases accepted
      exact ⟨rfl, ⟨rfl, rfl, distinct, rfl, rfl⟩, rfl, rfl, rfl, rfl, rfl, rfl, rfl, rfl⟩

/-- Start-up has found the bus idle, in the controller's first delay. -/
structure Ready (config : Config) (delay : Nat) (rest : List Step) (cycle : Nat)
    (checker : Checker Simulation) : Prop where
  protocol : checker.protocol =
    { Protocol.ofConfig config ⟨config.ackSequence, config.txData⟩ with
      phase := .stopped
      previous := .stopped }
  wired : checker.probe.Wired
  stage : checker.probe.bus.stage = (Stage.opening delay rest).moveTo config.settleTime
  cycle : checker.probe.bus.cycle = max cycle 1
  weakClock : checker.probe.lines.weakClock = true
  stretch : checker.probe.stretch = { duration := config.clockStretch }
  detector : checker.probe.detector = {}
  findings : checker.findings = []

theorem Fresh.due {config : Config} {cycle delay : Nat} {rest : List Step}
    (fresh : checker.Fresh config (.delay delay :: rest) cycle) (positive : 0 < delay) :
    checker.probe.bus.runDue.stage = .opening delay rest := by
  refine (Simulation.stage_runDue _).trans ((congrArg Stage.due fresh.stage).trans ?_)
  refine (@Stage.run_of_samples (.opening 0 (.delay delay :: rest)) [] nofun rfl (Nat.le_refl _)
    delay positive rest).trans ?_
  simp [Stage.opening]

theorem Fresh.startUp {config : Config} {cycle delay : Nat} {rest : List Step}
    (fresh : checker.Fresh config (.delay delay :: rest) cycle)
    (settled : config.settleTime < delay) (range : delay < Time.limit) :
    ∃ ready, checker.startUp = .ok () ready ∧ Ready config delay rest cycle ready := by
  obtain ⟨probe, through, wired, kin, place, lines, detector, stretch, told⟩ :=
    @Probe.Wired.settle (checker.note (.started config)).probe
      ⟨fresh.wired.clock, fresh.wired.data, fresh.wired.distinct, fresh.wired.weakClock,
        fresh.wired.weakData⟩ fresh.weakClock fresh.weakData _
      (fresh.due (Nat.zero_lt_of_lt settled)) ⟨rfl, Nat.zero_lt_of_lt settled⟩ rfl
      config.settleTime (Nat.zero_le _) settled range
  refine ⟨{
    config
    probe
    protocol := { checker.protocol with phase := .stopped, previous := .stopped } }, ?_, ?_⟩
  · unfold Checker.startUp
    rw [fresh.config, through]
    rfl
  · exact {
      protocol := by rw [fresh.protocol]
      wired := wired
      stage := place
      cycle := kin.cycle.trans fresh.cycle
      weakClock := (congrArg Lines.weakClock lines).trans fresh.weakClock
      stretch := stretch.trans fresh.stretch
      detector := detector.trans (congrArg (EdgeDetector.prime · true true) fresh.detector)
      findings := told.trans ((Journal.findings_cons_of_none rfl _).trans fresh.findings) }

variable {config : Config} {cycle delay : Nat} {rest : List Step}

theorem Ready.underway (ready : checker.Ready config delay rest cycle)
    (inTime : checker.watch.2.InTime) (inRange : checker.watch.1 ≠ .overflow .add) :
    checker.Underway := by
  refine ⟨ready.wired, ?_, ?_, inTime, inRange⟩
  · rw [ready.weakClock, ready.stretch]
    rfl
  · rw [ready.detector]
    exact ⟨⟨nofun, nofun⟩, ⟨nofun, nofun⟩⟩

end Checker

namespace Setting

variable {setting : Setting} {config : Config} {cycle delay : Nat} {rest : List Step}
  {checker : Checker Simulation}

theorem account_of_ready (ready : checker.Ready config delay rest cycle)
    (underway : checker.Underway)
    (held : setting.faultless →
      config.speedClass? = some setting.speed ∧ config.expectedSpeed = none) :
    setting.Account checker checker.protocol.core [] := by
  refine ⟨underway, rfl, ?_, ?_, ?_⟩
  · unfold Checker.talk
    rw [ready.findings]
    rfl
  · intro _
    unfold Checker.Clean
    rw [ready.findings]
    nofun
  · intro faultless
    obtain ⟨speed, unjudged⟩ := held faultless
    rw [ready.protocol]
    exact ⟨speed, unjudged⟩

theorem idle_of_ready {moves : List Move} (ready : checker.Ready config delay rest cycle)
    (paced : Paced setting.timing setting.slack moves rest) (settled : config.settleTime < delay)
    (underway : checker.Underway)
    (held : setting.faultless →
      config.speedClass? = some setting.speed ∧ config.expectedSpeed = none) :
    setting.Idle checker ((Stage.opening delay rest).moveTo config.settleTime)
      checker.protocol.core {} moves := by
  have paused : ((Stage.opening delay rest).moveTo config.settleTime).Paused := ⟨rfl, settled⟩
  refine ⟨⟨account_of_ready ready underway held, ?_, paused, rfl, rfl⟩, ?_, rfl, rfl, paced, rfl,
    rfl, ?_⟩
  · apply Checker.quiet_of_stage ready.stage (Stage.due_of_paused paused)
    · rw [ready.detector]
      rfl
    · rw [ready.detector]
      rfl
  · rw [ready.protocol]
    rfl
  · rw [ready.detector]
    nofun

theorem idle_of_fresh {idle : Nat} {moves : List Move} {program : List Step}
    (fresh : checker.Fresh config program cycle)
    (paced : Paced setting.timing setting.slack (.pause idle :: moves) program)
    (fits : program.all Step.fits = true) (settled : config.settleTime < idle)
    (inTime : checker.run.2.InTime) (inRange : checker.run.1 ≠ .overflow .add)
    (held : setting.faultless →
      config.speedClass? = some setting.speed ∧ config.expectedSpeed = none) :
    ∃ ready stage core, checker.startUp = .ok () ready ∧
      setting.Idle ready stage core {} moves ∧
      core.responses = ⟨config.ackSequence, config.txData⟩ := by
  obtain ⟨delay, rest, lengthened, rfl, paced'⟩ := paced.of_pause (by omega)
  have settled := Nat.lt_of_lt_of_le settled lengthened.least
  have range : delay < Time.limit := by
    simp only [List.all_cons, Bool.and_eq_true] at fits
    exact of_decide_eq_true fits.1
  obtain ⟨checker', started, ready⟩ := fresh.startUp settled range
  have underway : checker'.Underway := by
    rw [Checker.run_of_startUp started] at inTime inRange
    exact ready.underway ⟨inTime.now, inTime.resumeAt⟩ inRange
  refine ⟨checker', _, checker'.protocol.core, started,
    idle_of_ready ready paced' settled underway held, ?_⟩
  rw [ready.protocol]
  rfl

end Setting
end TwoWire
