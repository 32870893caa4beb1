import TwoWire.Proofs.Beat

/-! Rows of clock pulses. What a row makes of the protocol and what comes of it are functions of the
core alone, and a run that goes through the row comes out with just that. -/

namespace TwoWire

inductive Sample
  | nothing
  | data
  | ack
  deriving DecidableEq, Repr

def Sample.steps : Sample → List Step
  | nothing => []
  | data => [.sampleData]
  | ack => [.sampleAck]

theorem Sample.samples (sample : Sample) : Stage.Samples sample.steps := by
  intro step mem
  cases sample with
  | nothing => cases mem
  | data => exact .inl (List.mem_singleton.mp mem)
  | ack => exact .inr (List.mem_singleton.mp mem)

structure Pulse where
  drive : Option Bool
  sample : Sample := .nothing
  deriving DecidableEq, Repr

def Pulse.moves (timing : ControllerTiming) (pulse : Pulse) : List Move :=
  Move.pulse timing pulse.drive pulse.sample.steps

/-- What comes of a row of pulses, oldest first. -/
structure Yield where
  events : List Event := []
  reads : List Bool := []
  acks : List Bool := []
  deriving DecidableEq, Repr

namespace Yield

def append (first second : Yield) : Yield where
  events := first.events ++ second.events
  reads := first.reads ++ second.reads
  acks := first.acks ++ second.acks

instance : Append Yield := ⟨append⟩

@[simp] theorem mk_append (events events' : List Event) (reads reads' acks acks' : List Bool) :
    (⟨events, reads, acks⟩ ++ ⟨events', reads', acks'⟩ : Yield) =
      ⟨events ++ events', reads ++ reads', acks ++ acks'⟩ := rfl

@[simp] theorem empty_append (yield : Yield) : ({} : Yield) ++ yield = yield := rfl

@[simp] theorem append_empty (yield : Yield) : yield ++ ({} : Yield) = yield := by
  cases yield
  simp

theorem append_assoc (a b c : Yield) : a ++ b ++ c = a ++ (b ++ c) := by
  cases a
  cases b
  cases c
  simp

@[simp] theorem events_append (a b : Yield) : (a ++ b).events = a.events ++ b.events := rfl

@[simp] theorem reads_append (a b : Yield) : (a ++ b).reads = a.reads ++ b.reads := rfl

@[simp] theorem acks_append (a b : Yield) : (a ++ b).acks = a.acks ++ b.acks := rfl

end Yield

namespace Protocol

def pulseLevel (protocol : Protocol) (pulse : Pulse) : Bool := pulse.drive.getD protocol.wanted

def pulse (protocol : Protocol) (pulse : Pulse) : Protocol :=
  protocol.fall.rise (protocol.pulseLevel pulse)

def pulseYield (protocol : Protocol) (pulse : Pulse) : Yield where
  events := protocol.fallTalk ++ protocol.fall.riseTalk (protocol.pulseLevel pulse)
  reads := if pulse.sample = .data then [protocol.pulseLevel pulse] else []
  acks := if pulse.sample = .ack then [!protocol.pulseLevel pulse] else []

def pulses (protocol : Protocol) (row : List Pulse) : Protocol := row.foldl pulse protocol

def yield (protocol : Protocol) : List Pulse → Yield
  | [] => {}
  | first :: row => protocol.pulseYield first ++ (protocol.pulse first).yield row

/-- No pulse gives cause for complaint: the controller goes on after a refused byte with a stop
alone, and leaves the data line to us where the acknowledge is ours. -/
def Undisturbed (protocol : Protocol) : List Pulse → Prop
  | [] => True
  | first :: row =>
    (protocol.afterNack = false ∨ protocol.shifter.bits ≠ 1) ∧
      (protocol.phase = .byteDone → protocol.acknowledging = true → first.drive = none) ∧
        (protocol.pulse first).Undisturbed row

variable {protocol : Protocol}

@[simp] theorem pulses_nil (protocol : Protocol) : protocol.pulses [] = protocol := rfl

@[simp] theorem pulses_cons (protocol : Protocol) (first : Pulse) (row : List Pulse) :
    protocol.pulses (first :: row) = (protocol.pulse first).pulses row := rfl

theorem pulses_append (protocol : Protocol) (row next : List Pulse) :
    protocol.pulses (row ++ next) = (protocol.pulses row).pulses next := List.foldl_append

theorem yield_append (protocol : Protocol) (row next : List Pulse) :
    protocol.yield (row ++ next) = protocol.yield row ++ (protocol.pulses row).yield next := by
  induction row generalizing protocol with
  | nil => rfl
  | cons first row ih =>
    rw [List.cons_append, yield, yield, ih, Yield.append_assoc]
    rfl

theorem undisturbed_append (row next : List Pulse) :
    protocol.Undisturbed (row ++ next) ↔
      protocol.Undisturbed row ∧ (protocol.pulses row).Undisturbed next := by
  induction row generalizing protocol with
  | nil => simp [Undisturbed]
  | cons first row ih =>
    rw [List.cons_append, Undisturbed, Undisturbed, ih, pulses_cons]
    simp only [and_assoc]

theorem isHigh_rise (protocol : Protocol) (level : Bool) :
    (protocol.rise level).phase.isHigh = true ∧ (protocol.rise level).phase ≠ .starting := by
  unfold rise
  by_cases bit : protocol.phase = .driveBit
  · rw [if_pos bit]
    dsimp only
    by_cases full : (protocol.shifter.clock level).isComplete = true
    · rw [if_pos full]
      split <;> simp [Phase.isHigh]
    · rw [if_neg full]
      simp [Phase.isHigh]
  · rw [if_neg bit]
    cases level <;> simp [Phase.isHigh]

end Protocol

namespace Setting

/-- The clock is high, and the program is about to pull it low and to go on with `moves`. -/
structure Beating (setting : Setting) (checker : Checker Simulation) (stage : Stage)
    (core : Protocol) (got : Yield) (moves : List Move) : Prop
    extends Up setting checker stage core got.events where
  high : core.phase.isHigh = true
  paced : Paced setting.timing setting.slack (Move.pullLow .clock :: moves) stage.program
  reads : stage.readBits = got.reads.reverse
  acks : stage.ackBits = got.acks.reverse
  clockHigh : setting.faultless → ∀ start, checker.probe.detector.clock.changedAt = some start →
    start + setting.speed.limits.clockHighMin ≤ stage.resumeAt
  startHold : setting.faultless → core.phase = .starting →
    ∀ start, checker.probe.detector.data.changedAt = some start →
      start + setting.speed.limits.startHoldMin ≤ stage.resumeAt

variable {setting : Setting} {checker : Checker Simulation} {stage : Stage} {core : Protocol}
  {got : Yield} {moves : List Move}

theorem Beating.beat {level : Option Bool} {sample : Sample} {dwell : Nat}
    (beating : setting.Beating checker stage core got
      (.lowPhase level :: .act .waitClockHigh :: (sample.steps.map .act ++ .pause dwell :: moves)))
    (positive : 0 < dwell)
    (quiet : setting.faultless → core.afterNack = false ∨ core.shifter.bits ≠ 1)
    (alone : setting.faultless → core.phase = .byteDone → core.acknowledging = true →
      level = none) :
    ∃ after stage', checker.watch = after.watch ∧
      setting.Up after stage' (core.pulse ⟨level, sample⟩)
        (got ++ core.pulseYield ⟨level, sample⟩).events ∧
      Paced setting.timing setting.slack moves stage'.program ∧
      stage'.readBits = (got ++ core.pulseYield ⟨level, sample⟩).reads.reverse ∧
      stage'.ackBits = (got ++ core.pulseYield ⟨level, sample⟩).acks.reverse ∧
      stage'.dataPeer = level ∧ stage'.weakData = core.wanted ∧
      ∀ start, after.probe.detector.clock.changedAt = some start →
        start + dwell ≤ stage'.resumeAt := by
  obtain ⟨first, second, third, rest, fits, fits', fits'', paced, program⟩ :=
    beating.paced.of_pulse setting.early positive
  have least := fits''.least
  obtain ⟨after, time, watch, up, rose⟩ := beating.toUp.beat beating.high
    ⟨sample.samples, by omega, first, second, fits, fits', program⟩ beating.clockHigh
    beating.startHold quiet alone
  refine ⟨after, ({ stage with dataPeer := level, weakData := core.wanted } : Stage).risen
    sample.steps third rest time, watch, ?_, paced, ?_, ?_, rfl, rfl, ?_⟩
  · have := up
    simp only [List.append_assoc] at this
    exact this
  · unfold Stage.risen Stage.sampled
    rw [Yield.reads_append, List.reverse_append, ← beating.reads]
    cases sample <;> rfl
  · unfold Stage.risen Stage.sampled
    rw [Yield.acks_append, List.reverse_append, ← beating.acks]
    cases sample <;> rfl
  · intro start known
    rw [rose] at known
    cases known
    exact Nat.add_le_add_left least _

theorem Beating.pulse {pulse : Pulse}
    (beating : setting.Beating checker stage core got (pulse.moves setting.timing ++ moves))
    (quiet : setting.faultless → core.afterNack = false ∨ core.shifter.bits ≠ 1)
    (alone : setting.faultless → core.phase = .byteDone → core.acknowledging = true →
      pulse.drive = none) :
    ∃ after stage', checker.watch = after.watch ∧
      setting.Beating after stage' (core.pulse pulse) (got ++ core.pulseYield pulse) moves := by
  have moves_eq : pulse.moves setting.timing ++ moves =
      .lowPhase pulse.drive :: .act .waitClockHigh :: (pulse.sample.steps.map .act ++
        .pause setting.timing.clockHigh :: Move.pullLow .clock :: moves) := by
    simp [Pulse.moves, Move.pulse]
  rw [moves_eq] at beating
  obtain ⟨after, stage', watch, up, paced, reads, acks, -, -, since⟩ :=
    beating.beat setting.clockHigh quiet alone
  obtain ⟨high, begun⟩ := core.fall.isHigh_rise (core.pulseLevel pulse)
  refine ⟨after, stage', watch, up, high, paced, reads, acks, ?_, ?_⟩
  · intro faultless start known
    have := (setting.keeps faultless).clockHigh
    have := since start known
    omega
  · intro _ starting
    exact absurd starting begun

theorem Beating.pulses (row : List Pulse)
    (beating : setting.Beating checker stage core got
      (row.flatMap (Pulse.moves setting.timing) ++ moves))
    (undisturbed : setting.faultless → core.Undisturbed row) :
    ∃ after stage', checker.watch = after.watch ∧
      setting.Beating after stage' (core.pulses row) (got ++ core.yield row) moves := by
  induction row generalizing checker stage core got with
  | nil =>
    refine ⟨checker, stage, rfl, ?_⟩
    rw [Protocol.yield, Yield.append_empty]
    exact beating
  | cons first row ih =>
    rw [List.flatMap_cons, List.append_assoc] at beating
    obtain ⟨next, stage', watch, beating'⟩ := beating.pulse
      (fun faultless => (undisturbed faultless).1) (fun faultless => (undisturbed faultless).2.1)
    obtain ⟨after, stage'', watch', played⟩ :=
      ih beating' (fun faultless => (undisturbed faultless).2.2)
    rw [Yield.append_assoc] at played
    exact ⟨after, stage'', watch.trans watch', played⟩

end Setting
end TwoWire
