import TwoWire.Checker.Progress
import TwoWire.Proofs.Follow
import TwoWire.Proofs.Talk

/-! A clock pulse as the protocol goes through it. The answers to its edges are functions of the
core, which leaves out what serves the reports alone. -/

namespace TwoWire

/-- The clock is high, and its fall goes on with the byte in flight. -/
def Phase.isHigh : Phase → Bool
  | .starting | .sampleBit | .byteDone | .acked | .nacked => true
  | _ => false

def Phase.isLow : Phase → Bool
  | .driveBit | .driveAck | .ackSent => true
  | _ => false

namespace Protocol

open Note

def core (protocol : Protocol) : Protocol :=
  { protocol with meter := {}, previous := .stopped, activityReported := false }

def fall (protocol : Protocol) : Protocol :=
  if protocol.phase = .byteDone then
    if protocol.acknowledging then
      { protocol with responses := protocol.responses.nextAck.2, phase := .ackSent }
    else { protocol with phase := .driveAck }
  else { protocol with phase := .driveBit }

/-- What we hold the data line at once the clock has fallen. -/
def wanted (protocol : Protocol) : Bool :=
  if protocol.phase = .byteDone then !protocol.acknowledging || !protocol.responses.nextAck.1
  else protocol.shifter.outgoingLevel

def fallTalk (protocol : Protocol) : List Event :=
  if protocol.phase = .byteDone ∧ protocol.acknowledging = true then
    [if protocol.responses.nextAck.1 then .sendingAck else .sendingNack]
  else []

def rise (protocol : Protocol) (level : Bool) : Protocol :=
  if protocol.phase = .driveBit then
    let clocked := { protocol with phase := .sampleBit, shifter := protocol.shifter.clock level }
    if clocked.shifter.isComplete then
      match clocked.shifter.incoming with
      | some byte => { clocked.byteReceived byte with phase := .byteDone }
      | none => { clocked.byteSent with phase := .byteDone }
    else clocked
  else
    { (if protocol.acknowledging then protocol else protocol.peerAnswered level).endByte level with
      phase := if level then .nacked else .acked }

def riseTalk (protocol : Protocol) (level : Bool) : List Event :=
  if protocol.phase = .driveBit then
    let shifter := protocol.shifter.clock level
    if shifter.isComplete then
      match shifter.incoming with
      | some byte =>
        .byteReceived byte ::
          if protocol.byteCount = 0 then
            [.transactionStarted (.ofAddressByte byte) (byte >>> 1)]
          else []
      | none => [.byteSent]
    else []
  else if protocol.acknowledging then []
  else if level then [.peerNack, .waitingForStop]
  else [.peerAck]

def begun (protocol : Protocol) : Protocol :=
  { protocol.beginTransaction with phase := .starting }

def ended (protocol : Protocol) : Protocol :=
  { protocol with phase := .stopped, afterNack := false }

variable {protocol : Protocol} {view : View} {edge : Edge} {stretches : Bool}

@[simp] theorem phase_core (protocol : Protocol) : protocol.core.phase = protocol.phase := rfl

theorem core_byteReceived (protocol : Protocol) (byte : UInt8) (phase : Phase) :
    ({ protocol.byteReceived byte with phase } : Protocol).core =
      { protocol.core.byteReceived byte with phase } := by
  by_cases first : protocol.byteCount = 0
  · cases direction : Direction.ofAddressByte byte <;>
      simp [byteReceived, command, core, first, direction]
  · simp [byteReceived, core, first]

theorem core_rise (protocol : Protocol) (level : Bool) :
    (protocol.rise level).core = protocol.core.rise level := by
  unfold rise
  by_cases bit : protocol.phase = .driveBit
  · by_cases full : (protocol.shifter.clock level).isComplete = true
    · cases incoming : (protocol.shifter.clock level).incoming with
      | none => simp [core, bit, full, incoming, byteSent]
      | some byte =>
        have same := core_byteReceived { protocol with
          phase := .sampleBit
          shifter := protocol.shifter.clock level } byte .byteDone
        simp only [phase_core, bit, if_true, full, incoming]
        refine same.trans ?_
        simp [core, full, incoming]
    · simp [core, bit, full]
  · by_cases ours : protocol.acknowledging = true
    · simp [core, bit, ours, endByte]
    · cases level <;> simp [core, bit, ours, endByte, peerAnswered]

def fallPhase (protocol : Protocol) : Phase :=
  if protocol.phase = .byteDone then .driveAck else .driveBit

def risePhase (protocol : Protocol) : Phase :=
  if protocol.phase = .driveBit then .sampleBit else .sampleAck

theorem core_follow_fall (protocol : Protocol) (view : View) :
    (protocol.follow view protocol.fallPhase).protocol.core = protocol.core.fall := by
  unfold fallPhase
  by_cases done : protocol.phase = .byteDone
  · by_cases ours : protocol.acknowledging = true
    · rw [if_pos done, follow_driveAck_of_ours ours]
      simp [fall, core, done, ours]
    · rw [if_pos done, follow_driveAck_of_theirs (by simpa using ours)]
      simp [fall, core, done, ours]
  · rw [if_neg done, follow_driveBit]
    simp [fall, core, done]

theorem drive?_follow_fall (protocol : Protocol) (view : View) :
    (protocol.follow view protocol.fallPhase).drive? = some protocol.wanted := by
  unfold fallPhase wanted
  by_cases done : protocol.phase = .byteDone
  · rw [if_pos done, if_pos done, drive?_follow_driveAck]
  · rw [if_neg done, if_neg done, drive?_follow_driveBit]

theorem talk_follow_driveBit (protocol : Protocol) (view : View) :
    talk (protocol.follow view .driveBit).notes = [] := by
  unfold follow enter arrive onDriveBit
  dsimp only
  split <;> simp

theorem talk_follow_driveAck (protocol : Protocol) (view : View) :
    talk (protocol.follow view .driveAck).notes =
      if protocol.acknowledging then
        [if protocol.responses.nextAck.1 then .sendingAck else .sendingNack]
      else [] := by
  unfold follow enter arrive onDriveAck
  dsimp only
  by_cases ours : protocol.acknowledging = true
  · cases protocol.responses.nextAck.1 <;> simp [ours, Finding.spoken?]
  · simp [ours]

theorem talk_follow_fall (protocol : Protocol) (view : View) :
    talk (protocol.follow view protocol.fallPhase).notes = protocol.fallTalk := by
  unfold fallPhase fallTalk
  by_cases done : protocol.phase = .byteDone
  · rw [if_pos done, talk_follow_driveAck]
    simp [done]
  · rw [if_neg done, talk_follow_driveBit]
    simp [done]

theorem talk_onByteDone (protocol : Protocol) (notes : List Note) :
    talk (protocol.onByteDone notes).notes = talk notes ++
      match protocol.shifter.incoming with
      | some byte =>
        .byteReceived byte ::
          if protocol.byteCount = 0 then
            [.transactionStarted (.ofAddressByte byte) (byte >>> 1)]
          else []
      | none => [.byteSent] := by
  unfold onByteDone receivedNotes
  cases protocol.shifter.incoming with
  | none => simp [Finding.spoken?]
  | some byte => by_cases first : protocol.byteCount = 0 <;> simp [Finding.spoken?, first]

theorem forced?_onByteDone (protocol : Protocol) (notes : List Note) :
    (protocol.onByteDone notes).forced? = some .byteDone := by
  unfold onByteDone
  split <;> rfl

@[simp] theorem talk_setupNotes (protocol : Protocol) (view : View) :
    talk (protocol.setupNotes view) = [] := by
  unfold setupNotes
  split
  · exact talk_measure ..
  · rfl

theorem talk_follow_sampleBit (protocol : Protocol) (view : View) :
    talk (protocol.follow view .sampleBit).notes =
      if (protocol.shifter.clock (view.level .data)).isComplete then
        match (protocol.shifter.clock (view.level .data)).incoming with
        | some byte =>
          .byteReceived byte ::
            if protocol.byteCount = 0 then
              [.transactionStarted (.ofAddressByte byte) (byte >>> 1)]
            else []
        | none => [.byteSent]
      else [] := by
  have stray : ∀ stray : Bool,
      talk (if stray then [Note.fault .activityAfterNack] else []) = [] := by
    intro stray
    cases stray <;> rfl
  unfold follow enter arrive onSampleBit
  dsimp only
  by_cases full : (protocol.shifter.clock (view.level .data)).isComplete = true
  · simp only [full, if_true, forced?_onByteDone, talk_append, talk_mismatch, talk_onByteDone]
    simp [stray]
  · simp [full, stray]

theorem core_follow_rise (protocol : Protocol) (view : View) :
    (protocol.follow view protocol.risePhase).protocol.core =
      protocol.core.rise (view.level .data) := by
  unfold risePhase
  by_cases bit : protocol.phase = .driveBit
  · rw [if_pos bit]
    cases full : (protocol.shifter.clock (view.level .data)).isComplete with
    | false =>
      rw [follow_sampleBit_of_incomplete full]
      simp [sampled, rise, core, bit, full]
    | true =>
      cases incoming : (protocol.shifter.clock (view.level .data)).incoming with
      | none =>
        rw [follow_sampleBit_of_sent full incoming]
        simp [sampled, rise, core, bit, full, incoming, byteSent]
      | some byte =>
        rw [follow_sampleBit_of_received full incoming]
        refine (core_byteReceived (protocol.sampled (view.level .data)) byte .byteDone).trans ?_
        simp [sampled, rise, core, bit, full, incoming]
  · rw [if_neg bit, follow_sampleAck, ← core_rise]
    simp [rise, bit, core]

theorem drive?_follow_rise (protocol : Protocol) (view : View) :
    (protocol.follow view protocol.risePhase).drive? = none := by
  apply drive?_follow_of_not_drives
  unfold risePhase
  split <;> decide

theorem talk_follow_rise (protocol : Protocol) (view : View) :
    talk (protocol.follow view protocol.risePhase).notes =
      protocol.riseTalk (view.level .data) := by
  unfold risePhase riseTalk
  by_cases bit : protocol.phase = .driveBit
  · rw [if_pos bit, if_pos bit]
    exact talk_follow_sampleBit protocol view
  · rw [if_neg bit, if_neg bit]
    unfold follow enter arrive onSampleAck ackNotes
    dsimp only
    by_cases ours : protocol.acknowledging = true
    · by_cases peer : view.driver .data = .peer <;> cases view.level .data <;> simp [ours, peer]
    · cases view.level .data <;> simp [ours, Finding.spoken?]

theorem fits_of_low {phase : Phase} (h : phase.isLow = true) (low : view.level .clock = false) :
    view.Fits phase := by
  intro line level expected
  cases phase <;> cases line <;> simp_all [Phase.isLow, Phase.expected]

theorem fits_of_high {phase : Phase} (h : phase = .sampleBit ∨ phase = .sampleAck ∨
    phase = .checkStartStop) (high : view.level .clock = true) : view.Fits phase := by
  intro line level expected
  rcases h with rfl | rfl | rfl <;> cases line <;> simp_all [Phase.expected]

theorem clean_enter {phase : Phase} (fits : view.Fits phase)
    (h : Clean ({ protocol with previous := protocol.phase, phase }.arrive view).notes) :
    Clean (protocol.enter view phase).notes := by
  unfold enter
  dsimp only
  rw [mismatch_of_fits fits, mismatch_of_fits fits]
  exact h

theorem clean_follow {phase : Phase} (first : Clean (protocol.enter view phase).notes)
    (second : ∀ forced, (protocol.enter view phase).forced? = some forced →
      Clean ((protocol.enter view phase).protocol.enter
        (view.driven (protocol.enter view phase).drive?) forced).notes) :
    Clean (protocol.follow view phase).notes := by
  unfold follow
  dsimp only
  split
  case h_1 => exact first
  case h_2 forced known => exact clean_append first (second forced known)

theorem clean_enter_silent {phase : Phase}
    (h : phase = .byteDone ∨ phase = .acked ∨ phase = .nacked) (protocol : Protocol)
    (view : View) : Clean (protocol.enter view phase).notes := by
  rcases h with rfl | rfl | rfl <;> exact clean_nil

theorem level_driven (view : View) (drive? : Option Bool) :
    (view.driven drive?).level .clock = view.level .clock := by
  cases drive? <;> rfl

variable {speed : SpeedClass}

theorem clean_follow_driveBit (class_ : protocol.speed = some speed) (early : view.now < Time.half)
    (low : view.level .clock = false) (repeated : protocol.phase ≠ .repeatStart)
    (held : protocol.phase = .starting → ∀ start, view.data.changedAt = some start →
      start + speed.limits.startHoldMin ≤ view.now) :
    Clean (protocol.follow view .driveBit).notes := by
  apply clean_enter (fits_of_low rfl low)
  unfold arrive onDriveBit followsStart
  dsimp only
  by_cases start : protocol.phase = .starting
  · rw [start]
    exact clean_judge class_ rfl early (held start)
  · rw [if_neg (by simp [start, repeated])]
    exact clean_nil

theorem clean_follow_driveAck (protocol : Protocol) (low : view.level .clock = false) :
    Clean (protocol.follow view .driveAck).notes := by
  apply clean_follow
  · apply clean_enter (fits_of_low rfl low)
    unfold arrive onDriveAck
    dsimp only
    split
    · exact clean_event clean_nil
    · exact clean_nil
  · intro forced known
    have ackSent : forced = .ackSent := by
      unfold enter arrive onDriveAck at known
      dsimp only at known
      split at known <;> cases known
      rfl
    rw [ackSent]
    exact clean_enter (fits_of_low rfl ((level_driven ..).trans low)) clean_nil

theorem clean_follow_fall (class_ : protocol.speed = some speed) (early : view.now < Time.half)
    (low : view.level .clock = false) (high : protocol.phase.isHigh = true)
    (held : protocol.phase = .starting → ∀ start, view.data.changedAt = some start →
      start + speed.limits.startHoldMin ≤ view.now) :
    Clean (protocol.follow view protocol.fallPhase).notes := by
  unfold fallPhase
  split
  · exact clean_follow_driveAck protocol low
  · refine clean_follow_driveBit class_ early low ?_ held
    intro repeated
    rw [repeated] at high
    cases high

theorem clean_onByteDone {notes : List Note} (clean : Clean notes)
    (unjudged : protocol.expectedSpeed = none) : Clean (protocol.onByteDone notes).notes := by
  unfold onByteDone receivedNotes
  split
  · refine clean_append clean (clean_event (clean_append (clean_speedNotes unjudged) ?_))
    split
    · exact clean_event clean_nil
    · exact clean_nil
  · exact clean_append clean (clean_event (clean_speedNotes unjudged))

theorem clean_follow_sampleBit (class_ : protocol.speed = some speed)
    (unjudged : protocol.expectedSpeed = none) (early : view.now < Time.half)
    (high : view.level .clock = true)
    (setup : ∀ start, view.data.changedAt = some start →
      start + speed.limits.dataSetupMin ≤ view.now)
    (quiet : protocol.afterNack = false ∨ protocol.shifter.bits ≠ 1) :
    Clean (protocol.follow view .sampleBit).notes := by
  have setUp : ∀ protocol : Protocol, protocol.speed = some speed →
      Clean (protocol.setupNotes view) := by
    intro protocol class_
    unfold setupNotes
    split
    · exact clean_judge class_ rfl early setup
    · exact clean_nil
  have calm : ({ protocol with
      previous := protocol.phase
      phase := .sampleBit
      shifter := protocol.shifter.clock (view.level .data) } : Protocol).strayActivity = false := by
    unfold strayActivity Shifter.clock Shifter.bitsPerByte
    rcases quiet with answered | other
    · simp [answered]
    · have : min (protocol.shifter.bits + 1) 8 ≠ 2 := by omega
      simp [this]
  apply clean_follow
  · apply clean_enter (fits_of_high (.inl rfl) high)
    unfold arrive onSampleBit
    dsimp only
    rw [calm]
    have notes := clean_append
      (setUp { protocol with previous := protocol.phase, phase := .sampleBit } class_) clean_nil
    split
    · exact clean_onByteDone notes unjudged
    · exact notes
  · intro forced known
    have byteDone : forced = .byteDone := by
      unfold enter arrive onSampleBit at known
      dsimp only at known
      split at known
      · rw [forced?_onByteDone] at known
        cases known
        rfl
      · cases known
    exact clean_enter_silent (.inl byteDone) _ _

theorem clean_follow_sampleAck (high : view.level .clock = true)
    (alone : protocol.acknowledging = true → view.driver .data = .ours) :
    Clean (protocol.follow view .sampleAck).notes := by
  apply clean_follow
  · apply clean_enter (fits_of_high (.inr (.inl rfl)) high)
    unfold arrive onSampleAck ackNotes
    dsimp only
    split
    case isTrue ours =>
      rw [alone ours]
      exact clean_nil
    case isFalse =>
      split
      · exact clean_event (clean_event clean_nil)
      · exact clean_event clean_nil
  · intro forced known
    apply clean_enter_silent
    unfold enter arrive onSampleAck at known
    dsimp only at known
    split at known <;> cases known <;> simp

theorem clean_follow_rise (class_ : protocol.speed = some speed)
    (unjudged : protocol.expectedSpeed = none) (early : view.now < Time.half)
    (high : view.level .clock = true)
    (setup : ∀ start, view.data.changedAt = some start →
      start + speed.limits.dataSetupMin ≤ view.now)
    (quiet : protocol.afterNack = false ∨ protocol.shifter.bits ≠ 1)
    (alone : protocol.phase ≠ .driveBit → protocol.acknowledging = true →
      view.driver .data = .ours) :
    Clean (protocol.follow view protocol.risePhase).notes := by
  unfold risePhase
  split
  case isTrue => exact clean_follow_sampleBit class_ unjudged early high setup quiet
  case isFalse other => exact clean_follow_sampleAck high (alone other)

/-- A move of the data line while the clock is low leaves everything as we hold it. -/
theorem follow_low (low : protocol.phase.isLow = true) {weak : Bool}
    (steady : protocol.holds weak = true) (view : View) :
    (protocol.follow view protocol.phase).protocol.core = protocol.core ∧
      (protocol.follow view protocol.phase).drive?.getD weak = weak ∧
      talk (protocol.follow view protocol.phase).notes = [] := by
  unfold holds at steady
  cases phase : protocol.phase with
  | driveBit =>
    rw [phase] at steady
    refine ⟨?_, ?_, talk_follow_driveBit ..⟩
    · rw [follow_driveBit]
      simp [core, phase]
    · rw [drive?_follow_driveBit]
      exact (beq_iff_eq.mp steady).symm
  | driveAck =>
    rw [phase] at steady
    obtain ⟨theirs, free⟩ : protocol.acknowledging = false ∧ weak = true := by simpa using steady
    refine ⟨?_, ?_, ?_⟩
    · rw [follow_driveAck_of_theirs theirs]
      simp [core, phase]
    · rw [drive?_follow_driveAck]
      simp [theirs, free]
    · rw [talk_follow_driveAck]
      simp [theirs]
  | ackSent =>
    refine ⟨?_, rfl, ?_⟩
    · rw [follow_ackSent]
      simp [core, phase]
    · unfold follow enter arrive
      simp
  | _ =>
    rw [phase] at low
    cases low

theorem clean_follow_low (class_ : protocol.speed = some speed) (early : view.now < Time.half)
    (low : view.level .clock = false) (phase : protocol.phase.isLow = true) :
    Clean (protocol.follow view protocol.phase).notes := by
  cases known : protocol.phase with
  | driveBit => exact clean_follow_driveBit class_ early low (by simp [known]) (by simp [known])
  | driveAck => exact clean_follow_driveAck protocol low
  | ackSent => exact clean_enter (fits_of_low rfl low) clean_nil
  | _ =>
    rw [known] at phase
    cases phase

theorem clean_between {param : TimingParam} {least : Nat} {start? stop? : Option Nat}
    (class_ : protocol.speed = some speed) (bound : param.bound speed.limits = .min least)
    (h : ∀ stop, stop? = some stop → stop < Time.half ∧
      ∀ start, start? = some start → start + least ≤ stop) :
    Clean (Note.measureBetween (protocol.judge param) start? stop?) := by
  cases stop? with
  | none => exact clean_nil
  | some stop =>
    obtain ⟨early, apart⟩ := h stop rfl
    exact clean_judge class_ bound early apart

theorem core_follow_starting (protocol : Protocol) (view : View) :
    (protocol.follow view .starting).protocol.core = protocol.core.begun := rfl

theorem talk_follow_starting (protocol : Protocol) (view : View) :
    talk (protocol.follow view .starting).notes = [.startBit] := by
  unfold follow enter arrive onStart
  simp [Finding.spoken?]

theorem clean_follow_starting (class_ : protocol.speed = some speed) (early : view.now < Time.half)
    (clock : view.level .clock = true) (data : view.level .data = false)
    (setup : ∀ stop, view.data.changedAt = some stop → stop ≤ view.now ∧
      ∀ start, view.clock.changedAt = some start → start + speed.limits.startSetupMin ≤ stop)
    (free : ∀ start, view.data.previousChange = some start →
      start + speed.limits.busFreeMin ≤ view.now) :
    Clean (protocol.follow view .starting).notes := by
  have fits : view.Fits .starting := by
    intro line level expected
    cases line <;> simp_all [Phase.expected]
  apply clean_enter fits
  refine clean_event
    (clean_append (clean_between class_ rfl ?_) (clean_judge class_ rfl early free))
  intro stop known
  obtain ⟨past, apart⟩ := setup stop known
  exact ⟨by omega, apart⟩

theorem core_follow_stop (protocol : Protocol) {view : View} (high : view.data.level = true) :
    (protocol.follow view .checkStartStop).protocol.core = protocol.core.ended := by
  rw [follow_checkStartStop_of_stop high]
  rfl

theorem talk_follow_stop (protocol : Protocol) {view : View} (high : view.data.level = true) :
    talk (protocol.follow view .checkStartStop).notes = [.stopBit] := by
  unfold follow enter arrive onCheckStartStop onStopped
  dsimp only
  cases midByte : protocol.shifter.bits != 1 <;> simp [high, Finding.spoken?]

theorem clean_follow_stop (class_ : protocol.speed = some speed) (clock : view.level .clock = true)
    (data : view.level .data = true) (high : view.data.level = true)
    (first : protocol.shifter.bits = 1)
    (setup : ∀ stop, view.data.changedAt = some stop → stop < Time.half ∧
      ∀ start, view.clock.changedAt = some start → start + speed.limits.stopSetupMin ≤ stop) :
    Clean (protocol.follow view .checkStartStop).notes := by
  apply clean_follow
  · apply clean_enter (fits_of_high (.inr (.inr rfl)) clock)
    unfold arrive onCheckStartStop
    dsimp only
    rw [if_pos high]
    simp [first, clean_nil]
  · intro forced known
    have stopped : forced = .stopped := by
      unfold enter arrive onCheckStartStop at known
      dsimp only at known
      rw [if_pos high] at known
      cases known
      rfl
    have undriven : (protocol.enter view .checkStartStop).drive? = none :=
      drive?_onCheckStartStop ..
    have kept : (protocol.enter view .checkStartStop).protocol.speed = some speed := by
      unfold enter arrive onCheckStartStop
      dsimp only
      rw [if_pos high]
      exact class_
    have fits : view.Fits .stopped := by
      intro line level expected
      cases line <;> simp_all [Phase.expected]
    rw [stopped, undriven]
    exact clean_enter fits (clean_event (clean_between kept rfl setup))

theorem successor_of_high (high : protocol.phase.isHigh = true) (detector : EdgeDetector) :
    protocol.successor detector .clock = protocol.fallPhase := by
  unfold successor fallPhase
  cases phase : protocol.phase <;> simp_all [Phase.isHigh, Phase.next]

theorem successor_of_low (low : protocol.phase.isLow = true) (detector : EdgeDetector) :
    protocol.successor detector .clock = protocol.risePhase ∧
      protocol.successor detector .data = protocol.phase := by
  unfold successor risePhase
  cases phase : protocol.phase <;> simp_all [Phase.isLow, Phase.next]

theorem measured_eq (protocol : Protocol) (view : View) (edge : Edge) :
    ∃ meter, protocol.measured view edge = { protocol with meter } := by
  unfold measured
  split
  · exact ⟨_, rfl⟩
  · exact ⟨protocol.meter, rfl⟩

theorem level_held_clock (low : view.level .clock = false) (edge : Edge) (stretches : Bool) :
    (view.held edge stretches).level .clock = false := by
  unfold View.held
  split
  · unfold View.level Lines.level Lines.reading at low ⊢
    dsimp only at low ⊢
    cases peer : view.sight.peer .clock with
    | none => rfl
    | some level =>
      rw [peer] at low
      exact low
  · exact low

theorem held_of_not_falls (h : view.falls edge = false) : view.held edge stretches = view := by
  simp [View.held, h]

theorem answer_fall (high : protocol.phase.isHigh = true) (line : edge.line = .clock)
    (view : View) (stretches : Bool) :
    (protocol.answer stretches view edge).protocol.core = protocol.core.fall ∧
      (protocol.answer stretches view edge).drive? = some protocol.wanted ∧
      talk (protocol.answer stretches view edge).notes = protocol.fallTalk := by
  obtain ⟨meter, measured⟩ := protocol.measured_eq view edge
  unfold answer
  rw [measured, line, successor_of_high high]
  refine ⟨?_, ?_, ?_⟩
  · exact core_follow_fall { protocol with meter } _
  · exact drive?_follow_fall { protocol with meter } _
  · simp only [talk_append, talk_edgeNotes, talk_simultaneousNotes, List.nil_append]
    exact talk_follow_fall { protocol with meter } _

theorem clean_answer_fall (high : protocol.phase.isHigh = true)
    (class_ : protocol.speed = some speed) (early : view.now < Time.half)
    (low : view.level .clock = false) (fell : view.clock.level = false)
    (clockHigh : ∀ start, view.clock.previousChange = some start →
      start + speed.limits.clockHighMin ≤ view.now)
    (held : protocol.phase = .starting → ∀ start, view.data.changedAt = some start →
      start + speed.limits.startHoldMin ≤ view.now) :
    Clean (protocol.answer stretches view .clock).notes := by
  obtain ⟨meter, measured⟩ := protocol.measured_eq view .clock
  have same := view.detector_held .clock stretches
  have now : (view.held .clock stretches).now = view.now :=
    congrArg Sight.now (view.sight_held .clock stretches)
  unfold answer
  rw [measured, show Edge.clock.line = .clock from rfl, successor_of_high high]
  refine clean_append (clean_append ?_ clean_nil) ?_
  · unfold edgeNotes
    dsimp only [Edge.line]
    rw [fell]
    exact clean_judge class_ rfl early clockHigh
  · refine @clean_follow_fall { protocol with meter } _ speed class_ (now ▸ early)
      (level_held_clock low .clock stretches) high ?_
    rw [now, View.data, same]
    exact held

theorem answer_rise (low : protocol.phase.isLow = true) (line : edge.line = .clock)
    (rose : view.clock.level = true) (stretches : Bool) :
    (protocol.answer stretches view edge).protocol.core =
        protocol.core.rise (view.level .data) ∧
      (protocol.answer stretches view edge).drive? = none ∧
      talk (protocol.answer stretches view edge).notes =
        protocol.riseTalk (view.level .data) := by
  have falls : view.falls edge = false := by simp [View.falls, rose]
  unfold answer
  rw [held_of_not_falls falls, measured, falls, line, (successor_of_low low _).1]
  refine ⟨core_follow_rise .., drive?_follow_rise .., ?_⟩
  simp only [talk_append, talk_edgeNotes, talk_simultaneousNotes, List.nil_append]
  exact talk_follow_rise ..

theorem clean_answer_rise (low : protocol.phase.isLow = true)
    (class_ : protocol.speed = some speed) (unjudged : protocol.expectedSpeed = none)
    (early : view.now < Time.half) (rose : view.clock.level = true)
    (high : view.level .clock = true)
    (clockLow : ∀ start, view.clock.previousChange = some start →
      start + speed.limits.clockLowMin ≤ view.now)
    (setup : ∀ start, view.data.changedAt = some start →
      start + speed.limits.dataSetupMin ≤ view.now)
    (quiet : protocol.afterNack = false ∨ protocol.shifter.bits ≠ 1)
    (alone : protocol.phase ≠ .driveBit → protocol.acknowledging = true →
      view.driver .data = .ours) :
    Clean (protocol.answer stretches view .clock).notes := by
  have falls : view.falls .clock = false := by simp [View.falls, rose]
  unfold answer
  rw [held_of_not_falls falls, measured, falls, show Edge.clock.line = .clock from rfl,
    (successor_of_low low _).1]
  refine clean_append (clean_append ?_ clean_nil)
    (clean_follow_rise class_ unjudged early high setup quiet alone)
  unfold edgeNotes
  dsimp only [Edge.line]
  rw [rose]
  exact clean_judge class_ rfl early clockLow

theorem answer_data (protocol : Protocol) (view : View) (stretches : Bool) :
    (protocol.answer stretches view .data).protocol =
        (protocol.follow view (protocol.successor view.detector .data)).protocol ∧
      (protocol.answer stretches view .data).drive? =
        (protocol.follow view (protocol.successor view.detector .data)).drive? ∧
      (protocol.answer stretches view .data).notes = protocol.edgeNotes view .data ++
        (protocol.follow view (protocol.successor view.detector .data)).notes := by
  have falls : view.falls .data = false := rfl
  unfold answer
  rw [held_of_not_falls falls, measured, falls]
  refine ⟨rfl, rfl, ?_⟩
  simp [Checker.simultaneousNotes, Edge.line]

theorem clean_edgeNotes_high (protocol : Protocol) (high : view.clock.level = true) :
    Clean (protocol.edgeNotes view .data) := by
  unfold edgeNotes
  dsimp only [Edge.line]
  rw [high]
  exact clean_nil

theorem clean_edgeNotes_low (class_ : protocol.speed = some speed) (early : view.now < Time.half)
    (soon : ∀ start, view.clock.changedAt = some start → start ≤ view.now ∧
      ∀ most, speed.limits.dataValidMax = some most → view.now ≤ start + most) :
    Clean (protocol.edgeNotes view .data) := by
  unfold edgeNotes
  dsimp only [Edge.line]
  split
  · exact clean_nil
  · exact clean_dataValid class_ early soon

end Protocol
end TwoWire
