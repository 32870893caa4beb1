import TwoWire.Proofs.Answer

/-! Where each phase leads: one equation for every phase that an edge can lead to, with the one that
it forces. -/

namespace TwoWire.Protocol

variable (protocol : Protocol) (view : View)

theorem follow_stopped : (protocol.follow view .stopped).protocol =
    { protocol with previous := protocol.phase, phase := .stopped, afterNack := false } := rfl

theorem follow_illegal : (protocol.follow view .illegal).protocol =
    { protocol with previous := protocol.phase, phase := .illegal } := rfl

theorem follow_driveBit : (protocol.follow view .driveBit).protocol =
    { protocol with previous := protocol.phase, phase := .driveBit } := rfl

theorem follow_ackSent : (protocol.follow view .ackSent).protocol =
    { protocol with previous := protocol.phase, phase := .ackSent } := rfl

theorem drive?_follow (phase : Phase) :
    (protocol.follow view phase).drive? = (protocol.enter view phase).drive? := by
  unfold follow
  dsimp only
  split <;> rfl

def sampled (level : Bool) : Protocol :=
  let clocked := { protocol with
    previous := protocol.phase
    phase := .sampleBit
    shifter := protocol.shifter.clock level }
  { clocked with activityReported := clocked.activityReported || clocked.strayActivity }

theorem notes_onByteDone (notes : List Note) :
    (protocol.onByteDone notes).notes = notes ++ (protocol.onByteDone []).notes := by
  unfold onByteDone
  split <;> rfl

theorem arrive_sampleBit :
    (({ protocol with previous := protocol.phase, phase := .sampleBit } : Protocol).arrive
      view).notes =
      protocol.setupNotes view ++
        (if ({ protocol with shifter := protocol.shifter.clock (view.level .data) } :
            Protocol).strayActivity then [.fault .activityAfterNack] else []) ++
        if (protocol.shifter.clock (view.level .data)).isComplete then
          ((protocol.sampled (view.level .data)).onByteDone []).notes
        else [] := by
  unfold arrive onSampleBit
  dsimp only
  cases (protocol.shifter.clock (view.level .data)).isComplete with
  | true =>
    rw [if_pos rfl, if_pos rfl, notes_onByteDone]
    rfl
  | false =>
    rw [if_neg Bool.false_ne_true, if_neg Bool.false_ne_true, List.append_nil]
    rfl

variable {protocol view}

theorem follow_sampleBit_of_incomplete
    (h : (protocol.shifter.clock (view.level .data)).isComplete = false) :
    (protocol.follow view .sampleBit).protocol = protocol.sampled (view.level .data) := by
  unfold follow enter arrive onSampleBit
  dsimp only
  simp only [h]
  rfl

theorem follow_sampleBit_of_received {byte : UInt8}
    (h : (protocol.shifter.clock (view.level .data)).isComplete = true)
    (received : (protocol.shifter.clock (view.level .data)).incoming = some byte) :
    (protocol.follow view .sampleBit).protocol =
      { (protocol.sampled (view.level .data)).byteReceived byte with
        previous := .sampleBit, phase := .byteDone } := by
  have phase := phase_byteReceived (protocol.sampled (view.level .data)) byte
  unfold follow enter arrive onSampleBit onByteDone
  dsimp only
  simp only [h, received, if_true]
  change { (protocol.sampled (view.level .data)).byteReceived byte with
    previous := ((protocol.sampled (view.level .data)).byteReceived byte).phase,
    phase := .byteDone } = _
  rw [phase]
  rfl

theorem follow_sampleBit_of_sent
    (h : (protocol.shifter.clock (view.level .data)).isComplete = true)
    (sent : (protocol.shifter.clock (view.level .data)).incoming = none) :
    (protocol.follow view .sampleBit).protocol =
      { (protocol.sampled (view.level .data)).byteSent with
        previous := .sampleBit, phase := .byteDone } := by
  unfold follow enter arrive onSampleBit onByteDone
  dsimp only
  simp only [h, sent, if_true]
  rfl

theorem follow_sampleBit_of_complete
    (full : (protocol.shifter.clock (view.level .data)).isComplete = true) :
    (protocol.follow view .sampleBit).protocol =
      { ((protocol.sampled (view.level .data)).onByteDone []).protocol with
        previous := .sampleBit, phase := .byteDone } := by
  unfold onByteDone
  cases incoming : (protocol.shifter.clock (view.level .data)).incoming with
  | some byte =>
    rw [follow_sampleBit_of_received full incoming,
      show (protocol.sampled (view.level .data)).shifter.incoming = some byte from incoming]
  | none =>
    rw [follow_sampleBit_of_sent full incoming,
      show (protocol.sampled (view.level .data)).shifter.incoming = none from incoming]

theorem follow_checkStartStop_of_stop (h : view.data.level = true) :
    (protocol.follow view .checkStartStop).protocol =
      { protocol with previous := .checkStartStop, phase := .stopped, afterNack := false } := by
  unfold follow enter arrive onCheckStartStop
  dsimp only [View.data] at h ⊢
  simp only [h, if_true]
  rfl

theorem follow_checkStartStop_of_start (h : view.data.level = false) :
    (protocol.follow view .checkStartStop).protocol =
      { protocol.beginTransaction with
        previous := .checkStartStop
        phase := if protocol.shifter.bits = 1 then .repeatStart else .starting } := by
  unfold follow enter arrive onCheckStartStop
  dsimp only [View.data] at h ⊢
  simp only [h]
  by_cases first : protocol.shifter.bits = 1
  · simp [first, View.driven, beginTransaction, onStart]
  · simp [first, View.driven, beginTransaction, onStart]

theorem follow_driveAck_of_ours (h : protocol.acknowledging = true) :
    (protocol.follow view .driveAck).protocol =
      { protocol with
        responses := protocol.responses.nextAck.2
        previous := .driveAck
        phase := .ackSent } := by
  unfold follow enter arrive onDriveAck
  dsimp only
  simp only [h, if_true]

theorem follow_driveAck_of_theirs (h : protocol.acknowledging = false) :
    (protocol.follow view .driveAck).protocol =
      { protocol with previous := protocol.phase, phase := .driveAck } := by
  unfold follow enter arrive onDriveAck
  dsimp only
  simp only [h]
  rfl

theorem drive?_follow_driveBit :
    (protocol.follow view .driveBit).drive? = some protocol.shifter.outgoingLevel := rfl

theorem drive?_follow_driveAck : (protocol.follow view .driveAck).drive? =
    some (!protocol.acknowledging || !protocol.responses.nextAck.1) := by
  rw [drive?_follow]
  unfold enter arrive onDriveAck
  dsimp only
  cases protocol.acknowledging <;> rfl

theorem drive?_follow_of_not_drives {phase : Phase} (h : ¬Drives phase) :
    (protocol.follow view phase).drive? = none := by
  rw [drive?_follow]
  exact drive?_enter protocol view h

theorem follow_sampleAck : (protocol.follow view .sampleAck).protocol =
    { (if protocol.acknowledging then protocol
        else protocol.peerAnswered (view.level .data)).endByte (view.level .data) with
      previous := .sampleAck
      phase := if view.level .data then .nacked else .acked } := by
  unfold follow enter arrive onSampleAck
  dsimp only
  cases nack : view.level .data <;> cases ours : protocol.acknowledging <;>
    simp [endByte, peerAnswered, ours]

theorem forced?_enter_sampleBit : (protocol.enter view .sampleBit).forced? =
    if (protocol.shifter.clock (view.level .data)).isComplete then some .byteDone else none := by
  unfold enter arrive onSampleBit onByteDone
  dsimp only
  split
  · split <;> rfl
  · rfl

theorem forced?_enter_checkStartStop : (protocol.enter view .checkStartStop).forced? =
    some (if view.data.level then .stopped
      else if protocol.shifter.bits = 1 then .repeatStart else .starting) := by
  unfold enter arrive onCheckStartStop
  dsimp only
  cases view.data.level with
  | true => rfl
  | false => by_cases first : protocol.shifter.bits = 1 <;> simp [first]

theorem forced?_enter_driveAck : (protocol.enter view .driveAck).forced? =
    if protocol.acknowledging then some .ackSent else none := by
  unfold enter arrive onDriveAck
  dsimp only
  split <;> rfl

theorem forced?_enter_sampleAck : (protocol.enter view .sampleAck).forced? =
    some (if view.level .data then .nacked else .acked) := rfl

theorem forced_cases {phase forced : Phase}
    (h : (protocol.enter view phase).forced? = some forced) :
    (phase = .sampleBit ∧ (protocol.shifter.clock (view.level .data)).isComplete = true ∧
        forced = .byteDone) ∨
      (phase = .checkStartStop ∧ forced =
        if view.data.level then .stopped
        else if protocol.shifter.bits = 1 then .repeatStart else .starting) ∨
      (phase = .driveAck ∧ protocol.acknowledging = true ∧ forced = .ackSent) ∨
      (phase = .sampleAck ∧ forced = if view.level .data then .nacked else .acked) := by
  cases phase with
  | sampleBit =>
    rw [forced?_enter_sampleBit] at h
    split at h <;> cases h
    exact .inl ⟨rfl, ‹_›, rfl⟩
  | checkStartStop =>
    rw [forced?_enter_checkStartStop] at h
    exact .inr (.inl ⟨rfl, (Option.some.inj h).symm⟩)
  | driveAck =>
    rw [forced?_enter_driveAck] at h
    split at h <;> cases h
    exact .inr (.inr (.inl ⟨rfl, ‹_›, rfl⟩))
  | sampleAck =>
    cases h
    exact .inr (.inr (.inr ⟨rfl, rfl⟩))
  | stopped | starting | driveBit | byteDone | ackSent | acked | nacked | repeatStart | illegal =>
    cases h

end TwoWire.Protocol
