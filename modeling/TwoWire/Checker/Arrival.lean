import TwoWire.Checker.Protocol

/-! Which phases drive the data line, and which force another one. A forced phase does neither. -/

namespace TwoWire.Protocol

theorem phase_command (protocol : Protocol) (byte : UInt8) :
    (protocol.command byte).phase = protocol.phase := by
  unfold command
  split <;> rfl

theorem phase_byteReceived (protocol : Protocol) (byte : UInt8) :
    (protocol.byteReceived byte).phase = protocol.phase := by
  unfold byteReceived
  dsimp only
  split
  · exact phase_command ..
  · rfl

theorem phase_onByteDone (protocol : Protocol) (notes : List Note) :
    (protocol.onByteDone notes).protocol.phase = protocol.phase := by
  unfold onByteDone
  split
  · exact phase_byteReceived ..
  · rfl

theorem phase_onSampleBit (protocol : Protocol) (view : View) :
    (protocol.onSampleBit view).protocol.phase = protocol.phase := by
  unfold onSampleBit
  dsimp only
  split
  · exact phase_onByteDone ..
  · rfl

theorem phase_onSampleAck (protocol : Protocol) (view : View) :
    (protocol.onSampleAck view).protocol.phase = protocol.phase := by
  unfold onSampleAck endByte
  dsimp only
  split
  · rfl
  · unfold peerAnswered
    split <;> rfl

theorem phase_onDriveAck (protocol : Protocol) :
    protocol.onDriveAck.protocol.phase = protocol.phase := by
  unfold onDriveAck
  split <;> rfl

theorem phase_onCheckStartStop (protocol : Protocol) (view : View) :
    (protocol.onCheckStartStop view).protocol.phase = protocol.phase := by
  unfold onCheckStartStop
  dsimp only
  split <;> rfl

theorem phase_arrive (protocol : Protocol) (view : View) :
    (protocol.arrive view).protocol.phase = protocol.phase := by
  unfold arrive
  split
  case h_4 => exact phase_onSampleBit ..
  case h_5 => exact phase_onCheckStartStop ..
  case h_6 => exact phase_onDriveAck ..
  case h_7 => exact phase_onSampleAck ..
  all_goals rfl

@[simp] theorem phase_enter (protocol : Protocol) (view : View) (phase : Phase) :
    (protocol.enter view phase).protocol.phase = phase :=
  phase_arrive _ view

theorem drive?_onSampleBit (protocol : Protocol) (view : View) :
    (protocol.onSampleBit view).drive? = none := by
  unfold onSampleBit onByteDone
  dsimp only
  split
  · split <;> rfl
  · rfl

theorem drive?_onCheckStartStop (protocol : Protocol) (view : View) :
    (protocol.onCheckStartStop view).drive? = none := by
  unfold onCheckStartStop
  dsimp only
  split <;> rfl

def Drives (phase : Phase) : Prop := phase = .driveBit ∨ phase = .driveAck

instance (phase : Phase) : Decidable (Drives phase) := inferInstanceAs (Decidable (_ ∨ _))

theorem drive?_enter (protocol : Protocol) (view : View) {phase : Phase} (h : ¬Drives phase) :
    (protocol.enter view phase).drive? = none := by
  unfold enter arrive
  dsimp only
  cases phase with
  | driveBit => exact absurd (.inl rfl) h
  | driveAck => exact absurd (.inr rfl) h
  | sampleBit => exact drive?_onSampleBit ..
  | checkStartStop => exact drive?_onCheckStartStop ..
  | stopped | starting | byteDone | ackSent | sampleAck | acked | nacked | repeatStart | illegal =>
    rfl

def rests : Phase → Bool
  | .sampleBit | .checkStartStop | .driveAck | .sampleAck => false
  | _ => true

theorem forced?_enter_of_rests (protocol : Protocol) (view : View) {phase : Phase}
    (h : rests phase) : (protocol.enter view phase).forced? = none := by
  unfold enter arrive
  dsimp only
  cases phase <;> first | rfl | cases h

theorem rests_of_forced {protocol : Protocol} {view : View} {phase forced : Phase}
    (h : (protocol.enter view phase).forced? = some forced) :
    rests forced ∧ ¬Drives forced := by
  cases phase with
  | sampleBit =>
    unfold enter arrive onSampleBit onByteDone at h
    dsimp only at h
    split at h
    · split at h <;> cases h <;> decide
    · cases h
  | checkStartStop =>
    unfold enter arrive onCheckStartStop at h
    dsimp only at h
    split at h
    · cases h
      decide
    · split at h <;> cases h <;> decide
  | driveAck =>
    unfold enter arrive onDriveAck at h
    dsimp only at h
    split at h
    · cases h
      decide
    · cases h
  | sampleAck =>
    unfold enter arrive onSampleAck at h
    dsimp only at h
    split at h <;> cases h <;> decide
  | stopped | starting | driveBit | byteDone | ackSent | acked | nacked | repeatStart | illegal =>
    cases h

end TwoWire.Protocol
