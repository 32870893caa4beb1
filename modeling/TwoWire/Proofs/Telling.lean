import TwoWire.Proofs.Clocked
import TwoWire.Proofs.Course

/-! Which events an answer tells of: each phase has its own, so an event that is told shows the
phase that tells it. -/

namespace TwoWire

namespace Event

def isByte : Event → Bool
  | .byteReceived _ | .byteSent => true
  | _ => false

def isFraming : Event → Bool
  | .startBit | .repeatedStart | .stopBit => true
  | _ => false

end Event

namespace Finding

def shows (p : Event → Bool) : Finding → Bool
  | .event told => p told
  | .violation _ => false

theorem countP_shows {p : Event → Bool} (quiet : ∀ kbps, p (.speed kbps) = false)
    (findings : List Finding) :
    findings.countP (shows p) = (findings.filterMap spoken?).countP p := by
  induction findings with
  | nil => rfl
  | cons finding rest ih =>
    cases finding with
    | violation broken =>
      rw [List.countP_cons_of_neg (by simp [shows]), ih]
      rfl
    | event told =>
      cases told with
      | speed kbps =>
        rw [List.countP_cons_of_neg (by simp [shows, quiet]), ih]
        rfl
      | _ =>
        rw [List.countP_cons, ih]
        exact (List.countP_cons ..).symm

end Finding

/-- The condition on the bus that a phase stands for, as it is told of on entry. -/
def Phase.condition? : Phase → Option Event
  | .stopped => some .stopBit
  | .starting => some .startBit
  | .repeatStart => some .repeatedStart
  | _ => none

namespace Note

theorem mem_talk {notes : List Note} {event : Event} (h : .event event ∈ told notes)
    (spoken : ∀ kbps, event ≠ .speed kbps) : event ∈ talk notes := by
  have noted := mem_of_mem_told h
  refine List.mem_filterMap.mpr ⟨.event event, List.mem_filterMap.mpr ⟨_, noted, rfl⟩, ?_⟩
  cases event with
  | speed kbps => exact absurd rfl (spoken kbps)
  | _ => rfl

end Note

namespace Protocol

open Note

/-- What the eighth bit of a byte tells of. -/
def byteTalk (protocol : Protocol) (shifter : Shifter) : List Event :=
  match shifter.incoming with
  | some byte =>
    .byteReceived byte ::
      if protocol.byteCount = 0 then [.transactionStarted (.ofAddressByte byte) (byte >>> 1)]
      else []
  | none => [.byteSent]

/-- The events that a phase tells of on entry, but for the speed of a byte. -/
def phaseTalk (protocol : Protocol) (view : View) : Phase → List Event
  | .stopped => [.stopBit]
  | .starting => [.startBit]
  | .repeatStart => [.repeatedStart]
  | .sampleBit =>
    if (protocol.shifter.clock (view.level .data)).isComplete then
      protocol.byteTalk (protocol.shifter.clock (view.level .data))
    else []
  | .driveAck =>
    if protocol.acknowledging then
      [if protocol.responses.nextAck.1 then .sendingAck else .sendingNack]
    else []
  | .sampleAck =>
    if protocol.acknowledging then []
    else if view.level .data then [.peerNack, .waitingForStop]
    else [.peerAck]
  | _ => []

theorem talk_enter (protocol : Protocol) (view : View) (phase : Phase) :
    talk (protocol.enter view phase).notes = protocol.phaseTalk view phase := by
  unfold enter arrive phaseTalk
  dsimp only
  rw [talk_append, talk_append, talk_mismatch, talk_mismatch, List.nil_append, List.nil_append]
  cases phase with
  | stopped | starting | repeatStart => simp [onStopped, onStart, Finding.spoken?]
  | driveBit =>
    unfold onDriveBit
    dsimp only
    split <;> simp
  | sampleBit =>
    have stray : ∀ stray : Bool,
        talk (if stray then [Note.fault .activityAfterNack] else []) = [] := by
      intro stray
      cases stray <;> rfl
    unfold onSampleBit
    dsimp only
    split
    · rw [talk_onByteDone, talk_append, talk_setupNotes, stray]
      rfl
    · rw [talk_append, talk_setupNotes, stray]
      rfl
  | checkStartStop =>
    unfold onCheckStartStop
    dsimp only
    split <;> dsimp only <;> split <;> rfl
  | driveAck =>
    unfold onDriveAck
    by_cases ours : protocol.acknowledging = true
    · cases given : protocol.responses.nextAck.1 <;> simp [ours, given, Finding.spoken?]
    · simp [ours]
  | sampleAck =>
    unfold onSampleAck ackNotes
    dsimp only
    cases protocol.acknowledging with
    | false => cases view.level .data <;> rfl
    | true =>
      by_cases peer : view.driver .data = .peer
      · rw [if_pos rfl, if_pos peer]
        rfl
      · rw [if_pos rfl, if_neg peer]
        rfl
  | illegal =>
    unfold onIllegal
    dsimp only
    split <;> rfl
  | byteDone | ackSent | acked | nacked => rfl

variable {protocol : Protocol} {stretches : Bool} {view : View} {edge : Edge}

theorem mem_byteTalk {shifter : Shifter} {event : Event} (h : event ∈ protocol.byteTalk shifter) :
    event.isFraming = false ∧
      ∀ byte, event = .byteReceived byte → shifter.incoming = some byte := by
  unfold byteTalk at h
  split at h
  case h_1 received incoming =>
    rcases List.mem_cons.mp h with rfl | h
    · refine ⟨rfl, ?_⟩
      rintro _ ⟨⟩
      exact incoming
    · split at h
      · cases List.mem_singleton.mp h
        exact ⟨rfl, nofun⟩
      · cases h
  case h_2 =>
    cases List.mem_singleton.mp h
    exact ⟨rfl, nofun⟩

theorem mem_phaseTalk {phase : Phase} {event : Event} (h : event ∈ protocol.phaseTalk view phase) :
    phase.condition? = some event ∨
      (phase = .sampleBit ∧ (protocol.shifter.clock (view.level .data)).isComplete = true ∧
        event ∈ protocol.byteTalk (protocol.shifter.clock (view.level .data))) ∨
      (event.isByte = false ∧ event.isFraming = false) := by
  unfold phaseTalk at h
  split at h
  case h_4 =>
    split at h
    case isTrue full => exact .inr (.inl ⟨rfl, full, h⟩)
    case isFalse => cases h
  case h_5 =>
    split at h
    · rw [List.mem_singleton.mp h]
      exact .inr (.inr (by split <;> decide))
    · cases h
  case h_6 =>
    split at h
    · cases h
    · split at h <;> simp at h <;> rcases h with rfl | rfl <;> exact .inr (.inr (by decide))
  case h_7 => cases h
  all_goals
    rw [List.mem_singleton.mp h]
    exact .inl rfl

/-- An event that is told is told by the phase that the edge leads to or by the one that this
forces, and that phase has been entered. -/
theorem mem_phaseTalk_of_extent {left : Protocol} {notes : List Note} {phases : List Phase}
    {error? : Option BusError} {event : Event}
    (extent : protocol.Extent stretches view edge left notes phases error?)
    (told : event ∈ talk notes) :
    (protocol.successor view.detector edge.line ∈ phases ∧
        event ∈ (protocol.measured view edge).phaseTalk (view.held edge stretches)
          (protocol.successor view.detector edge.line)) ∨
      ∃ forced, (protocol.landing stretches view edge).forced? = some forced ∧
        phases = [protocol.successor view.detector edge.line, forced] ∧
        event ∈ (protocol.landing stretches view edge).protocol.phaseTalk
          ((view.held edge stretches).driven (protocol.landing stretches view edge).drive?)
          forced := by
  have start : talk (protocol.edgeNotes view edge ++ Checker.simultaneousNotes edge) = [] := by
    simp
  have landed : talk (protocol.landing stretches view edge).notes =
      (protocol.measured view edge).phaseTalk (view.held edge stretches)
        (protocol.successor view.detector edge.line) := talk_enter ..
  cases extent with
  | judged =>
    rw [talk_edgeNotes] at told
    cases told
  | unread | refused | settled =>
    rw [talk_append, start, landed] at told
    exact .inl ⟨List.mem_singleton_self _, told⟩
  | forced _ _ next =>
    rw [notes_answer, talk_append, talk_append, start, landed] at told
    rcases List.mem_append.mp told with told | told
    · exact .inl ⟨List.mem_cons_self, told⟩
    · unfold forcedNotes at told
      dsimp only at told
      rw [next] at told
      dsimp only at told
      rw [talk_enter] at told
      exact .inr ⟨_, next, rfl, told⟩

end Protocol
end TwoWire
