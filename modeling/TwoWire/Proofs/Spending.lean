import TwoWire.Proofs.Passage
import TwoWire.Proofs.Transaction

/-! What a run uses up of the scripted responses can be read off what it has reported
(`responses_of_passes`). -/

namespace TwoWire

/-- A byte of ours is asked for: a read begins, or the peer has acknowledged the one before. -/
def Event.asksByte : Event → Bool
  | .transactionStarted .read _ | .peerAck => true
  | _ => false

def Finding.decision? : Finding → Option Bool
  | .event told => told.decision?
  | .violation _ => none

def decisions (findings : List Finding) : List Bool := findings.filterMap Finding.decision?

theorem decisions_append (first second : List Finding) :
    decisions (first ++ second) = decisions first ++ decisions second :=
  List.filterMap_append

namespace Note

theorem decisions_findings (notes : List Note) :
    decisions (findings notes) = (talk notes).filterMap Event.decision? := by
  unfold talk
  rw [List.filterMap_filterMap]
  refine List.filterMap_congr fun finding _ => ?_
  cases finding with
  | violation broken => rfl
  | event told => cases told <;> rfl

theorem told_prefix (notes : List Note) : told notes <+: findings notes := by
  induction notes with
  | nil => exact List.prefix_rfl
  | cons note rest ih =>
    cases note with
    | overflow kind => exact List.nil_prefix
    | found finding => exact (List.prefix_cons_inj finding).mpr ih

end Note

namespace Responses

theorem after_after (responses : Responses) (acks bytes moreAcks moreBytes : Nat) :
    (responses.after acks bytes).after moreAcks moreBytes =
      responses.after (acks + moreAcks) (bytes + moreBytes) := by
  unfold after
  rw [List.drop_drop, List.drop_drop]

theorem nextAck_eq (responses : Responses) :
    responses.nextAck = (responses.ackAt 0, responses.after 1 0) :=
  responses.nextAck_after 0 0

theorem nextByte_eq (responses : Responses) :
    responses.nextByte = (responses.byteAt 0, responses.after 0 1) :=
  responses.nextByte_after 0 0

end Responses

namespace Protocol

open Note

variable (protocol : Protocol) (view : View)

theorem talk_follow (phase : Phase) :
    talk (protocol.follow view phase).notes =
      protocol.phaseTalk view phase ++
        match (protocol.enter view phase).forced? with
        | none => []
        | some forced => (protocol.enter view phase).protocol.phaseTalk
            (view.driven (protocol.enter view phase).drive?) forced := by
  cases forced : (protocol.enter view phase).forced? with
  | none =>
    rw [follow_of_settled forced, talk_enter]
    exact (List.append_nil _).symm
  | some next =>
    rw [follow_of_forced forced]
    dsimp only
    rw [talk_append, talk_enter, talk_enter]

/-- What is used up of the responses where so much is told. -/
def Spends (before : Responses) (talk : List Event) (after : Responses) : Prop :=
  after = before.after (talk.filterMap Event.decision?).length (talk.countP Event.asksByte)

variable {protocol view}

theorem frugal_of_rests {phase : Phase} (h : rests phase = true) :
    (protocol.phaseTalk view phase).filterMap Event.decision? = [] ∧
      (protocol.phaseTalk view phase).countP Event.asksByte = 0 := by
  cases phase <;> first | exact ⟨rfl, rfl⟩ | cases h

theorem frugal_of_forced {phase forced : Phase}
    (h : (protocol.enter view phase).forced? = some forced) (later : View) :
    ((protocol.enter view phase).protocol.phaseTalk later forced).filterMap Event.decision? = [] ∧
      ((protocol.enter view phase).protocol.phaseTalk later forced).countP Event.asksByte = 0 :=
  frugal_of_rests (rests_of_forced h).1

/-- Of the phases an answer enters, the first alone tells of a decision or asks for a byte. -/
theorem frugal_follow (phase : Phase) :
    (talk (protocol.follow view phase).notes).filterMap Event.decision? =
        (protocol.phaseTalk view phase).filterMap Event.decision? ∧
      (talk (protocol.follow view phase).notes).countP Event.asksByte =
        (protocol.phaseTalk view phase).countP Event.asksByte := by
  rw [talk_follow]
  cases forced : (protocol.enter view phase).forced? with
  | none => exact ⟨by rw [List.append_nil], by rw [List.append_nil]⟩
  | some next =>
    obtain ⟨decided, asked⟩ := frugal_of_forced forced
      (view.driven (protocol.enter view phase).drive?)
    refine ⟨?_, ?_⟩
    · rw [List.filterMap_append, decided, List.append_nil]
    · rw [List.countP_append, asked, Nat.add_zero]

theorem decisions_phaseTalk (phase : Phase) :
    (protocol.phaseTalk view phase).filterMap Event.decision? =
      if phase = .driveAck ∧ protocol.acknowledging = true then [protocol.responses.nextAck.1]
      else [] := by
  cases phase with
  | driveAck =>
    unfold phaseTalk
    dsimp only
    cases protocol.acknowledging with
    | false => rfl
    | true => cases protocol.responses.nextAck.1 <;> rfl
  | sampleBit =>
    unfold phaseTalk byteTalk
    dsimp only
    split
    · split
      · split <;> rfl
      · rfl
    · rfl
  | sampleAck =>
    unfold phaseTalk
    dsimp only
    split
    · rfl
    · split <;> rfl
  | _ => rfl

theorem spends_command (protocol : Protocol) (byte : UInt8) :
    Spends protocol.responses
      [.transactionStarted (.ofAddressByte byte) (byte >>> 1)] (protocol.command byte).responses := by
  unfold Spends command
  cases Direction.ofAddressByte byte with
  | write => rfl
  | read =>
    dsimp only
    rw [Responses.nextByte_eq]
    rfl

theorem spends_byteReceived (protocol : Protocol) {byte : UInt8} {shifter : Shifter}
    (received : shifter.incoming = some byte) :
    Spends protocol.responses (protocol.byteTalk shifter) (protocol.byteReceived byte).responses := by
  unfold byteTalk byteReceived
  rw [received]
  dsimp only
  split
  · exact spends_command { protocol with acknowledging := true, meter := {} } byte
  · rfl

theorem spends_phase (protocol : Protocol) (view : View) (phase : Phase) :
    Spends protocol.responses (protocol.phaseTalk view phase)
      (protocol.follow view phase).protocol.responses := by
  cases phase with
  | sampleBit =>
    unfold phaseTalk
    dsimp only
    cases full : (protocol.shifter.clock (view.level .data)).isComplete with
    | false =>
      rw [follow_sampleBit_of_incomplete full]
      rfl
    | true =>
      rw [if_pos rfl]
      cases incoming : (protocol.shifter.clock (view.level .data)).incoming with
      | some byte =>
        rw [follow_sampleBit_of_received full incoming]
        exact (protocol.sampled (view.level .data)).spends_byteReceived incoming
      | none =>
        rw [follow_sampleBit_of_sent full incoming]
        unfold byteTalk
        rw [incoming]
        rfl
  | checkStartStop =>
    cases rose : view.data.level with
    | true =>
      rw [follow_checkStartStop_of_stop rose]
      rfl
    | false =>
      rw [follow_checkStartStop_of_start rose]
      rfl
  | driveAck =>
    unfold phaseTalk
    cases ours : protocol.acknowledging with
    | false =>
      rw [follow_driveAck_of_theirs ours]
      rfl
    | true =>
      rw [follow_driveAck_of_ours ours, Responses.nextAck_eq]
      cases protocol.responses.ackAt 0 <;> rfl
  | sampleAck =>
    rw [follow_sampleAck]
    unfold phaseTalk endByte peerAnswered
    cases protocol.acknowledging with
    | true => rfl
    | false =>
      cases view.level .data with
      | true => rfl
      | false =>
        dsimp only
        rw [Responses.nextByte_eq]
        rfl
  | stopped | starting | driveBit | byteDone | ackSent | acked | nacked | repeatStart | illegal =>
    rfl

variable (stretches : Bool) (edge : Edge)

theorem talk_answer :
    talk (protocol.answer stretches view edge).notes =
      talk ((protocol.measured view edge).follow (view.held edge stretches)
        (protocol.successor view.detector edge.line)).notes := by
  unfold answer
  dsimp only
  rw [talk_append, talk_append, talk_edgeNotes, talk_simultaneousNotes]
  rfl

theorem responses_measured : (protocol.measured view edge).responses = protocol.responses := by
  unfold measured
  split <;> rfl

theorem acknowledging_measured :
    (protocol.measured view edge).acknowledging = protocol.acknowledging := by
  unfold measured
  split <;> rfl

theorem spends_answer (protocol : Protocol) (stretches : Bool) (view : View) (edge : Edge) :
    Spends protocol.responses (talk (protocol.answer stretches view edge).notes)
      (protocol.answer stretches view edge).protocol.responses := by
  have spends := (protocol.measured view edge).spends_phase (view.held edge stretches)
    (protocol.successor view.detector edge.line)
  unfold Spends at spends ⊢
  rw [responses_measured] at spends
  rw [talk_answer, (frugal_follow _).1, (frugal_follow _).2]
  exact spends

theorem decisions_answer :
    decisions (findings (protocol.answer stretches view edge).notes) =
      if protocol.successor view.detector edge.line = .driveAck ∧ protocol.acknowledging = true then
        [protocol.responses.nextAck.1]
      else [] := by
  rw [decisions_findings, talk_answer, (frugal_follow _).1, decisions_phaseTalk,
    acknowledging_measured, responses_measured]

end Protocol

namespace Checker

variable {β : Type} [LineBus β]

theorem countP_asksByte (notes : List Note) :
    (Note.findings notes).countP (Finding.shows Event.asksByte) =
      (Note.talk notes).countP Event.asksByte :=
  Finding.countP_shows (fun _ => rfl) _

/-- What is left of the responses can be read off what has been reported. -/
theorem responses_of_passes {first next : Checker β} {told : List Finding} {entered : List Phase}
    (passes : first.Passes told entered next) :
    next.protocol.responses = first.protocol.responses.after (decisions told).length
      (told.countP (Finding.shows Event.asksByte)) := by
  induction passes with
  | none => rfl
  | @turn before _ _ _ _ turned ih =>
    rcases replied_or_waited turned with ⟨change, committed, -, replied⟩ | waited
    · have spends := before.protocol.spends_answer before.probe.stretch.isEnabled
        (before.sees change) change.edge
      rw [replied.protocol, replied.reported, decisions_append, List.length_append,
        List.countP_append, Note.decisions_findings, countP_asksByte, ← Responses.after_after, ← ih]
      exact spends
    · rw [waited.reported, List.append_nil, waited.protocol]
      exact ih

theorem decisions_reported {before : Checker β}
    (lasts : before.protocol.phase.Lasts before.probe.detector) :
    decisions before.reported = [] ∨
      decisions before.reported = [before.protocol.responses.nextAck.1] := by
  rcases before.commits_or_silent with ⟨change, committed, commits⟩ | ⟨silent, -⟩
  case inr =>
    rw [reported_of_silent silent]
    exact .inl rfl
  case inl =>
    obtain ⟨notes, error?, extent, told, -⟩ := extent_of_commits commits
    rw [told]
    rcases Protocol.told_of_extent (suits_of_commits lasts commits) extent with
      whole | ⟨rfl, -⟩
    · have early := (Note.told_prefix (before.reply change).notes).filterMap Finding.decision?
      have all : decisions (Note.findings (before.reply change).notes) = _ :=
        Protocol.decisions_answer _ _
      change decisions (Note.told _) <+: decisions (Note.findings _) at early
      rw [whole]
      rw [all] at early
      split at early
      · rcases List.prefix_cons_iff.mp early with none | ⟨rest, one, none⟩
        · exact .inl none
        · rw [List.prefix_nil.mp none] at one
          exact .inr one
      · exact .inl (List.prefix_nil.mp early)
    · have early := (Note.told_prefix
        (before.protocol.edgeNotes (before.sees change) change.edge)).filterMap Finding.decision?
      change decisions (Note.told _) <+: decisions (Note.findings _) at early
      rw [Note.decisions_findings, Protocol.talk_edgeNotes] at early
      exact .inl (List.prefix_nil.mp early)

theorem decisions_extend {responses : Responses} {made : List Bool} {more : List Bool}
    (inOrder : made = (List.range made.length).map responses.ackAt)
    (next : more = [] ∨ more = [responses.ackAt made.length]) :
    made ++ more = (List.range (made ++ more).length).map responses.ackAt := by
  rcases next with rfl | rfl
  · rw [List.append_nil]
    exact inOrder
  · rw [List.length_append, List.length_singleton, List.range_succ, List.map_append, ← inOrder]
    rfl

theorem decisions_of_passes {checker ready next : Checker β} {told : List Finding}
    {entered : List Phase} (idle : checker.startUp = .ok () ready)
    (passes : ready.Passes told entered next) :
    decisions (told ++ next.reported) =
      (List.range (decisions (told ++ next.reported)).length).map
        ready.protocol.responses.ackAt := by
  have step {told : List Finding} {entered : List Phase} {before : Checker β}
      (early : ready.Passes told entered before)
      (inOrder : decisions told =
        (List.range (decisions told).length).map ready.protocol.responses.ackAt) :
      decisions (told ++ before.reported) =
        (List.range (decisions (told ++ before.reported)).length).map
          ready.protocol.responses.ackAt := by
    obtain ⟨n, run⟩ := early.turns
    have next := decisions_reported (lasts_turns idle run)
    rw [responses_of_passes early, Responses.nextAck_after] at next
    rw [decisions_append]
    exact decisions_extend inOrder next
  refine step passes ?_
  induction passes with
  | none => rfl
  | turn early _ ih => exact step early ih

end Checker
end TwoWire
