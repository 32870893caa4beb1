import TwoWire.Proofs.Framing
import TwoWire.Proofs.Segment

/-! What a run reports is a stream of segments. Between two edges the protocol says where the stream
stands, and an answer that is cut short leaves nothing half told (`segments_of_run`). -/

namespace TwoWire

namespace Note

/-- What notes lead to, and that nothing is left half told if they are cut short. -/
structure Tells (start : Standing) (notes : List Note) (finish : Standing) : Prop where
  whole : Standing.Hears start (findings notes) finish
  cut : ∃ last, Standing.Hears start (told notes) last ∧ last.isSettled = true

variable {start middle finish : Standing} {notes first second : List Note}

theorem tells_nil (settled : start.isSettled = true) : Tells start [] start :=
  ⟨.nil start, start, .nil start, settled⟩

theorem tells_cons {finding : Finding} (step : Standing.Step start finding middle)
    (rest : Tells middle notes finish) : Tells start (.found finding :: notes) finish := by
  obtain ⟨whole, last, cut, settled⟩ := rest
  exact ⟨.cons step whole, last, .cons step cut, settled⟩

theorem tells_append (left : Tells start first middle) (right : Tells middle second finish) :
    Tells start (first ++ second) finish := by
  refine ⟨findings_append first second ▸ left.whole.append right.whole, ?_⟩
  by_cases sound : Sound first
  case pos =>
    obtain ⟨last, cut, settled⟩ := right.cut
    rw [told_append_of_sound sound]
    exact ⟨last, left.whole.append cut, settled⟩
  case neg =>
    rw [told_append_of_not_sound sound]
    exact left.cut

theorem hears_faults {findings : List Finding} (settled : start.isSettled = true)
    (faults : ∀ finding ∈ findings, ∃ broken : Violation,
      finding = .violation broken ∧ broken.kind ≠ .illegalPhase) :
    Standing.Hears start findings start := by
  induction findings with
  | nil => exact .nil start
  | cons finding rest ih =>
    obtain ⟨broken, rfl, legal⟩ := faults finding List.mem_cons_self
    exact .cons (.fault settled legal)
      (ih fun other mem => faults other (List.mem_cons_of_mem _ mem))

theorem tells_of_within {classes : List ViolationClass} (settled : start.isSettled = true)
    (within : Within classes notes) (legal : .illegalPhase ∉ classes) :
    Tells start notes start := by
  have fault (finding : Finding) (mem : found finding ∈ notes) :
      ∃ broken : Violation, finding = .violation broken ∧ broken.kind ≠ .illegalPhase := by
    obtain ⟨broken, same, kind⟩ := within finding mem
    exact ⟨broken, same, fun illegal => legal (illegal ▸ kind)⟩
  refine ⟨hears_faults settled fun finding mem => ?_, start,
    hears_faults settled fun finding mem => fault finding (mem_of_mem_told mem), settled⟩
  obtain ⟨note, noted, same⟩ := List.mem_filterMap.mp mem
  cases note with
  | overflow => cases same
  | found other =>
    cases same
    exact fault finding noted

end Note

namespace Protocol

open Note

def direction (protocol : Protocol) : Direction :=
  if protocol.shifter.isSinking then .write else .read

def amidByte (protocol : Protocol) : Standing :=
  if protocol.byteCount = 0 then .begun else .answered protocol.direction

end Protocol

/-- Where the stream stands while a phase lasts. -/
def Phase.Stands (protocol : Protocol) (standing : Standing) : Phase → Prop
  | .stopped | .illegal => standing = .idle
  | .starting | .repeatStart => standing = .begun ∧ protocol.byteCount = 0
  | .driveBit | .sampleBit => standing = protocol.amidByte
  | .byteDone | .driveAck => standing = .unanswered protocol.direction protocol.acknowledging
  | .ackSent | .acked | .nacked => standing = .answered protocol.direction
  | .checkStartStop | .sampleAck => False

namespace Protocol

open Note

variable {protocol : Protocol} {view : View} {standing finish : Standing} {phase : Phase}

theorem settled_amidByte (protocol : Protocol) : protocol.amidByte.isSettled = true := by
  unfold amidByte
  split <;> rfl

theorem settled_of_stands (h : phase.Stands protocol standing) : standing.isSettled = true := by
  cases phase with
  | checkStartStop | sampleAck => cases h
  | starting | repeatStart => rw [h.1]; rfl
  | driveBit | sampleBit =>
    rw [show standing = _ from h]
    exact protocol.settled_amidByte
  | stopped | illegal | byteDone | driveAck | ackSent | acked | nacked =>
    rw [show standing = _ from h]
    rfl

def TellsOn (protocol : Protocol) (view : View) (standing : Standing) (phase : Phase) : Prop :=
  ∃ finish, Tells standing (protocol.follow view phase).notes finish ∧
    (protocol.follow view phase).protocol.phase.Stands (protocol.follow view phase).protocol finish

/-- The levels of the lines are looked at before anything else. -/
theorem tells_enter (settled : standing.isSettled = true)
    (h : Tells standing
      (({ protocol with previous := protocol.phase, phase } : Protocol).arrive view).notes finish) :
    Tells standing (protocol.enter view phase).notes finish :=
  tells_append
    (tells_append (tells_of_within settled (within_mismatch _ _ _) (by decide))
      (tells_of_within settled (within_mismatch _ _ _) (by decide))) h

theorem tells_silent (settled : standing.isSettled = true)
    (silent : (({ protocol with previous := protocol.phase, phase } : Protocol).arrive view).notes =
      []) : Tells standing (protocol.enter view phase).notes standing :=
  tells_enter settled (silent ▸ tells_nil settled)

theorem tells_illegal (settled : standing.isSettled = true)
    (illegal : protocol.phase = .illegal → standing = .idle) :
    protocol.TellsOn view standing .illegal := by
  refine ⟨.idle, tells_enter settled ?_, rfl⟩
  unfold arrive onIllegal
  dsimp only
  by_cases again : protocol.phase = .illegal
  · rw [if_pos again, illegal again]
    exact tells_nil rfl
  · rw [if_neg again]
    exact tells_cons (.close settled rfl) (tells_nil rfl)

theorem tells_condition {event : Event} (settled : standing.isSettled = true)
    (step : Standing.Step standing (.event event) finish) (after : finish.isSettled = true)
    (condition : phase.condition? = some event) :
    Tells standing (protocol.enter view phase).notes finish := by
  obtain ⟨rest, same, within⟩ := arrive_of_condition protocol view condition
  exact tells_enter settled (same ▸ tells_cons step (tells_of_within after within (by decide)))

theorem tells_stopped (settled : standing.isSettled = true) :
    protocol.TellsOn view standing .stopped :=
  ⟨.idle, tells_condition settled (.close settled rfl) rfl rfl, rfl⟩

theorem tells_starting (settled : standing.isSettled = true) :
    protocol.TellsOn view standing .starting :=
  ⟨.begun, tells_condition settled (.start settled rfl) rfl rfl, rfl, rfl⟩

theorem tells_checkStartStop (settled : standing.isSettled = true) :
    protocol.TellsOn view standing .checkStartStop := by
  have forces : (protocol.enter view .checkStartStop).forced? = _ := forced?_enter_checkStartStop
  have fault : Tells standing (protocol.enter view .checkStartStop).notes standing := by
    apply tells_enter settled
    rw [arrive_checkStartStop]
    split
    · exact tells_nil settled
    · exact tells_cons (.fault settled nofun) (tells_nil settled)
  unfold TellsOn
  rw [follow_of_forced forces]
  cases rose : view.data.level with
  | true =>
    exact ⟨.idle, tells_append fault
      (tells_condition settled (.close settled rfl) rfl rfl), rfl⟩
  | false =>
    by_cases first : protocol.shifter.bits = 1
    · rw [if_neg Bool.false_ne_true, if_pos first]
      exact ⟨.begun, tells_append fault
        (tells_condition settled (.start settled rfl) rfl rfl), rfl, rfl⟩
    · rw [if_neg Bool.false_ne_true, if_neg first]
      exact ⟨.begun, tells_append fault
        (tells_condition settled (.start settled rfl) rfl rfl), rfl, rfl⟩

theorem tells_driveBit : protocol.TellsOn view protocol.amidByte .driveBit := by
  have within (other : Protocol) : Within [.timing] (other.onDriveBit view).notes := by
    unfold onDriveBit
    dsimp only
    split
    · exact within_measure within_judge _ _
    · exact within_nil _
  have settled := protocol.settled_amidByte
  exact ⟨_, tells_enter settled (tells_of_within settled (within _) (by decide)), rfl⟩

theorem speeds_speedNotes (protocol : Protocol) :
    ∃ speeds, Finding.Speeds speeds ∧ protocol.speedNotes = speeds.map .found := by
  unfold speedNotes
  cases protocol.meter.throughput? with
  | none => exact ⟨[], .unknown, rfl⟩
  | some kbps =>
    dsimp only
    cases protocol.expectedSpeed with
    | none => exact ⟨_, .met (Throughput.round kbps), rfl⟩
    | some expected =>
      dsimp only
      cases Throughput.verdict? kbps expected with
      | none => exact ⟨_, .met (Throughput.round kbps), rfl⟩
      | some verdict => exact ⟨_, .broken (Throughput.round kbps) verdict _ expected, rfl⟩

theorem tells_speedNotes (settled : standing.isSettled = true) :
    Tells standing protocol.speedNotes standing := by
  obtain ⟨speeds, timed, same⟩ := protocol.speeds_speedNotes
  rw [same]
  cases timed with
  | unknown => exact tells_nil settled
  | met kbps => exact tells_cons (.speed settled kbps) (tells_nil settled)
  | broken kbps verdict measured expected =>
    exact tells_cons (.speed settled kbps)
      (tells_cons (.fault settled nofun) (tells_nil settled))

theorem tells_command (protocol : Protocol) (byte : UInt8) :
    Tells (.naming byte 0) (protocol.speedNotes ++
      [.event (.transactionStarted (.ofAddressByte byte) (byte >>> 1))])
      (.unanswered (.ofAddressByte byte) true) := by
  have named (timed : Nat) : Tells (.naming byte timed)
      [.event (.transactionStarted (.ofAddressByte byte) (byte >>> 1))]
      (.unanswered (.ofAddressByte byte) true) :=
    tells_cons (.named byte timed) (tells_nil rfl)
  obtain ⟨speeds, timed, same⟩ := protocol.speeds_speedNotes
  rw [same]
  cases timed with
  | unknown => exact named 0
  | met kbps => exact tells_cons (.timed byte kbps) (named 1)
  | broken kbps verdict measured expected =>
    exact tells_cons (.timed byte kbps)
      (tells_cons (.judged byte verdict measured expected) (named 2))

theorem direction_command (protocol : Protocol) (byte : UInt8) :
    (protocol.command byte).direction = .ofAddressByte byte := by
  unfold command direction
  cases Direction.ofAddressByte byte <;> rfl

theorem direction_of_sinking (protocol : Protocol) (h : protocol.shifter.isSinking = true) :
    protocol.direction = .write := if_pos h

theorem direction_of_not_sinking (protocol : Protocol) (h : protocol.shifter.isSinking = false) :
    protocol.direction = .read := by
  unfold direction
  rw [h]
  rfl

theorem tells_byteReceived {byte : UInt8} (sinking : protocol.shifter.isSinking = true) :
    Tells protocol.amidByte (protocol.receivedNotes byte)
      (.unanswered (protocol.byteReceived byte).direction
        (protocol.byteReceived byte).acknowledging) := by
  rw [acknowledging_byteReceived]
  unfold receivedNotes byteReceived amidByte
  dsimp only
  by_cases first : protocol.byteCount = 0
  · rw [if_pos first, if_pos first, if_pos first, direction_command]
    exact tells_cons (.first byte) (tells_command protocol byte)
  · rw [if_neg first, if_neg first, if_neg first, direction_of_sinking _ sinking,
      direction_of_sinking _ rfl, List.append_nil]
    exact tells_cons (.received byte) (tells_speedNotes rfl)

theorem tells_byteSent (sourcing : protocol.shifter.isSinking = false)
    (later : protocol.byteCount ≠ 0) :
    Tells protocol.amidByte (.event .byteSent :: protocol.speedNotes)
      (.unanswered protocol.byteSent.direction protocol.byteSent.acknowledging) := by
  unfold amidByte
  rw [if_neg later, direction_of_not_sinking _ sourcing,
    protocol.byteSent.direction_of_not_sinking sourcing]
  exact tells_cons .sent (tells_speedNotes rfl)

theorem tells_onByteDone (protocol : Protocol)
    (command : protocol.byteCount = 0 → protocol.shifter.isSinking = true) :
    Tells protocol.amidByte (protocol.onByteDone []).notes
      (.unanswered (protocol.onByteDone []).protocol.direction
        (protocol.onByteDone []).protocol.acknowledging) := by
  unfold onByteDone
  cases incoming : protocol.shifter.incoming with
  | some byte =>
    have sinking : protocol.shifter.isSinking = true := by
      unfold Shifter.isSinking
      rw [incoming]
      rfl
    exact tells_byteReceived sinking
  | none =>
    have sourcing : protocol.shifter.isSinking = false := by
      unfold Shifter.isSinking
      rw [incoming]
      rfl
    -- the first byte is always received, so this one comes after a command
    refine tells_byteSent sourcing fun first => ?_
    cases (command first).symm.trans sourcing

theorem direction_sampled (protocol : Protocol) (level : Bool) :
    (protocol.sampled level).direction = protocol.direction := by
  unfold direction
  rw [show (protocol.sampled level).shifter = protocol.shifter.clock level from rfl,
    isSinking_clock]

theorem amidByte_sampled (protocol : Protocol) (level : Bool) :
    (protocol.sampled level).amidByte = protocol.amidByte := by
  unfold amidByte
  rw [direction_sampled]
  rfl

theorem tells_sampleBit (command : protocol.byteCount = 0 → protocol.shifter.isSinking = true) :
    protocol.TellsOn view protocol.amidByte .sampleBit := by
  have settled := protocol.settled_amidByte
  have same := arrive_sampleBit protocol view
  have aside : Tells protocol.amidByte (protocol.setupNotes view ++
      if ({ protocol with shifter := protocol.shifter.clock (view.level .data) } :
        Protocol).strayActivity then [.fault .activityAfterNack] else []) protocol.amidByte := by
    refine tells_append (tells_of_within settled (within_setupNotes _ _) (by decide)) ?_
    split
    · exact tells_cons (.fault settled nofun) (tells_nil settled)
    · exact tells_nil settled
  have forces : (protocol.enter view .sampleBit).forced? = _ := forced?_enter_sampleBit
  cases full : (protocol.shifter.clock (view.level .data)).isComplete with
  | false =>
    rw [full, if_neg Bool.false_ne_true, List.append_nil] at same
    rw [full, if_neg Bool.false_ne_true] at forces
    refine ⟨protocol.amidByte, ?_, ?_⟩
    · rw [follow_of_settled forces]
      exact tells_enter settled (same ▸ aside)
    · rw [follow_sampleBit_of_incomplete full]
      exact (protocol.amidByte_sampled _).symm
  | true =>
    rw [full, if_pos rfl] at same
    rw [full, if_pos rfl] at forces
    have told := tells_onByteDone (protocol.sampled (view.level .data))
      fun first => (isSinking_clock _ _).trans (command first)
    rw [amidByte_sampled] at told
    let done := (protocol.sampled (view.level .data)).onByteDone []
    refine ⟨.unanswered done.protocol.direction done.protocol.acknowledging, ?_, ?_⟩
    · rw [follow_of_forced forces]
      exact tells_append (tells_enter settled (same ▸ tells_append aside told))
        (tells_silent rfl rfl)
    · rw [follow_sampleBit_of_complete full]
      rfl

theorem tells_driveAck :
    protocol.TellsOn view (.unanswered protocol.direction protocol.acknowledging) .driveAck := by
  have forces : (protocol.enter view .driveAck).forced? = _ := forced?_enter_driveAck
  unfold TellsOn
  cases ours : protocol.acknowledging with
  | true =>
    rw [ours, if_pos rfl] at forces
    rw [follow_driveAck_of_ours ours, follow_of_forced forces]
    refine ⟨.answered protocol.direction, ?_, rfl⟩
    have given : Event.isOurs (if protocol.responses.nextAck.1 then .sendingAck else .sendingNack) =
        true := by
      split <;> rfl
    refine tells_append (tells_enter rfl ?_) (tells_silent rfl rfl)
    unfold arrive onDriveAck
    dsimp only
    rw [ours, if_pos rfl]
    exact tells_cons (.given _ given) (tells_nil rfl)
  | false =>
    rw [ours, if_neg Bool.false_ne_true] at forces
    rw [follow_driveAck_of_theirs ours, follow_of_settled forces]
    refine ⟨.unanswered protocol.direction false, tells_silent rfl ?_, ?_⟩
    · unfold arrive onDriveAck
      dsimp only
      rw [ours, if_neg Bool.false_ne_true]
    · exact congrArg (Standing.unanswered _) ours.symm

theorem tells_ackNotes {nack : Bool} (stands : standing =
      if protocol.acknowledging then .answered protocol.direction
      else .unanswered protocol.direction false) :
    Tells standing (protocol.ackNotes view nack) (.answered protocol.direction) := by
  unfold ackNotes
  rw [stands]
  cases protocol.acknowledging with
  | true =>
    rw [if_pos rfl, if_pos rfl]
    split
    · exact tells_cons (.fault rfl nofun) (tells_nil rfl)
    · exact tells_nil rfl
  | false =>
    rw [if_neg Bool.false_ne_true, if_neg Bool.false_ne_true]
    cases nack with
    | true => exact tells_cons (.refused _) (tells_cons (.waiting _) (tells_nil rfl))
    | false => exact tells_cons (.acknowledged _) (tells_nil rfl)

theorem direction_follow_sampleAck (protocol : Protocol) (view : View) :
    (protocol.follow view .sampleAck).protocol.direction = protocol.direction := by
  rw [follow_sampleAck]
  unfold peerAnswered
  split
  · rfl
  · split <;> rfl

theorem tells_sampleAck (stands : standing =
      if protocol.acknowledging then .answered protocol.direction
      else .unanswered protocol.direction false) : protocol.TellsOn view standing .sampleAck := by
  have settled : standing.isSettled = true := by
    rw [stands]
    split <;> rfl
  refine ⟨.answered protocol.direction, ?_, ?_⟩
  · have forces : (protocol.enter view .sampleAck).forced? = _ := forced?_enter_sampleAck
    rw [follow_of_forced forces]
    refine tells_append (tells_enter settled (tells_ackNotes stands)) ?_
    cases view.level .data <;> exact tells_silent rfl rfl
  · have same := direction_follow_sampleAck protocol view
    have after : (protocol.follow view .sampleAck).protocol.phase =
        if view.level .data then .nacked else .acked := by rw [follow_sampleAck]
    rw [after]
    cases view.level .data <;> exact congrArg Standing.answered same.symm

theorem tells_answered (after : phase = .ackSent ∨ phase = .acked ∨ phase = .nacked) :
    protocol.TellsOn view (.answered protocol.direction) phase := by
  rcases after with rfl | rfl | rfl <;> exact ⟨_, tells_silent rfl rfl, rfl⟩

variable {before : EdgeDetector}

theorem tells_clock (h : Coherent protocol before)
    (stands : protocol.phase.Stands protocol standing) :
    protocol.TellsOn view standing (protocol.successor view.detector .clock) := by
  have settled := settled_of_stands stands
  cases phase : protocol.phase with
  | illegal =>
    rw [successor, if_neg (by simp), phase]
    rw [phase] at stands
    exact tells_illegal settled fun _ => stands
  | checkStartStop => exact absurd phase h.rests.1
  | sampleAck => exact absurd phase h.rests.2
  | stopped =>
    rw [successor_of_legal (by simp [phase]), phase]
    rw [phase] at stands
    exact tells_illegal settled fun _ => stands
  | starting | repeatStart =>
    rw [successor_of_legal (by simp [phase]), phase]
    rw [phase] at stands
    obtain ⟨rfl, first⟩ := stands
    have same : protocol.amidByte = .begun := if_pos first
    exact same ▸ tells_driveBit
  | acked | nacked =>
    rw [successor_of_legal (by simp [phase]), phase]
    rw [phase] at stands
    have same : protocol.amidByte = standing :=
      (if_neg (h.counted (by simp [phase]))).trans stands.symm
    exact same ▸ tells_driveBit
  | driveBit =>
    rw [successor_of_legal (by simp [phase]), phase]
    rw [phase] at stands
    rw [show standing = protocol.amidByte from stands]
    exact tells_sampleBit (h.command (.inl phase))
  | sampleBit =>
    rw [successor_of_legal (by simp [phase]), phase]
    rw [phase] at stands
    rw [show standing = protocol.amidByte from stands]
    exact tells_driveBit
  | byteDone =>
    rw [successor_of_legal (by simp [phase]), phase]
    rw [phase] at stands
    rw [show standing = _ from stands]
    exact tells_driveAck
  | driveAck =>
    rw [successor_of_legal (by simp [phase]), phase]
    rw [phase] at stands
    apply tells_sampleAck
    rw [show standing = _ from stands, h.theirs phase]
    rfl
  | ackSent =>
    rw [successor_of_legal (by simp [phase]), phase]
    rw [phase] at stands
    apply tells_sampleAck
    rw [show standing = _ from stands, h.ours phase]
    rfl

theorem tells_data (h : Coherent protocol before)
    (stands : protocol.phase.Stands protocol standing) :
    protocol.TellsOn view standing (protocol.successor view.detector .data) := by
  have settled := settled_of_stands stands
  cases phase : protocol.phase with
  | illegal =>
    rw [successor_of_illegal phase]
    rw [phase] at stands
    cases view.detector.clock.level with
    | false => exact tells_illegal settled fun _ => stands
    | true =>
      cases view.detector.data.level with
      | true => exact tells_stopped settled
      | false => exact tells_starting settled
  | checkStartStop => exact absurd phase h.rests.1
  | sampleAck => exact absurd phase h.rests.2
  | stopped =>
    rw [successor_of_legal (by simp [phase]), phase]
    exact tells_starting settled
  | starting | repeatStart | byteDone =>
    rw [successor_of_legal (by simp [phase]), phase]
    exact tells_illegal settled fun illegal => by cases phase.symm.trans illegal
  | driveBit =>
    rw [successor_of_legal (by simp [phase]), phase]
    rw [phase] at stands
    rw [show standing = protocol.amidByte from stands]
    exact tells_driveBit
  | sampleBit =>
    rw [successor_of_legal (by simp [phase]), phase]
    exact tells_checkStartStop settled
  | driveAck =>
    rw [successor_of_legal (by simp [phase]), phase]
    rw [phase] at stands
    rw [show standing = _ from stands]
    exact tells_driveAck
  | ackSent | acked | nacked =>
    rw [successor_of_legal (by simp [phase]), phase]
    rw [phase] at stands
    rw [show standing = _ from stands]
    exact tells_answered (by decide)

theorem tells_edgeNotes (edge : Edge) (settled : standing.isSettled = true) :
    Tells standing (protocol.edgeNotes view edge) standing :=
  tells_of_within settled (within_edgeNotes _ _ _) (by decide)

theorem tells_answer (stretches : Bool) (view : View) (edge : Edge)
    (h : Coherent protocol before) (stands : protocol.phase.Stands protocol standing) :
    ∃ finish, Tells standing (protocol.answer stretches view edge).notes finish ∧
      (protocol.answer stretches view edge).protocol.phase.Stands
        (protocol.answer stretches view edge).protocol finish := by
  have settled := settled_of_stands stands
  have measured : (protocol.measured view edge).phase.Stands (protocol.measured view edge)
      standing := by
    unfold Protocol.measured
    split
    · exact stands
    · exact stands
  have start := coherent_measured view edge h
  have on : (protocol.measured view edge).TellsOn (view.held edge stretches) standing
      (protocol.successor view.detector edge.line) := by
    rw [← successor_measured protocol view edge, ← view.detector_held edge stretches]
    cases edge.line with
    | clock => exact tells_clock start measured
    | data => exact tells_data start measured
  obtain ⟨finish, told, after⟩ := on
  exact ⟨finish, tells_append (tells_append (tells_edgeNotes edge settled)
    (tells_of_within settled (within_simultaneousNotes edge) (by decide))) told, after⟩

end Protocol

namespace Checker

variable {β : Type} [LineBus β]

/-- What has been reported between two turns, and where the stream stands. -/
theorem stands_turns {checker ready between : Checker β} {n : Nat} (made : Made checker)
    (idle : checker.startUp = .ok () ready) (run : ready.turns n = .ok between) :
    ∃ told standing, between.findings = checker.findings ++ told ∧
      Standing.Hears .idle told standing ∧
      between.protocol.phase.Stands between.protocol standing := by
  induction n generalizing between with
  | zero =>
    cases run
    have silent := checker.silent_startUp
    rw [idle] at silent
    refine ⟨[], .idle, silent.findings.trans (List.append_nil _).symm, .nil _, ?_⟩
    rw [phase_startUp idle]
    rfl
  | succ n ih =>
    obtain ⟨before, run, turned⟩ := exists_of_turns_succ run
    obtain ⟨told, standing, grown, heard, stands⟩ := ih run
    rcases turn_cases turned with ⟨change, committed, commits, react⟩ | ⟨woken, paused, rfl⟩
    case inr =>
      have silent := before.probe.silent_pause
      rw [paused] at silent
      exact ⟨told, standing, silent.findings.trans grown, heard, stands⟩
    case inl =>
      have answered := answered react
      have quiet : before.probe.Silent committed := by
        rw [commits.after]
        exact Journal.silent_cons rfl rfl before.probe.journal
      obtain ⟨finish, tells, after⟩ := Protocol.tells_answer
        committed.stretch.isEnabled (({ before with probe := committed } : Checker β).view
          change.sight) change.edge (coherent_of_made made idle run) stands
      refine ⟨_, finish, ?_, heard.append tells.whole, ?_⟩
      · rw [answered.findings, ← List.append_assoc, ← grown,
          ← show committed.findings = before.findings from quiet.findings]
        rfl
      · rw [answered.protocol]
        exact after

theorem hears_reported {before : Checker β} {standing : Standing}
    (h : before.protocol.Coherent before.probe.detector)
    (lasts : before.protocol.phase.Lasts before.probe.detector)
    (stands : before.protocol.phase.Stands before.protocol standing) :
    ∃ last, Standing.Hears standing before.reported last ∧ last.isSettled = true := by
  have settled := Protocol.settled_of_stands stands
  rcases before.commits_or_silent with ⟨change, committed, commits⟩ | ⟨silent, -⟩
  case inr =>
    rw [reported_of_silent silent]
    exact ⟨standing, .nil _, settled⟩
  case inl =>
    obtain ⟨notes, error?, extent, same, -⟩ := extent_of_commits commits
    rw [same]
    rcases Protocol.told_of_extent (suits_of_commits lasts commits) extent with
      whole | ⟨rfl, -⟩
    · obtain ⟨finish, tells, -⟩ := Protocol.tells_answer
        before.probe.stretch.isEnabled (before.sees change) change.edge h stands
      rw [whole]
      exact tells.cut
    · exact (Protocol.tells_edgeNotes _ settled).cut

/-- What any run reports, on any bus and whatever happens on it, is told in segments. Before the
first start nothing is transferred; from each start to the next the first byte is a command, told
after no more than its speed, the bytes after it go the way that it says, each is acknowledged once
by the side that has not sent it, and after a stop or in the illegal phase nothing is transferred. -/
theorem segments_of_run {checker : Checker β} (made : Made checker) :
    ∃ told opening segments, checker.run.2.findings = checker.findings ++ told ∧
      told.splitOnP (Finding.shows Event.isStart) = opening :: segments ∧
      (∀ event, .event event ∈ opening → event.isTransfer = false) ∧
      ∀ segment ∈ segments, Segment segment := by
  cases idle : checker.startUp with
  | fail error stopped =>
    exact ⟨[], [], [], (run_of_restless idle).1.trans (List.append_nil _).symm,
      List.splitOnP_nil, nofun, nofun⟩
  | ok _ ready =>
    obtain ⟨n, last, run, -, -, -, findings⟩ := run_of_ready idle
    obtain ⟨told, standing, grown, heard, stands⟩ := stands_turns made idle run
    obtain ⟨finish, later, settled⟩ :=
      hears_reported (coherent_of_made made idle run) (lasts_turns idle run) stands
    obtain ⟨opening, segments, split, quiet, covers⟩ :=
      Standing.covers_splitOnP (heard.append later) settled
    refine ⟨told ++ last.reported, opening, segments, ?_, split, Standing.quiet_of_idle quiet,
      fun segment mem => Standing.segment_of_covers (covers segment mem)⟩
    rw [findings, findings_turned, grown, List.append_assoc]

/-- One write of a command alone, and its stop. -/
theorem segments_of_acknowledged_write :
    ∃ (checker : Checker Replay) (told segment : List Finding),
      ofConfig { clock := 0, data := 1 }
        (.ofTrace 0 1 [⟨200, 1, some false⟩, ⟨300, 0, some false⟩, ⟨400, 0, none⟩,
          ⟨450, 0, some false⟩, ⟨500, 1, none⟩, ⟨550, 0, none⟩, ⟨600, 0, some false⟩,
          ⟨650, 1, some false⟩, ⟨700, 0, none⟩, ⟨750, 0, some false⟩, ⟨800, 1, none⟩,
          ⟨850, 0, none⟩, ⟨900, 0, some false⟩, ⟨1000, 0, none⟩, ⟨1050, 0, some false⟩,
          ⟨1100, 1, some false⟩, ⟨1150, 0, none⟩, ⟨1200, 0, some false⟩, ⟨1250, 1, none⟩,
          ⟨1300, 0, none⟩, ⟨1350, 0, some false⟩, ⟨1400, 1, some false⟩, ⟨1450, 0, none⟩,
          ⟨1500, 0, some false⟩, ⟨1525, 1, none⟩, ⟨1550, 0, none⟩, ⟨1600, 0, some false⟩,
          ⟨1650, 1, some false⟩, ⟨1700, 0, none⟩, ⟨1750, 1, none⟩]) = .ok checker ∧
      checker.run.2.findings = checker.findings ++ told ∧
      told.splitOnP (Finding.shows Event.isStart) = [[], segment] ∧ Segment segment ∧
      segment = [.event (.byteReceived 0x5a), .event (.speed 6667),
        .event (.transactionStarted .write 0x2d), .event .sendingAck, .event .stopBit] := by
  let bus : Replay := .ofTrace 0 1 [⟨200, 1, some false⟩, ⟨300, 0, some false⟩, ⟨400, 0, none⟩,
    ⟨450, 0, some false⟩, ⟨500, 1, none⟩, ⟨550, 0, none⟩, ⟨600, 0, some false⟩,
    ⟨650, 1, some false⟩, ⟨700, 0, none⟩, ⟨750, 0, some false⟩, ⟨800, 1, none⟩,
    ⟨850, 0, none⟩, ⟨900, 0, some false⟩, ⟨1000, 0, none⟩, ⟨1050, 0, some false⟩,
    ⟨1100, 1, some false⟩, ⟨1150, 0, none⟩, ⟨1200, 0, some false⟩, ⟨1250, 1, none⟩,
    ⟨1300, 0, none⟩, ⟨1350, 0, some false⟩, ⟨1400, 1, some false⟩, ⟨1450, 0, none⟩,
    ⟨1500, 0, some false⟩, ⟨1525, 1, none⟩, ⟨1550, 0, none⟩, ⟨1600, 0, some false⟩,
    ⟨1650, 1, some false⟩, ⟨1700, 0, none⟩, ⟨1750, 1, none⟩]
  let heard : List Finding := [.event (.byteReceived 0x5a), .event (.speed 6667),
    .event (.transactionStarted .write 0x2d), .event .sendingAck, .event .stopBit]
  have told : ((ofConfig { clock := 0, data := 1 } bus).toOption.bind
      fun checker => checker.startUp.verdict.toOption.bind
      fun ready => match ready.turns 64 with
        | .ok _ => none
        | .error (_, stopped) => some (checker.findings, stopped.findings)) =
      some ([], .event .startBit :: heard) := by decide +kernel
  obtain ⟨checker, made, told⟩ := Option.bind_eq_some_iff.mp told
  obtain ⟨ready, idle, told⟩ := Option.bind_eq_some_iff.mp told
  cases turns : ready.turns 64 with
  | ok last =>
    rw [turns] at told
    cases told
  | error ended =>
    rw [turns] at told
    obtain ⟨fresh, stopped⟩ := Prod.mk.inj (Option.some.inj told)
    have made := eq_ok_of_toOption made
    have run := run_of_startUp (Outcome.eq_ok_of_verdict (eq_ok_of_toOption idle))
    rw [watch_of_turns turns] at run
    have findings : checker.run.2.findings = .event .startBit :: heard := by
      rw [run, ← stopped]
      exact Journal.findings_cons_of_none rfl _
    obtain ⟨told, opening, segments, grown, split, -, covered⟩ := segments_of_run (.fresh made)
    have whole : told = .event .startBit :: heard := by
      rw [← findings, grown, fresh, List.nil_append]
    have cut : (Finding.event .startBit :: heard).splitOnP (Finding.shows Event.isStart) =
        [[], heard] := by decide
    rw [whole, cut] at split
    obtain ⟨-, rfl⟩ := List.cons.inj split
    exact ⟨checker, _, heard, made, grown, whole ▸ cut, covered heard (List.mem_singleton_self _),
      rfl⟩

end Checker
end TwoWire
