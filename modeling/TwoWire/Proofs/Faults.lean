import TwoWire.Proofs.Decided

/-! Faults of sequence: an edge of both lines at once is one, and three phases find others on entry
(`faults_answer`). -/

namespace TwoWire

namespace Finding

def fault? : Finding → Option SequenceFault
  | .violation (.sequence fault) => some fault
  | _ => none

def faults (findings : List Finding) : List SequenceFault := findings.filterMap fault?

theorem faults_append (first second : List Finding) :
    faults (first ++ second) = faults first ++ faults second :=
  List.filterMap_append

end Finding

namespace Note

def faults (notes : List Note) : List SequenceFault := Finding.faults (findings notes)

@[simp] theorem faults_nil : faults [] = [] := rfl

@[simp] theorem faults_append (first second : List Note) :
    faults (first ++ second) = faults first ++ faults second := by
  unfold faults
  rw [findings_append, Finding.faults_append]

@[simp] theorem faults_event (event : Event) (notes : List Note) :
    faults (.event event :: notes) = faults notes := rfl

@[simp] theorem faults_fault (fault : SequenceFault) (notes : List Note) :
    faults (.fault fault :: notes) = fault :: faults notes := rfl

variable {classes : List ViolationClass} {notes : List Note}

theorem faults_of_within (within : Within classes notes) (apart : .sequence ∉ classes) :
    faults notes = [] := by
  refine List.filterMap_eq_nil_iff.mpr fun finding mem => ?_
  obtain ⟨broken, rfl, kind⟩ := within finding (mem_findings.mp mem)
  cases broken with
  | sequence fault => exact absurd kind apart
  | _ => rfl

theorem faults_told_prefix (notes : List Note) : Finding.faults (told notes) <+: faults notes := by
  have early := Note.told_prefix notes
  exact early.filterMap Finding.fault?

end Note

namespace Protocol

open Note

variable {protocol : Protocol} {view : View} {stretches : Bool} {edge : Edge}

def phaseFaults (protocol : Protocol) (view : View) : Phase → List SequenceFault
  | .sampleBit =>
    if ({ protocol with shifter := protocol.shifter.clock (view.level .data) } :
        Protocol).strayActivity then [.activityAfterNack]
    else []
  | .checkStartStop =>
    if protocol.shifter.bits = 1 then []
    else [if view.data.level then .stopMidByte else .startMidByte]
  | .sampleAck =>
    if protocol.acknowledging = true ∧ view.driver .data = .peer then [.peerDrivingDuringAck]
    else []
  | _ => []

theorem faults_speedNotes (protocol : Protocol) : Note.faults protocol.speedNotes = [] := by
  unfold speedNotes
  split
  · rfl
  · rw [faults_event]
    split
    · rfl
    · cases Throughput.verdict? _ _ <;> rfl

theorem faults_onByteDone (protocol : Protocol) :
    Note.faults (protocol.onByteDone []).notes = [] := by
  unfold onByteDone
  split
  · unfold receivedNotes
    rw [List.nil_append, List.cons_append, faults_event, faults_append, faults_speedNotes]
    split <;> rfl
  · rw [List.nil_append, faults_event, faults_speedNotes]

theorem faults_enter (protocol : Protocol) (view : View) (phase : Phase) :
    Note.faults (protocol.enter view phase).notes = protocol.phaseFaults view phase := by
  have levels (line : Line) : Note.faults (mismatch phase view line) = [] :=
    faults_of_within (within_mismatch phase view line) (by decide)
  have condition {event : Event} (h : phase.condition? = some event) : Note.faults
      (({ protocol with previous := protocol.phase, phase } : Protocol).arrive view).notes =
        [] := by
    obtain ⟨rest, same, within⟩ := arrive_of_condition protocol view h
    rw [same, faults_event]
    exact faults_of_within within (by decide)
  unfold enter
  dsimp only
  rw [faults_append, faults_append, levels, levels, List.nil_append, List.nil_append]
  cases phase with
  | stopped | starting | repeatStart => exact condition rfl
  | driveBit =>
    unfold arrive onDriveBit
    dsimp only
    split
    · exact faults_of_within (within_measure within_judge _ _) (by decide)
    · rfl
  | sampleBit =>
    have setup := faults_of_within (within_setupNotes protocol view) (by decide)
    rw [arrive_sampleBit, faults_append, faults_append, setup, List.nil_append]
    have byte : Note.faults (if (protocol.shifter.clock (view.level .data)).isComplete then
        ((protocol.sampled (view.level .data)).onByteDone []).notes else []) = [] := by
      split
      · exact faults_onByteDone _
      · rfl
    rw [byte, List.append_nil]
    unfold phaseFaults
    dsimp only
    split <;> rfl
  | checkStartStop =>
    rw [arrive_checkStartStop]
    unfold phaseFaults
    dsimp only
    split <;> rfl
  | driveAck =>
    unfold arrive onDriveAck
    dsimp only
    split <;> rfl
  | sampleAck =>
    unfold arrive onSampleAck ackNotes phaseFaults
    dsimp only
    cases protocol.acknowledging with
    | false => cases view.level .data <;> rfl
    | true => by_cases peer : view.driver .data = .peer <;> simp [peer]
  | illegal =>
    unfold arrive onIllegal
    dsimp only
    split <;> rfl
  | byteDone | ackSent | acked | nacked => rfl

theorem phaseFaults_of_rests {phase : Phase} (h : rests phase = true) :
    protocol.phaseFaults view phase = [] := by
  cases phase <;> first | rfl | cases h

/-- What has been measured of the clock, and holding it low, make no difference to what is found. -/
theorem phaseFaults_measured (protocol : Protocol) (view : View) (edge : Edge) (phase : Phase) :
    (protocol.measured view edge).phaseFaults (view.held edge stretches) phase =
      protocol.phaseFaults view phase := by
  obtain ⟨meter, measured⟩ := protocol.measured_eq view edge
  rw [measured]
  unfold View.held
  split <;> cases phase <;> rfl

theorem faults_edgeNotes (protocol : Protocol) (view : View) (edge : Edge) :
    Note.faults (protocol.edgeNotes view edge) = [] :=
  faults_of_within (within_edgeNotes protocol view edge) (by decide)

theorem faults_landing (protocol : Protocol) (stretches : Bool) (view : View) (edge : Edge) :
    Note.faults (protocol.edgeNotes view edge ++ Checker.simultaneousNotes edge ++
        (protocol.landing stretches view edge).notes) =
      (if edge = .simultaneous then [.simultaneousEdges] else []) ++
        protocol.phaseFaults view (protocol.successor view.detector edge.line) := by
  have both : Note.faults (Checker.simultaneousNotes edge) =
      if edge = .simultaneous then [.simultaneousEdges] else [] := by
    unfold Checker.simultaneousNotes
    split <;> rfl
  have landed : Note.faults (protocol.landing stretches view edge).notes =
      protocol.phaseFaults view (protocol.successor view.detector edge.line) :=
    (faults_enter ..).trans (phaseFaults_measured ..)
  rw [faults_append, faults_append, faults_edgeNotes, both, landed, List.nil_append]

theorem faults_answer (protocol : Protocol) (stretches : Bool) (view : View) (edge : Edge) :
    Note.faults (protocol.answer stretches view edge).notes =
      (if edge = .simultaneous then [.simultaneousEdges] else []) ++
        protocol.phaseFaults view (protocol.successor view.detector edge.line) := by
  have forced : Note.faults (protocol.forcedNotes stretches view edge) = [] := by
    unfold forcedNotes
    dsimp only
    cases next : (protocol.landing stretches view edge).forced? with
    | none => rfl
    | some forced =>
      dsimp only
      rw [faults_enter, phaseFaults_of_rests (rests_of_forced next).1]
  rw [notes_answer, faults_append, faults_landing, forced, List.append_nil]

/-- An answer that is cut short tells no fault out of turn. -/
theorem faults_of_extent {left : Protocol} {notes : List Note} {phases : List Phase}
    {error? : Option BusError}
    (suits : (view.held edge stretches).Suits (protocol.successor view.detector edge.line))
    (extent : protocol.Extent stretches view edge left notes phases error?) :
    Finding.faults (told notes) <+: (if edge = .simultaneous then [.simultaneousEdges] else []) ++
      protocol.phaseFaults view (protocol.successor view.detector edge.line) := by
  rw [← faults_answer protocol stretches view edge]
  rcases told_of_extent suits extent with whole | ⟨rfl, -⟩
  · rw [whole]
    exact faults_told_prefix _
  · have edges := faults_told_prefix (protocol.edgeNotes view edge)
    rw [faults_edgeNotes] at edges
    rw [List.prefix_nil.mp edges]
    exact List.nil_prefix

end Protocol
end TwoWire
