import TwoWire.Proofs.Course
import TwoWire.Proofs.Rest
import TwoWire.Proofs.Talk

/-! What the speeds of a configuration decide: a run that is told no speeds is the same run without
the verdicts (`run_unjudged`). -/

namespace TwoWire

def Violation.isVerdict (violation : Violation) : Bool :=
  violation.kind = .timing || violation.kind = .speed

def Finding.isVerdict : Finding → Bool
  | .event _ => false
  | .violation broken => broken.isVerdict

def Config.unjudged (config : Config) : Config :=
  { config with expectedSpeed := none, nominalSpeed := none }

/-- What a run that is told no speeds writes down in place of an entry. -/
def Entry.unjudged? : Entry → Option Entry
  | started config => some (started config.unjudged)
  | recorded record => if record.finding.isVerdict then none else some (recorded record)
  | entry => some entry

def Journal.unjudged (journal : Journal) : Journal := journal.filterMap Entry.unjudged?

namespace Note

def isVerdict : Note → Bool
  | found finding => finding.isVerdict
  | overflow _ => false

def unjudged (notes : List Note) : List Note := notes.filter fun note => !note.isVerdict

@[simp] theorem unjudged_nil : unjudged [] = [] := rfl

@[simp] theorem unjudged_append (first second : List Note) :
    unjudged (first ++ second) = unjudged first ++ unjudged second :=
  List.filter_append ..

@[simp] theorem unjudged_event (told : Event) (notes : List Note) :
    unjudged (event told :: notes) = event told :: unjudged notes := rfl

@[simp] theorem unjudged_fault (told : SequenceFault) (notes : List Note) :
    unjudged (fault told :: notes) = fault told :: unjudged notes := rfl

def Judging (judge : Int → Option Violation) : Prop :=
  ∀ interval broken, judge interval = some broken → broken.kind = .timing

/-- An interval that cannot be measured is found out whoever judges it. -/
theorem unjudged_judged {judge : Int → Option Violation} (judging : Judging judge)
    (interval : Except Overflow Int) :
    unjudged (judged judge interval) = judged (fun _ => none) interval := by
  cases interval with
  | error kind => rfl
  | ok interval =>
    cases found : judge interval with
    | none => simp [judged, found]
    | some broken =>
      simp [judged, found, unjudged, violation, isVerdict, Finding.isVerdict, Violation.isVerdict,
        judging interval broken found]

theorem unjudged_measure {judge : Int → Option Violation} (judging : Judging judge)
    (start? : Option Nat) (stop : Nat) :
    unjudged (measure judge start? stop) = measure (fun _ => none) start? stop := by
  cases start? with
  | none => rfl
  | some start => exact unjudged_judged judging (Time.elapsed start stop)

theorem unjudged_measureBetween {judge : Int → Option Violation} (judging : Judging judge)
    (start? stop? : Option Nat) :
    unjudged (measureBetween judge start? stop?) =
      measureBetween (fun _ => none) start? stop? := by
  cases stop? with
  | none => rfl
  | some stop => exact unjudged_measure judging start? stop

end Note

theorem Violation.ofDataValid?_none : Violation.ofDataValid? none = fun _ => none := by
  funext interval
  simp [ofDataValid?, ofInterval?]

def Protocol.unjudged (protocol : Protocol) : Protocol :=
  { protocol with speed := none, expectedSpeed := none }

def Arrival.unjudged (arrival : Arrival) : Arrival :=
  { arrival with
    protocol := arrival.protocol.unjudged
    notes := Note.unjudged arrival.notes }

namespace Protocol

variable (protocol : Protocol) (view : View)

theorem judging (param : TimingParam) : Note.Judging (protocol.judge param) :=
  fun _ _ => Violation.kind_ofInterval?

theorem judge_unjudged (param : TimingParam) :
    protocol.unjudged.judge param = fun _ => none := rfl

theorem onStopped_unjudged : protocol.unjudged.onStopped view = (protocol.onStopped view).unjudged := by
  simp [onStopped, Arrival.unjudged, Note.unjudged_measureBetween (protocol.judging _),
    judge_unjudged]
  rfl

theorem onStart_unjudged (event : Event) (setup : TimingParam) :
    protocol.unjudged.onStart view event setup =
      (protocol.onStart view event setup).unjudged := by
  simp [onStart, Arrival.unjudged, Note.unjudged_measureBetween (protocol.judging _),
    Note.unjudged_measure (protocol.judging _), judge_unjudged]
  rfl

theorem onDriveBit_unjudged :
    protocol.unjudged.onDriveBit view = (protocol.onDriveBit view).unjudged := by
  unfold onDriveBit Arrival.unjudged
  have follows : protocol.unjudged.followsStart = protocol.followsStart := rfl
  rw [follows]
  split
  · simp [Note.unjudged_measure (protocol.judging _), judge_unjudged]
    rfl
  · rfl

theorem setupNotes_unjudged :
    protocol.unjudged.setupNotes view = Note.unjudged (protocol.setupNotes view) := by
  unfold setupNotes
  have sinks : protocol.unjudged.shifter = protocol.shifter := rfl
  rw [sinks]
  split
  · rw [Note.unjudged_measure (protocol.judging _), judge_unjudged]
  · rfl

theorem speedNotes_unjudged :
    protocol.unjudged.speedNotes = Note.unjudged protocol.speedNotes := by
  unfold speedNotes
  have same : protocol.unjudged.meter = protocol.meter := rfl
  rw [same]
  cases protocol.meter.throughput? with
  | none => rfl
  | some kbps =>
    have wanted : protocol.unjudged.expectedSpeed = none := rfl
    simp only [wanted, Note.unjudged_event]
    cases protocol.expectedSpeed with
    | none => rfl
    | some expected =>
      cases verdict : Throughput.verdict? kbps expected with
      | none => simp [verdict, Note.unjudged]
      | some kind =>
        simp only [verdict, Note.unjudged]
        rfl

theorem receivedNotes_unjudged (byte : UInt8) :
    protocol.unjudged.receivedNotes byte = Note.unjudged (protocol.receivedNotes byte) := by
  unfold receivedNotes
  rw [speedNotes_unjudged]
  have count : protocol.unjudged.byteCount = protocol.byteCount := rfl
  rw [count]
  split <;> simp

theorem byteReceived_unjudged (byte : UInt8) :
    protocol.unjudged.byteReceived byte = (protocol.byteReceived byte).unjudged := by
  unfold byteReceived
  dsimp only
  have count : protocol.unjudged.byteCount = protocol.byteCount := rfl
  rw [count]
  split
  · unfold command
    split <;> rfl
  · rfl

theorem onByteDone_unjudged (notes : List Note) :
    protocol.unjudged.onByteDone (Note.unjudged notes) = (protocol.onByteDone notes).unjudged := by
  unfold onByteDone Arrival.unjudged
  have incoming : protocol.unjudged.shifter.incoming = protocol.shifter.incoming := rfl
  rw [incoming]
  cases protocol.shifter.incoming with
  | some byte => simp [receivedNotes_unjudged, byteReceived_unjudged]
  | none =>
    simp [speedNotes_unjudged]
    rfl

theorem onSampleBit_unjudged :
    protocol.unjudged.onSampleBit view = (protocol.onSampleBit view).unjudged := by
  unfold onSampleBit
  dsimp only
  rw [setupNotes_unjudged]
  have stray (bit : Bool) : Note.unjudged (protocol.setupNotes view) ++
      (if bit then [.fault .activityAfterNack] else []) =
      Note.unjudged (protocol.setupNotes view ++
        if bit then [.fault .activityAfterNack] else []) := by
    cases bit <;> simp
  rw [stray]
  have complete : (protocol.unjudged.shifter.clock (view.level .data)).isComplete =
      (protocol.shifter.clock (view.level .data)).isComplete := rfl
  rw [complete]
  split
  · exact onByteDone_unjudged { protocol with
      shifter := protocol.shifter.clock (view.level .data)
      activityReported := protocol.activityReported || Protocol.strayActivity
        { protocol with shifter := protocol.shifter.clock (view.level .data) } } _
  · rfl

theorem onCheckStartStop_unjudged :
    protocol.unjudged.onCheckStartStop view = (protocol.onCheckStartStop view).unjudged := by
  unfold onCheckStartStop Arrival.unjudged
  have bits : protocol.unjudged.shifter.bits = protocol.shifter.bits := rfl
  rw [bits]
  cases view.data.level <;> cases protocol.shifter.bits != 1 <;> rfl

theorem onDriveAck_unjudged :
    protocol.unjudged.onDriveAck = protocol.onDriveAck.unjudged := by
  unfold onDriveAck Arrival.unjudged
  have ours : protocol.unjudged.acknowledging = protocol.acknowledging := rfl
  rw [ours]
  split
  · simp
    exact ⟨rfl, rfl, rfl⟩
  · rfl

theorem onSampleAck_unjudged :
    protocol.unjudged.onSampleAck view = (protocol.onSampleAck view).unjudged := by
  unfold onSampleAck Arrival.unjudged ackNotes
  have ours : protocol.unjudged.acknowledging = protocol.acknowledging := rfl
  rw [ours]
  cases protocol.acknowledging <;> cases view.level .data <;> cases view.driver .data <;> rfl

theorem onIllegal_unjudged :
    protocol.unjudged.onIllegal = protocol.onIllegal.unjudged := by
  unfold onIllegal Arrival.unjudged
  have previous : protocol.unjudged.previous = protocol.previous := rfl
  rw [previous]
  split <;> rfl

theorem arrive_unjudged : protocol.unjudged.arrive view = (protocol.arrive view).unjudged := by
  unfold arrive
  have phase : protocol.unjudged.phase = protocol.phase := rfl
  rw [phase]
  cases protocol.phase with
  | stopped => exact protocol.onStopped_unjudged view
  | starting | repeatStart => exact protocol.onStart_unjudged view _ _
  | driveBit => exact protocol.onDriveBit_unjudged view
  | sampleBit => exact protocol.onSampleBit_unjudged view
  | checkStartStop => exact protocol.onCheckStartStop_unjudged view
  | driveAck => exact protocol.onDriveAck_unjudged
  | sampleAck => exact protocol.onSampleAck_unjudged view
  | illegal => exact protocol.onIllegal_unjudged
  | byteDone | ackSent | acked | nacked => rfl

theorem unjudged_mismatch (phase : Phase) (line : Line) :
    Note.unjudged (mismatch phase view line) = mismatch phase view line := by
  unfold mismatch
  cases phase.expected line with
  | none => rfl
  | some expected =>
    dsimp only
    split <;> rfl

/-- Entering a phase without the speeds is entering it without the verdicts. -/
theorem enter_unjudged (phase : Phase) :
    protocol.unjudged.enter view phase = (protocol.enter view phase).unjudged := by
  unfold enter
  have entered : ({ protocol.unjudged with
      previous := protocol.unjudged.phase, phase := phase } : Protocol) =
      ({ protocol with previous := protocol.phase, phase := phase } : Protocol).unjudged := rfl
  rw [entered, arrive_unjudged]
  unfold Arrival.unjudged
  simp [unjudged_mismatch]

theorem edgeNotes_unjudged (edge : Edge) :
    protocol.unjudged.edgeNotes view edge = Note.unjudged (protocol.edgeNotes view edge) := by
  unfold edgeNotes
  cases edge.line with
  | clock => simp only [Note.unjudged_measure (protocol.judging _), judge_unjudged]
  | data =>
    dsimp only
    split
    · rfl
    · rw [Note.unjudged_measure fun _ _ => Violation.kind_ofDataValid?]
      exact congrArg (fun judge => Note.measure judge view.clock.changedAt view.now)
        Violation.ofDataValid?_none

end Protocol

namespace Outcome

theorem andThen_mapState {outcome : Outcome σ α} {other : Outcome τ α}
    {next : α → σ → Outcome σ γ} {next' : α → τ → Outcome τ γ} {f : σ → τ}
    (first : other = outcome.mapState f)
    (second : ∀ value state, next' value (f state) = (next value state).mapState f) :
    other.andThen next' = (outcome.andThen next).mapState f := by
  subst first
  cases outcome with
  | ok value state => exact second value state
  | fail error state => rfl

theorem mapState_mapState (outcome : Outcome σ α) (f : σ → τ) (g : τ → υ) :
    (outcome.mapState f).mapState g = outcome.mapState (g ∘ f) := by
  cases outcome <;> rfl

end Outcome

namespace Probe

variable {β : Type}

def unjudged (probe : Probe β) : Probe β := { probe with journal := probe.journal.unjudged }

variable [LineBus β] (probe : Probe β)

theorem unjudged_called {entry : Entry} (kept : entry.unjudged? = some entry) (bus : β) :
    (probe.called entry bus).unjudged = probe.unjudged.called entry bus := by
  have moves (fresh : List Transition) : (fresh.map Entry.moved).reverse.filterMap
      Entry.unjudged? = (fresh.map Entry.moved).reverse := by
    rw [← List.map_reverse]
    induction fresh.reverse with
    | nil => rfl
    | cons move rest ih => exact congrArg (Entry.moved move :: ·) ih
  unfold unjudged called Journal.unjudged
  dsimp only
  rw [List.filterMap_append, moves, List.filterMap_cons_some kept]

theorem wait_unjudged (kind : WaitKind) :
    probe.unjudged.wait kind = (probe.wait kind).mapState unjudged := by
  unfold wait
  rw [Outcome.mapState_mapState]
  congr 1
  funext bus
  exact (probe.unjudged_called rfl bus).symm

theorem drive_unjudged (line : Line) (level : Bool) :
    probe.unjudged.drive line level = (probe.drive line level).mapState unjudged := by
  unfold drive
  dsimp only
  rw [Outcome.mapState_mapState]
  congr 1
  funext bus
  exact (unjudged_called { probe with lines := probe.lines.setWeak line level } rfl bus).symm

theorem refreshLine_unjudged (line : Line) :
    probe.unjudged.refreshLine line = (probe.refreshLine line).mapState unjudged := by
  unfold refreshLine
  have driven : LineBus.isDriven probe.unjudged.bus (probe.unjudged.lines.id line) =
      LineBus.isDriven probe.bus (probe.lines.id line) := rfl
  rw [driven]
  split
  · rfl
  · rfl
  · exact probe.drive_unjudged line _

theorem refresh_unjudged : probe.unjudged.refresh = probe.refresh.mapState unjudged :=
  Outcome.andThen_mapState (probe.refreshLine_unjudged .clock)
    fun _ middle => middle.refreshLine_unjudged .data

theorem releaseWhenDue_unjudged :
    probe.unjudged.releaseWhenDue = probe.releaseWhenDue.mapState unjudged := by
  unfold releaseWhenDue
  have due : probe.unjudged.stretch.isDue probe.unjudged.now = probe.stretch.isDue probe.now := rfl
  rw [due]
  split
  · exact Outcome.andThen_mapState (probe.drive_unjudged .clock true) fun _ _ => rfl
  · rfl

theorem pause_unjudged : probe.unjudged.pause = probe.pause.mapState unjudged := by
  refine Outcome.andThen_mapState ?_ fun _ woken => woken.refresh_unjudged
  have pending : probe.unjudged.stretch.isPending = probe.stretch.isPending := rfl
  rw [pending]
  split
  · exact Outcome.andThen_mapState (probe.wait_unjudged .cycle)
      fun _ woken => woken.releaseWhenDue_unjudged
  · exact probe.wait_unjudged .change

theorem awaitIdle_unjudged : probe.unjudged.awaitIdle = probe.awaitIdle.mapState unjudged := by
  have woken (probe : Probe β) :
      ((probe.unjudged.wait .change).andThen fun _ probe => probe.refresh) =
        ((probe.wait .change).andThen fun _ probe => probe.refresh).mapState unjudged :=
    Outcome.andThen_mapState (probe.wait_unjudged .change) fun _ woken => woken.refresh_unjudged
  have same (probe : Probe β) : probe.unjudged.look = probe.look := rfl
  fun_induction awaitIdle probe with
  | case1 probe error missing => exact awaitIdle_of_missing ((same probe).trans missing)
  | case2 probe sight look idle => exact awaitIdle_of_idle ((same probe).trans look) idle
  | case3 probe sight look busy error stopped failed =>
    rw [awaitIdle_of_busy ((same probe).trans look) (eq_false_of_ne_true busy),
      woken probe, failed]
    rfl
  | case4 probe sight look busy _ later waited ih =>
    rw [awaitIdle_of_busy ((same probe).trans look) (eq_false_of_ne_true busy),
      woken probe, waited]
    exact ih

theorem settle_unjudged (time : Nat) :
    probe.unjudged.settle time = (probe.settle time).mapState unjudged := by
  refine Outcome.andThen_mapState (probe.drive_unjudged .clock true) fun _ clock => ?_
  refine Outcome.andThen_mapState (clock.drive_unjudged .data true) fun _ data => ?_
  exact Outcome.andThen_mapState (data.wait_unjudged (.instant time))
    fun _ late => late.awaitIdle_unjudged

end Probe

namespace Checker

variable {β : Type}

def unjudged (checker : Checker β) : Checker β where
  config := checker.config.unjudged
  probe := checker.probe.unjudged
  protocol := checker.protocol.unjudged

variable [LineBus β] (checker : Checker β)

omit [LineBus β] in
theorem note_recorded_unjudged (record : Record) :
    (checker.note (.recorded record)).unjudged =
      if record.finding.isVerdict then checker.unjudged else
        checker.unjudged.note (.recorded record) := by
  unfold unjudged note Probe.note Probe.unjudged Journal.unjudged
  cases verdict : record.finding.isVerdict <;> simp [Entry.unjudged?, verdict]

theorem report_unjudged (notes : List Note) :
    checker.unjudged.report (Note.unjudged notes) =
      (checker.report notes).mapState unjudged := by
  induction notes generalizing checker with
  | nil => rfl
  | cons note rest ih =>
    cases note with
    | overflow kind => rfl
    | found finding =>
      have further := ih (checker.note (.recorded ⟨checker.now, checker.protocol.phase, finding⟩))
      rw [note_recorded_unjudged] at further
      unfold Note.unjudged at further ⊢
      cases verdict : finding.isVerdict with
      | false =>
        rw [List.filter_cons_of_pos (by simp [Note.isVerdict, verdict])]
        simp only [verdict] at further
        exact further
      | true =>
        rw [List.filter_cons_of_neg (by simp [Note.isVerdict, verdict])]
        simp only [verdict, if_true] at further
        exact further

theorem drive_unjudged (line : Line) (level : Bool) :
    checker.unjudged.drive line level = (checker.drive line level).mapState unjudged := by
  unfold drive
  rw [show checker.unjudged.probe = checker.probe.unjudged from rfl, Probe.drive_unjudged,
    Outcome.mapState_mapState, Outcome.mapState_mapState]
  rfl

theorem driveData_unjudged (drive? : Option Bool) :
    checker.unjudged.driveData drive? = (checker.driveData drive?).mapState unjudged := by
  cases drive? with
  | none => rfl
  | some level => exact checker.drive_unjudged .data level

theorem enter_unjudged (sight : Sight) (phase : Phase) :
    checker.unjudged.enter sight phase = (checker.enter sight phase).mapState unjudged := by
  unfold enter
  dsimp only
  rw [show checker.unjudged.protocol = checker.protocol.unjudged from rfl,
    show checker.unjudged.view sight = checker.view sight from rfl, Protocol.enter_unjudged]
  generalize checker.protocol.enter (checker.view sight) phase = arrival
  refine Outcome.andThen_mapState (report_unjudged { checker.note
    (.entered checker.protocol.phase phase checker.now) with protocol := arrival.protocol }
    arrival.notes) fun _ told => ?_
  exact Outcome.andThen_mapState (told.driveData_unjudged arrival.drive?) fun _ _ => rfl

theorem follow_unjudged (sight : Sight) (phase : Phase) :
    checker.unjudged.follow sight phase = (checker.follow sight phase).mapState unjudged := by
  refine Outcome.andThen_mapState (checker.enter_unjudged sight phase) fun forced? middle => ?_
  cases forced? with
  | none => rfl
  | some forced =>
    exact Outcome.andThen_mapState (middle.enter_unjudged sight forced) fun _ _ => rfl

theorem clockEdge_unjudged (change : Change) :
    checker.unjudged.clockEdge change = (checker.clockEdge change).mapState unjudged := by
  unfold clockEdge
  rw [show checker.unjudged.probe.detector = checker.probe.detector from rfl]
  split
  case isFalse => rfl
  case isTrue =>
    unfold clockFell
    dsimp only
    rw [show checker.unjudged.probe.stretch = checker.probe.stretch from rfl]
    split
    case isFalse => rfl
    case isTrue =>
      exact Outcome.andThen_mapState (drive_unjudged { checker with
        protocol := { checker.protocol with meter := checker.protocol.meter.clockFell change.time }
        probe := { checker.probe with stretch := checker.probe.stretch.begin change.time } }
        .clock false) fun _ _ => rfl

theorem react_unjudged (change : Change) :
    checker.unjudged.react change = (checker.react change).mapState unjudged := by
  have plain : Note.unjudged (simultaneousNotes change.edge) = simultaneousNotes change.edge := by
    unfold simultaneousNotes
    split <;> rfl
  refine Outcome.andThen_mapState ?_ fun _ judged => ?_
  · rw [← report_unjudged, ← Protocol.edgeNotes_unjudged]
    rfl
  · refine Outcome.andThen_mapState (judged.clockEdge_unjudged change) fun _ clocked => ?_
    refine Outcome.andThen_mapState ?_ fun _ told => told.follow_unjudged change.sight _
    rw [← report_unjudged, plain]

theorem turn_unjudged : checker.unjudged.turn =
    (checker.turn.map unjudged).mapError fun stop => (stop.1, stop.2.unjudged) := by
  unfold turn
  rw [show checker.unjudged.probe.look = checker.probe.look from rfl]
  cases look : checker.probe.look with
  | error error => rfl
  | ok sight =>
    dsimp only
    rw [show checker.unjudged.probe.detector.edge? checker.unjudged.probe.lines sight =
      checker.probe.detector.edge? checker.probe.lines sight from rfl]
    cases checker.probe.detector.edge? checker.probe.lines sight with
    | some edge =>
      have reacted := react_unjudged
        { checker with probe := checker.probe.commit sight edge } ⟨edge, sight⟩
      dsimp only
      refine (congrArg Outcome.verdict reacted).trans ?_
      generalize ({ checker with probe := checker.probe.commit sight edge } : Checker β).react
        ⟨edge, sight⟩ = outcome
      cases outcome <;> rfl
    | none =>
      dsimp only
      rw [show checker.unjudged.probe = checker.probe.unjudged from rfl, Probe.pause_unjudged]
      cases checker.probe.pause <;> rfl

theorem watch_unjudged : checker.unjudged.watch = (checker.watch.1, checker.watch.2.unjudged) := by
  obtain ⟨n, last, run, ends⟩ := exists_turns checker
  induction n generalizing checker with
  | zero =>
    cases run
    rw [watch_turn, turn_unjudged, ends]
    rfl
  | succ n ih =>
    unfold turns at run
    cases turned : checker.turn with
    | error stopped =>
      rw [turned] at run
      cases run
    | ok next =>
      rw [turned] at run
      have same := watch_of_turn turned
      rw [watch_turn, turn_unjudged, turned, same]
      rw [same] at ends
      exact ih next run ends

theorem startUp_unjudged :
    checker.unjudged.startUp = checker.startUp.mapState unjudged := by
  unfold startUp
  refine Outcome.andThen_mapState ?_ fun _ _ => rfl
  refine (congrArg (Outcome.mapState · _) (Probe.settle_unjudged
    (checker.note (.started checker.config)).probe checker.config.settleTime)).trans ?_
  rw [Outcome.mapState_mapState, Outcome.mapState_mapState]
  rfl

theorem run_unjudged : checker.unjudged.run = (checker.run.1, checker.run.2.unjudged) := by
  unfold run
  rw [startUp_unjudged]
  cases checker.startUp with
  | fail error stopped => rfl
  | ok _ ready =>
    rw [Outcome.mapState_ok]
    dsimp only
    rw [watch_unjudged]
    rfl

end Checker

def Entry.isCall : Entry → Bool
  | waited _ | drove .. => true
  | _ => false

def Entry.isPassage : Entry → Bool
  | entered .. => true
  | _ => false

namespace Journal

def calls (journal : Journal) : Journal := journal.filter Entry.isCall

def passages (journal : Journal) : Journal := journal.filter Entry.isPassage

def facts (journal : Journal) : List Record :=
  journal.pushed.filter fun record => !record.finding.isVerdict

theorem filter_unjudged {p : Entry → Bool} (started : ∀ config, p (.started config) = false)
    (recorded : ∀ record, p (.recorded record) = false) (journal : Journal) :
    journal.unjudged.filter p = journal.filter p := by
  unfold unjudged
  rw [List.filter_filterMap, ← List.filterMap_eq_filter]
  congr 1
  funext entry
  cases entry with
  | started config => simp [Entry.unjudged?, Option.guard, started]
  | recorded record =>
    cases verdict : record.finding.isVerdict <;>
      simp [Entry.unjudged?, Option.guard, verdict, recorded]
  | _ => rfl

theorem calls_unjudged (journal : Journal) : journal.unjudged.calls = journal.calls :=
  filter_unjudged (fun _ => rfl) (fun _ => rfl) journal

theorem passages_unjudged (journal : Journal) : journal.unjudged.passages = journal.passages :=
  filter_unjudged (fun _ => rfl) (fun _ => rfl) journal

theorem pushed_unjudged (journal : Journal) : journal.unjudged.pushed = journal.facts := by
  unfold facts pushed unjudged
  rw [List.filterMap_filterMap, List.filter_filterMap]
  congr 1
  funext entry
  cases entry with
  | recorded record =>
    cases verdict : record.finding.isVerdict <;>
      simp [Entry.unjudged?, Entry.record?, Option.filter, verdict]
  | _ => rfl

end Journal

namespace Checker

variable {β : Type} [LineBus β]

/-- Two runs that differ in verdicts alone. -/
structure AlikeButVerdicts (first second : BusError × Checker β) : Prop where
  error : second.1 = first.1
  bus : second.2.probe.bus = first.2.probe.bus
  calls : second.2.probe.journal.calls = first.2.probe.journal.calls
  passages : second.2.probe.journal.passages = first.2.probe.journal.passages
  facts : second.2.probe.journal.facts = first.2.probe.journal.facts
  /-- All of these follow upon each other in the same order. -/
  journal : second.2.probe.journal.unjudged = first.2.probe.journal.unjudged
  protocol : second.2.protocol.unjudged = first.2.protocol.unjudged

omit [LineBus β] in
theorem unjudged_ofConfig {config other : Config} {bus : β} {first second : Checker β}
    (same : other.unjudged = config.unjudged) (made : ofConfig config bus = .ok first)
    (made' : ofConfig other bus = .ok second) : second.unjudged = first.unjudged := by
  unfold ofConfig at made made'
  cases accepted : config.check with
  | error wrong =>
    rw [accepted] at made
    cases made
  | ok responses =>
    cases accepted' : other.check with
    | error wrong =>
      rw [accepted'] at made'
      cases made'
    | ok responses' =>
      rw [accepted] at made
      rw [accepted'] at made'
      cases made
      cases made'
      cases Config.of_check accepted
      cases Config.of_check accepted'
      cases config
      cases other
      cases same
      rfl

/-- The speeds of a configuration decide on verdicts alone. -/
theorem alike_but_verdicts (config : Config) (expected nominal : Option Nat) {bus : β}
    {first second : Checker β} (made : ofConfig config bus = .ok first)
    (made' : ofConfig { config with expectedSpeed := expected, nominalSpeed := nominal } bus =
      .ok second) : AlikeButVerdicts first.run second.run := by
  have told : second.unjudged = first.unjudged := by
    refine unjudged_ofConfig ?_ made made'
    rfl
  have same : second.run.1 = first.run.1 ∧ second.run.2.unjudged = first.run.2.unjudged := by
    have ran := second.run_unjudged
    rw [told, run_unjudged] at ran
    exact ⟨(congrArg Prod.fst ran).symm, (congrArg Prod.snd ran).symm⟩
  have probe := congrArg Checker.probe same.2
  have journal : second.run.2.probe.journal.unjudged = first.run.2.probe.journal.unjudged :=
    congrArg Probe.journal probe
  have bus := congrArg Probe.bus probe
  refine ⟨same.1, bus, ?_, ?_, ?_, journal, congrArg Checker.protocol same.2⟩
  · rw [← Journal.calls_unjudged, journal, Journal.calls_unjudged]
  · rw [← Journal.passages_unjudged, journal, Journal.passages_unjudged]
  · rw [← Journal.pushed_unjudged, journal, Journal.pushed_unjudged]

/-- A start and a clock pulse that are too short for a speed of 100 kbit/s. -/
theorem alike_but_verdicts_short_pulse :
    let bus := (Replay.ofTrace 0 1 [⟨20000, 1, some false⟩, ⟨25000, 0, some false⟩,
      ⟨26000, 0, none⟩, ⟨28000, 0, some false⟩, ⟨33000, 1, none⟩]).withCycle 20
    ∃ first second : Checker Replay, ofConfig { clock := 0, data := 1 } bus = .ok first ∧
      ofConfig { clock := 0, data := 1, nominalSpeed := some 100 } bus = .ok second ∧
        AlikeButVerdicts first.run second.run ∧
          second.run.2.probe.journal.pushed.length =
            first.run.2.probe.journal.pushed.length + 3 := by
  intro bus
  have ran (config : Config) (length : Nat)
      (found : ((ofConfig config bus).toOption.bind fun checker => (checker.end? 30).map
        fun stop => stop.2.probe.journal.pushed.length) = some length) := exists_run found
  obtain ⟨first, made, few⟩ := ran { clock := 0, data := 1 } 1 (by decide +kernel)
  obtain ⟨second, made', more⟩ :=
    ran { clock := 0, data := 1, nominalSpeed := some 100 } 4 (by decide +kernel)
  exact ⟨first, second, made, made',
    alike_but_verdicts { clock := 0, data := 1 } none (some 100) made made', by rw [few, more]⟩

end Checker
end TwoWire
