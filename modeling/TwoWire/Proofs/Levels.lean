import TwoWire.Proofs.Course
import TwoWire.Proofs.Rest
import TwoWire.Proofs.Talk

/-! Every phase is entered with the lines at the levels it expects: between the look and the entry
only the checker itself has driven them (`expected_levels_of_run`). -/

namespace TwoWire

namespace Phase

/-- The committed level of the clock when a phase is entered, `none` where either will do. -/
def clockOnEntry : Phase → Option Bool
  | .checkStartStop | .sampleAck => some true
  | phase => phase.clockAtRest

/-- A phase that the checker can rest in, with the committed levels as they are while it lasts. -/
structure Lasts (phase : Phase) (detector : EdgeDetector) : Prop where
  rests : phase ≠ .checkStartStop ∧ phase ≠ .sampleAck
  clock : ∀ level, phase.clockAtRest = some level → detector.clock.level = level
  data : ∀ level, phase.dataAtRest = some level → detector.data.level = level

/-- A phase reached by the line that moved last, with the committed levels as it is entered. -/
structure Reached (phase : Phase) (detector : EdgeDetector) (line : Line) : Prop where
  clock : ∀ level, phase.clockOnEntry = some level → detector.clock.level = level
  data : ∀ level, phase.expected .data = some level → line = .data ∧ detector.data.level = level
  checks : phase = .checkStartStop → line = .data

theorem clockOnEntry_of_expected {phase : Phase} {level : Bool}
    (h : phase.expected .clock = some level) : phase.clockOnEntry = some level := by
  cases phase <;> first | exact h | cases h

theorem clockOnEntry_of_rests {phase : Phase}
    (h : phase ≠ .checkStartStop ∧ phase ≠ .sampleAck) :
    phase.clockOnEntry = phase.clockAtRest := by
  cases phase <;> first | rfl | exact absurd rfl h.1 | exact absurd rfl h.2

theorem expected_data (phase : Phase) : phase.expected .data = phase.dataAtRest := by
  cases phase <;> rfl

end Phase

namespace Protocol

variable {protocol : Protocol} {view : View} {before after : EdgeDetector} {edge : Edge}

theorem reached_clock (lasts : protocol.phase.Lasts before) (moved : before.Moved after .clock) :
    (protocol.successor after .clock).Reached after .clock := by
  have clock : after.clock.level = !before.clock.level := moved.moved
  have start := lasts.clock
  have rests := lasts.rests
  have target : protocol.successor after .clock = protocol.phase.next .clock := by
    unfold successor
    rw [if_neg (by simp)]
  rw [target]
  cases phase : protocol.phase <;> rw [phase] at start rests <;> constructor <;>
    simp_all [Phase.next, Phase.clockOnEntry, Phase.clockAtRest, Phase.expected]

theorem successor_of_illegal (h : protocol.phase = .illegal) (detector : EdgeDetector) :
    protocol.successor detector .data =
      if detector.clock.level then if detector.data.level then .stopped else .starting
      else .illegal := by
  unfold successor
  cases detector.clock.level <;> simp [h, Phase.next]

theorem reached_data (lasts : protocol.phase.Lasts before) (moved : before.Moved after .data) :
    (protocol.successor after .data).Reached after .data := by
  have clock : after.clock.level = before.clock.level := moved.kept .clock (by simp)
  have data : after.data.level = !before.data.level := moved.moved
  cases phase : protocol.phase with
  | illegal =>
    rw [successor_of_illegal phase]
    cases high : after.clock.level <;> cases rose : after.data.level <;> constructor <;>
      simp_all [Phase.clockOnEntry, Phase.clockAtRest, Phase.expected]
  | _ =>
    have start := lasts.clock
    have level := lasts.data
    have rests := lasts.rests
    rw [successor_of_legal (by simp [phase])]
    rw [phase] at start level rests ⊢
    constructor <;>
      simp_all [Phase.next, Phase.clockOnEntry, Phase.clockAtRest, Phase.dataAtRest,
        Phase.expected]

theorem reached_successor (lasts : protocol.phase.Lasts before)
    (moved : before.Moved after edge.line) :
    (protocol.successor after edge.line).Reached after edge.line := by
  cases line : edge.line with
  | clock => exact reached_clock lasts (line ▸ moved)
  | data => exact reached_data lasts (line ▸ moved)

theorem lasts_of_forced {phase forced : Phase}
    (entry : ∀ level, phase.clockOnEntry = some level → view.clock.level = level)
    (h : (protocol.enter view phase).forced? = some forced) :
    forced.Lasts view.detector ∧ (forced.dataAtRest.isSome → phase = .checkStartStop) := by
  unfold View.clock at entry
  rcases forced_cases h with ⟨rfl, -, rfl⟩ | ⟨rfl, rfl⟩ | ⟨rfl, -, rfl⟩ | ⟨rfl, rfl⟩
  · have high := entry true rfl
    refine ⟨?_, by simp [Phase.dataAtRest]⟩
    constructor <;> simp_all [Phase.clockAtRest, Phase.dataAtRest]
  · have high := entry true rfl
    refine ⟨?_, fun _ => rfl⟩
    unfold View.data
    cases rose : view.detector.data.level <;> by_cases first : protocol.shifter.bits = 1 <;>
      constructor <;> simp_all [Phase.clockAtRest, Phase.dataAtRest]
  · have low := entry false rfl
    refine ⟨?_, by simp [Phase.dataAtRest]⟩
    constructor <;> simp_all [Phase.clockAtRest, Phase.dataAtRest]
  · have high := entry true rfl
    cases view.level .data <;> refine ⟨?_, by simp [Phase.dataAtRest]⟩ <;>
      constructor <;> simp_all [Phase.clockAtRest, Phase.dataAtRest]

theorem rests_of_settled {phase : Phase} (h : (protocol.enter view phase).forced? = none) :
    phase ≠ .checkStartStop ∧ phase ≠ .sampleAck := by
  constructor <;> rintro rfl
  · unfold enter arrive onCheckStartStop at h
    dsimp only at h
    split at h <;> cases h
  · cases h

theorem lasts_answer (stretches : Bool) (lasts : protocol.phase.Lasts before)
    (moved : before.Moved view.detector edge.line) :
    (protocol.answer stretches view edge).protocol.phase.Lasts view.detector := by
  have reached := reached_successor lasts moved
  cases settled : (protocol.landing stretches view edge).forced? with
  | none =>
    have rests := rests_of_settled settled
    rw [protocol_answer_of_settled settled]
    unfold landing
    rw [phase_enter]
    refine ⟨rests, fun level h => reached.clock level (Phase.clockOnEntry_of_rests rests ▸ h), ?_⟩
    exact fun level h => (reached.data level (Phase.expected_data _ ▸ h)).2
  | some forced =>
    rw [protocol_answer_of_forced settled, phase_enter]
    have same := view.detector_held edge stretches
    unfold landing at settled
    rw [← same] at reached settled ⊢
    exact (lasts_of_forced reached.clock settled).1

end Protocol

/-- The lines are as they were committed, as far as a phase and the one it forces look at them. -/
structure View.Suits (view : View) (phase : Phase) : Prop where
  clock : view.level .clock = view.clock.level
  data : phase = .checkStartStop → view.level .data = view.data.level
  entry : ∀ level, phase.clockOnEntry = some level → view.clock.level = level
  fits : view.Fits phase

namespace Protocol

variable {protocol : Protocol} {view : View} {before : EdgeDetector} {edge : Edge}

theorem clock_held (live : view.level .clock = view.clock.level) (edge : Edge)
    (stretches : Bool) :
    (view.held edge stretches).level .clock = view.clock.level := by
  unfold View.held
  split
  case isFalse => exact live
  case isTrue holds =>
    have low : view.clock.level = false := by
      simp [View.falls] at holds
      exact holds.1.2
    rw [low] at live ⊢
    unfold View.level Lines.level Lines.reading at live ⊢
    dsimp only at live ⊢
    cases peer : view.sight.peer .clock with
    | none => rfl
    | some level =>
      rw [peer] at live
      exact live

theorem data_held (view : View) (edge : Edge) (stretches : Bool) :
    (view.held edge stretches).level .data = view.level .data := by
  unfold View.held
  split <;> rfl

theorem suits_landing (stretches : Bool) (lasts : protocol.phase.Lasts before)
    (moved : before.Moved view.detector edge.line)
    (clock : view.level .clock = view.clock.level)
    (data : edge.line = .data → view.level .data = view.data.level) :
    (view.held edge stretches).Suits (protocol.successor view.detector edge.line) := by
  have reached := reached_successor lasts moved
  have same : (view.held edge stretches).detector = view.detector :=
    view.detector_held edge stretches
  have held := clock_held clock edge stretches
  unfold View.clock at held
  refine ⟨?_, ?_, ?_, ?_⟩
  · rw [held, View.clock, same]
  · intro checks
    rw [data_held, data (reached.checks checks), View.data, View.data, same]
  · intro level h
    rw [View.clock, same]
    exact reached.clock level h
  · intro line level h
    cases line with
    | clock =>
      rw [held]
      exact reached.clock level (Phase.clockOnEntry_of_expected h)
    | data =>
      obtain ⟨moves, committed⟩ := reached.data level h
      rw [data_held, data moves]
      exact committed

theorem suits_forced {phase forced : Phase} (suits : view.Suits phase)
    (h : (protocol.enter view phase).forced? = some forced) :
    (view.driven (protocol.enter view phase).drive?).Suits forced := by
  obtain ⟨lasts, looks⟩ := lasts_of_forced suits.entry h
  generalize driven : (protocol.enter view phase).drive? = drive?
  have clock : (view.driven drive?).level .clock = view.clock.level := by
    refine Eq.trans ?_ suits.clock
    cases drive? <;> rfl
  have same : (view.driven drive?).detector = view.detector := by
    cases drive? <;> rfl
  have committed : (view.driven drive?).clock = view.clock := congrArg EdgeDetector.clock same
  refine ⟨clock.trans (congrArg LineSample.level committed.symm), ?_, ?_, ?_⟩
  · exact fun checks => absurd checks lasts.rests.1
  · intro level h
    rw [committed]
    exact lasts.clock level (Phase.clockOnEntry_of_rests lasts.rests ▸ h)
  · intro line level expected
    cases line with
    | clock =>
      rw [clock]
      refine lasts.clock level ?_
      rw [← Phase.clockOnEntry_of_rests lasts.rests]
      exact Phase.clockOnEntry_of_expected expected
    | data =>
      -- nothing is driven where the data line is checked
      rw [Phase.expected_data] at expected
      have checks := looks (by rw [expected]; rfl)
      rw [checks, drive?_enter _ _ (by decide)] at driven
      rw [← driven]
      exact (suits.data checks).trans (lasts.data level expected)

end Protocol

namespace Note

def Level (notes : List Note) : Prop :=
  ∀ broken, violation broken ∈ notes → broken.kind ≠ .lineMismatch

theorem level_nil : Level [] := nofun

theorem level_append {first second : List Note} (left : Level first) (right : Level second) :
    Level (first ++ second) := by
  intro broken h
  rcases List.mem_append.mp h with h | h
  · exact left broken h
  · exact right broken h

theorem level_event {event : Event} {notes : List Note} (rest : Level notes) :
    Level (.event event :: notes) := by
  intro broken h
  rcases List.mem_cons.mp h with same | h
  · cases same
  · exact rest broken h

theorem level_of_within {classes : List ViolationClass} {notes : List Note}
    (within : Within classes notes) (h : .lineMismatch ∉ classes) : Level notes := by
  intro broken mem same
  obtain ⟨_, found, kind⟩ := within _ mem
  cases found
  exact h (same ▸ kind)

theorem level_violation {broken : Violation} (h : broken.kind ≠ .lineMismatch) :
    Level [violation broken] := by
  intro other mem
  cases List.mem_singleton.mp mem
  exact h

theorem level_fault (fault : SequenceFault) : Level [.fault fault] :=
  level_violation nofun

end Note

namespace Protocol

open Note

variable {protocol : Protocol} {view : View} {before : EdgeDetector} {edge : Edge}

theorem level_measure (protocol : Protocol) (param : TimingParam) (start? : Option Nat)
    (stop : Nat) : Level (Note.measure (protocol.judge param) start? stop) :=
  level_of_within (within_measure within_judge start? stop) (by decide)

theorem level_onStart (event : Event) (setup : TimingParam) :
    Level (protocol.onStart view event setup).notes :=
  level_event (level_append
    (level_of_within (within_measureBetween within_judge _ _) (by decide))
    (level_measure _ _ _ _))

theorem level_speedNotes (protocol : Protocol) : Level protocol.speedNotes := by
  unfold speedNotes
  split
  · exact level_nil
  · apply level_event
    split
    · exact level_nil
    · cases Throughput.verdict? _ _ with
      | none => exact level_nil
      | some verdict => exact level_violation nofun

theorem level_onByteDone {notes : List Note} (h : Level notes) :
    Level (protocol.onByteDone notes).notes := by
  unfold onByteDone
  split
  · refine level_append h (level_event (level_append (level_speedNotes _) ?_))
    split
    · exact level_event level_nil
    · exact level_nil
  · exact level_append h (level_event (level_speedNotes _))

theorem level_onSampleBit : Level (protocol.onSampleBit view).notes := by
  have notes : ∀ stray : Bool, Level (protocol.setupNotes view ++
      if stray then [.fault .activityAfterNack] else []) := by
    intro stray
    apply level_append (level_of_within (within_setupNotes _ _) (by decide))
    cases stray
    · exact level_nil
    · exact level_fault _
  unfold onSampleBit
  dsimp only
  split
  · exact level_onByteDone (notes _)
  · exact notes _

theorem level_arrive : Level (protocol.arrive view).notes := by
  unfold arrive
  split
  case h_1 =>
    exact level_event (level_of_within (within_measureBetween within_judge _ _) (by decide))
  case h_2 | h_8 => exact level_onStart _ _
  case h_3 =>
    unfold onDriveBit
    dsimp only
    split
    · exact level_measure _ _ _ _
    · exact level_nil
  case h_4 => exact level_onSampleBit
  case h_5 =>
    unfold onCheckStartStop
    dsimp only
    split <;> dsimp only <;> split <;> first | exact level_fault _ | exact level_nil
  case h_6 =>
    unfold onDriveAck
    split
    · exact level_event level_nil
    · exact level_nil
  case h_7 =>
    unfold onSampleAck ackNotes
    dsimp only
    split
    · split
      · exact level_fault _
      · exact level_nil
    · split
      · exact level_event (level_event level_nil)
      · exact level_event level_nil
  case h_9 =>
    unfold onIllegal
    dsimp only
    split
    · exact level_nil
    · exact level_violation nofun
  all_goals exact level_nil

theorem level_enter {phase : Phase} (fits : view.Fits phase) :
    Level (protocol.enter view phase).notes := by
  unfold enter
  dsimp only
  rw [mismatch_of_fits fits, mismatch_of_fits fits]
  exact level_arrive

theorem level_of_extent {stretches : Bool} {left : Protocol} {notes : List Note}
    {phases : List Phase} {error? : Option BusError}
    (suits : (view.held edge stretches).Suits (protocol.successor view.detector edge.line))
    (extent : protocol.Extent stretches view edge left notes phases error?) : Level notes := by
  have judged : Level (protocol.edgeNotes view edge) :=
    level_of_within (within_edgeNotes _ _ _) (by decide)
  have both : Level (protocol.edgeNotes view edge ++ Checker.simultaneousNotes edge) :=
    level_append judged (level_of_within (within_simultaneousNotes edge) (by decide))
  have landed : Level (protocol.edgeNotes view edge ++ Checker.simultaneousNotes edge ++
      (protocol.landing stretches view edge).notes) :=
    level_append both (level_enter suits.fits)
  cases extent with
  | judged => exact judged
  | unread => exact landed
  | refused => exact landed
  | settled => exact landed
  | forced _ _ next =>
    rw [notes_answer]
    refine level_append landed ?_
    unfold forcedNotes
    dsimp only
    rw [next]
    exact level_enter (suits_forced suits next).fits

end Protocol

namespace Probe

variable {β : Type} [LineBus β]

theorem peer_of_look {probe : Probe β} {sight : Sight} (h : probe.look = .ok sight) (line : Line) :
    LineBus.peer? probe.bus (probe.lines.id line) = some (sight.peer line) := by
  unfold look Lines.look at h
  split at h
  · cases h
  · cases h
  case h_3 clock data onClock onData =>
    cases h
    cases line
    · exact onClock
    · exact onData

theorem now_of_look {probe : Probe β} {sight : Sight} (h : probe.look = .ok sight) :
    sight.now = probe.now := by
  unfold look Lines.look at h
  split at h <;> cases h
  rfl

end Probe

namespace Checker

variable {β : Type} [LineBus β]

theorem moved_of_commits {checker : Checker β} {committed : Probe β} {change : Change}
    (commits : checker.probe.Commits change committed) :
    checker.probe.detector.Moved (checker.sees change).detector change.edge.line := by
  have moved := commits.moved
  rw [commits.after] at moved
  exact moved

/-- The lines are as they are committed, but for a data line whose edge is still to come. -/
theorem live_of_commits {checker : Checker β} {committed : Probe β} {change : Change}
    (commits : checker.probe.Commits change committed) :
    (checker.sees change).level .clock = (checker.sees change).clock.level ∧
      (change.edge.line = .data →
        (checker.sees change).level .data = (checker.sees change).data.level) := by
  have calm := (Probe.differs_of_edge commits.look commits.edge).2
  unfold sees View.clock View.data View.level Change.line
  cases line : change.edge.line with
  | clock => exact ⟨rfl, nofun⟩
  | data =>
    refine ⟨?_, fun _ => rfl⟩
    have same := calm line
    rw [Probe.differs_of_look commits.look, bne_eq_false_iff_eq] at same
    exact same

theorem lasts_turn {before next : Checker β} (turned : before.turn = .ok next)
    (lasts : before.protocol.phase.Lasts before.probe.detector) :
    next.protocol.phase.Lasts next.probe.detector := by
  rcases turn_cases turned with ⟨change, committed, commits, react⟩ | ⟨woken, paused, rfl⟩
  · have answered := answered react
    rw [answered.protocol, answered.still.detector]
    exact Protocol.lasts_answer _ lasts commits.moved
  · rw [Probe.detector_pause paused]
    exact lasts

theorem lasts_startUp {checker ready : Checker β} (idle : checker.startUp = .ok () ready) :
    ready.protocol.phase.Lasts ready.probe.detector := by
  unfold startUp at idle
  cases settled : (checker.note (.started checker.config)).probe.settle
      checker.config.settleTime with
  | fail error late =>
    rw [settled] at idle
    cases idle
  | ok _ late =>
    rw [settled] at idle
    cases idle
    obtain ⟨clock, data⟩ := Probe.detector_settle settled
    exact ⟨by simp, fun level h => by cases h; exact clock, fun level h => by cases h; exact data⟩

theorem lasts_turns {checker ready between : Checker β} {n : Nat}
    (idle : checker.startUp = .ok () ready) (run : ready.turns n = .ok between) :
    between.protocol.phase.Lasts between.probe.detector :=
  turns_induct (motive := fun checker => checker.protocol.phase.Lasts checker.probe.detector)
    (lasts_startUp idle) lasts_turn run

theorem suits_of_commits {before : Checker β} {committed : Probe β} {change : Change}
    (lasts : before.protocol.phase.Lasts before.probe.detector)
    (commits : before.probe.Commits change committed) :
    ((before.sees change).held change.edge before.probe.stretch.isEnabled).Suits
      (before.protocol.successor (before.sees change).detector change.edge.line) := by
  obtain ⟨clock, data⟩ := live_of_commits commits
  exact Protocol.suits_landing _ lasts (moved_of_commits commits) clock data

theorem level_reported {before : Checker β}
    (lasts : before.protocol.phase.Lasts before.probe.detector) {broken : Violation}
    (h : .violation broken ∈ before.reported) : broken.kind ≠ .lineMismatch := by
  rcases before.commits_or_silent with ⟨change, committed, commits⟩ | ⟨silent, -⟩
  · obtain ⟨notes, error?, extent, told, -⟩ := extent_of_commits commits
    rw [told] at h
    exact Protocol.level_of_extent (suits_of_commits lasts commits) extent broken
      (Note.mem_of_mem_told h)
  · rw [reported_of_silent silent] at h
    cases h

theorem level_turns {checker ready between : Checker β} {n : Nat}
    (idle : checker.startUp = .ok () ready) (run : ready.turns n = .ok between) :
    ∃ told, between.findings = checker.findings ++ told ∧
      ∀ broken, .violation broken ∈ told → broken.kind ≠ .lineMismatch := by
  have silent := checker.silent_startUp
  rw [idle] at silent
  have start : ready.findings = checker.findings := silent.findings
  refine (turns_induct
    (motive := fun between => between.protocol.phase.Lasts between.probe.detector ∧
      ∃ told, between.findings = checker.findings ++ told ∧
        ∀ broken, .violation broken ∈ told → broken.kind ≠ .lineMismatch)
    ⟨lasts_startUp idle, [], start.trans (List.append_nil _).symm, nofun⟩ ?_ run).2
  rintro before next turned ⟨lasts, told, grown, level⟩
  refine ⟨lasts_turn turned lasts, told ++ before.reported, ?_, ?_⟩
  · have same : before.turned = next := by
      unfold Checker.turned
      rw [turned]
    rw [← same, findings_turned, grown, List.append_assoc]
  · intro broken h
    rcases List.mem_append.mp h with h | h
    · exact level broken h
    · exact level_reported lasts h

/-- A run that found `ready` enters `phase` in the state `here`, after a look that showed
`sight`. -/
inductive Enters (ready : Checker β) : Checker β → Sight → Phase → Prop
  /-- A phase of the table, or the one that the illegal phase is left for. -/
  | edge {n : Nat} {before last : Checker β} {committed : Probe β} {change : Change}
      (run : ready.turns n = .ok before) (commits : before.probe.Commits change committed)
      (judging : ({ before with probe := committed } : Checker β).judge change = .ok () last) :
    Enters ready last change.sight
      (last.protocol.successor last.probe.detector change.line)
  /-- A phase that is forced by the one entered before. -/
  | forced {here next : Checker β} {sight : Sight} {phase forced : Phase}
      (entry : Enters ready here sight phase)
      (entered : here.enter sight phase = .ok (some forced) next) :
    Enters ready next sight forced

def arriving? (checker : Checker β) : Option (Change × Checker β) :=
  match checker.probe.look with
  | .error _ => none
  | .ok sight =>
    (checker.probe.detector.edge? checker.probe.lines sight).bind fun edge =>
      ((({ checker with probe := checker.probe.commit sight edge } : Checker β).judge
        ⟨edge, sight⟩).verdict.toOption).map fun last => (⟨edge, sight⟩, last)

theorem enters_of_arriving? {ready before last : Checker β} {change : Change} {n : Nat}
    (run : ready.turns n = .ok before) (h : before.arriving? = some (change, last)) :
    Enters ready last change.sight
      (last.protocol.successor last.probe.detector change.line) := by
  unfold arriving? at h
  split at h
  · cases h
  case h_2 sight look =>
    obtain ⟨edge, seen, h⟩ := Option.bind_eq_some_iff.mp h
    obtain ⟨_, judging, same⟩ := Option.map_eq_some_iff.mp h
    cases same
    exact .edge run ⟨look, seen, rfl⟩ (Outcome.eq_ok_of_verdict (eq_ok_of_toOption judging))

theorem suits_of_enters {checker ready here : Checker β} {sight : Sight} {phase : Phase}
    (idle : checker.startUp = .ok () ready) (entry : Enters ready here sight phase) :
    (here.view sight).Suits phase ∧
      ∀ line, LineBus.peer? here.probe.bus (here.probe.lines.id line) = some (sight.peer line) := by
  induction entry with
  | @edge n before last committed change run commits judging =>
    have judged := judged judging
    have view := view_of_commits commits
    have stretch : committed.stretch = before.probe.stretch := by rw [commits.after]; rfl
    refine ⟨?_, fun line => ?_⟩
    · rw [judged.view, judged.successor, view, stretch]
      exact suits_of_commits (lasts_turns idle run) commits
    · rw [judged.still.id, judged.still.peer]
      have peer := Probe.peer_of_look commits.look line
      rw [commits.after]
      exact peer
  | forced entry entered ih =>
    obtain ⟨suits, peer⟩ := ih
    obtain ⟨arrived, forces⟩ := arrived_enter entered
    refine ⟨?_, fun line => ?_⟩
    · rw [view_of_arrived arrived]
      exact Protocol.suits_forced suits forces.symm
    · rw [arrived.still.id, arrived.still.peer]
      exact peer line

/-- No run of any checker on any bus finds a line at another level than the phase expects that is
entered: whatever is entered, from the table, to leave the illegal phase or by force, the lines read
as that phase expects them. -/
theorem expected_levels_of_run (checker : Checker β) :
    (∃ told, checker.run.2.findings = checker.findings ++ told ∧
      ∀ line level, .violation (.lineMismatch line level) ∉ told) ∧
    ∀ {ready here sight phase}, checker.startUp = .ok () ready → Enters ready here sight phase →
      ∀ line level, phase.expected line = some level →
        ∃ driver, here.probe.lines.read here.probe.bus line = .ok ⟨level, driver⟩ := by
  constructor
  · cases idle : checker.startUp with
    | fail error stopped =>
      exact ⟨[], (run_of_restless idle).1.trans (List.append_nil _).symm, nofun⟩
    | ok _ ready =>
      obtain ⟨n, last, run, -, -, -, findings⟩ := run_of_ready idle
      obtain ⟨told, grown, level⟩ := level_turns idle run
      refine ⟨told ++ last.reported, ?_, fun line expected h => ?_⟩
      · rw [findings, findings_turned, grown, List.append_assoc]
      · rcases List.mem_append.mp h with h | h
        · exact level _ h rfl
        · exact level_reported (lasts_turns idle run) h rfl
  · intro ready here sight phase idle entry line level expected
    obtain ⟨suits, peer⟩ := suits_of_enters idle entry
    have fits := suits.fits line level expected
    refine ⟨(here.probe.lines.reading line (sight.peer line)).driver, ?_⟩
    unfold Lines.read
    rw [peer line]
    exact congrArg Except.ok (congrArg (Reading.mk · _) fits)

/-- A start that the illegal phase is left for, with a stretched clock, a wake-up too many and a
lost drive before it. -/
theorem expected_levels_of_recovery :
    ∃ (checker ready here : Checker (Faulty Replay)) (sight : Sight),
      ofConfig { clock := 0, data := 1, clockStretch := 50 }
        { bus := .ofTrace 0 1 [⟨200, 0, some false⟩, ⟨300, 0, none⟩, ⟨400, 1, some false⟩]
          faults := [⟨.wait, 3, none⟩, ⟨.drive, 6, none⟩] } = .ok checker ∧
      checker.startUp = .ok () ready ∧ Enters ready here sight .starting ∧
      here.protocol.phase = .illegal ∧
      (∃ driver, here.probe.lines.read here.probe.bus .clock = .ok ⟨true, driver⟩) ∧
      ∃ driver, here.probe.lines.read here.probe.bus .data = .ok ⟨false, driver⟩ := by
  let bus : Faulty Replay :=
    { bus := .ofTrace 0 1 [⟨200, 0, some false⟩, ⟨300, 0, none⟩, ⟨400, 1, some false⟩]
      faults := [⟨.wait, 3, none⟩, ⟨.drive, 6, none⟩] }
  have phases : ((ofConfig { clock := 0, data := 1, clockStretch := 50 } bus).toOption.bind
      fun checker => checker.startUp.verdict.toOption.bind
      fun ready => (ready.turns 11).toOption.bind
      fun before => before.arriving?.map fun (change, last) =>
        (last.protocol.phase, last.protocol.successor last.probe.detector change.line)) =
          some (.illegal, .starting) := by decide +kernel
  obtain ⟨checker, made, phases⟩ := Option.bind_eq_some_iff.mp phases
  obtain ⟨ready, idle, phases⟩ := Option.bind_eq_some_iff.mp phases
  obtain ⟨before, run, phases⟩ := Option.bind_eq_some_iff.mp phases
  obtain ⟨⟨change, here⟩, arriving, phases⟩ := Option.map_eq_some_iff.mp phases
  obtain ⟨illegal, starting⟩ := Prod.mk.inj phases
  have idle := Outcome.eq_ok_of_verdict (eq_ok_of_toOption idle)
  have entry := enters_of_arriving? (eq_ok_of_toOption run) arriving
  rw [starting] at entry
  have levels := (expected_levels_of_run checker).2 idle entry
  exact ⟨checker, ready, here, change.sight, eq_ok_of_toOption made, idle, entry, illegal,
    levels .clock true rfl, levels .data false rfl⟩

end Checker
end TwoWire
