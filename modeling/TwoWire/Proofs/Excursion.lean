import TwoWire.Proofs.Moments

/-! Excursions into the illegal phase. An edge that is astray is reported once, and then nothing is
interpreted until the data line moves while the clock is high (`illegal_until_condition`). -/

namespace TwoWire

def Finding.isBare : Finding → Bool
  | .violation (.timing .clockLow _) => true
  | .violation (.timing .clockHigh _) => true
  | .violation (.timing .dataValid _) => true
  | .violation (.sequence .simultaneousEdges) => true
  | _ => false

theorem Violation.eq_of_ofInterval? {speed : Option SpeedClass} {param : TimingParam}
    {interval : Int} {broken : Violation} (h : ofInterval? speed param interval = some broken) :
    broken = .timing param interval := by
  unfold ofInterval? at h
  split at h
  · cases h
  · split at h
    · cases h
    · exact (Option.some.inj h).symm

namespace Note

def All (kind : Finding → Bool) (notes : List Note) : Prop :=
  ∀ finding, found finding ∈ notes → kind finding = true

variable {kind : Finding → Bool}

theorem all_nil : All kind [] := nofun

theorem all_append {first second : List Note} (left : All kind first) (right : All kind second) :
    All kind (first ++ second) := by
  intro finding mem
  rcases List.mem_append.mp mem with mem | mem
  · exact left finding mem
  · exact right finding mem

theorem all_measure {judge : Int → Option Violation} {start? : Option Nat} {stop : Nat}
    (h : ∀ interval broken, judge interval = some broken → kind (.violation broken) = true) :
    All kind (measure judge start? stop) := by
  cases start? with
  | none => exact all_nil
  | some start =>
    unfold measure
    dsimp only
    cases Time.elapsed start stop with
    | error overflow => exact fun finding mem => by cases List.mem_singleton.mp mem
    | ok interval =>
      intro finding mem
      obtain ⟨broken, judged, same⟩ := List.mem_map.mp mem
      cases same
      exact h _ _ (Option.mem_toList.mp judged)

theorem all_of_told {notes : List Note} (all : All kind notes) :
    ∀ finding ∈ told notes, kind finding = true :=
  fun finding mem => all finding (mem_of_mem_told mem)

end Note

namespace Protocol

open Note

variable {protocol : Protocol} {view : View} {edge : Edge} {stretches : Bool}
  {before : EdgeDetector} {left : Protocol} {notes : List Note} {phases : List Phase}
  {error? : Option BusError}

theorem bare_edgeNotes (protocol : Protocol) (view : View) (edge : Edge) :
    All Finding.isBare (protocol.edgeNotes view edge) := by
  unfold edgeNotes
  split
  · refine all_measure fun interval broken judged => ?_
    cases Violation.eq_of_ofInterval? judged
    split <;> rfl
  · split
    · exact all_nil
    · refine all_measure fun interval broken judged => ?_
      unfold Violation.ofDataValid? at judged
      split at judged
      · cases judged
      · cases Violation.eq_of_ofInterval? judged
        rfl

theorem bare_findings_edge (protocol : Protocol) (view : View) (edge : Edge) :
    ∀ finding ∈ findings (protocol.edgeNotes view edge ++ Checker.simultaneousNotes edge),
      finding.isBare = true := by
  have both : All Finding.isBare (Checker.simultaneousNotes edge) := by
    unfold Checker.simultaneousNotes
    split
    · intro finding mem
      cases List.mem_singleton.mp mem
      rfl
    · exact all_nil
  exact fun finding mem =>
    all_append (protocol.bare_edgeNotes view edge) both finding (mem_findings.mp mem)

theorem origin_of_illegal (lasts : protocol.phase.Lasts before) (legal : protocol.phase ≠ .illegal)
    {detector : EdgeDetector} {line : Line}
    (target : protocol.successor detector line = .illegal) :
    protocol.phase ∈ [.stopped, .starting, .byteDone, .repeatStart] := by
  rw [successor_of_legal legal] at target
  obtain ⟨unchecked, unsampled⟩ := lasts.rests
  cases phase : protocol.phase with
  | stopped | starting | byteDone | repeatStart => simp
  | illegal => exact absurd phase legal
  | checkStartStop => exact absurd phase unchecked
  | sampleAck => exact absurd phase unsampled
  | driveBit | sampleBit | driveAck | ackSent | acked | nacked =>
    rw [phase] at target
    cases line <;> cases target

theorem notes_answer_illegal
    (target : protocol.successor view.detector edge.line = .illegal) :
    (protocol.answer stretches view edge).notes =
      protocol.edgeNotes view edge ++ Checker.simultaneousNotes edge ++
        if protocol.phase = .illegal then [] else [.violation (.illegalPhase protocol.phase)] := by
  have phase := phase_measured protocol view edge
  unfold answer
  dsimp only
  rw [target, ← phase]
  rfl

theorem protocol_answer_illegal
    (target : protocol.successor view.detector edge.line = .illegal) :
    ∃ meter, (protocol.answer stretches view edge).protocol =
      { protocol with meter, previous := protocol.phase, phase := .illegal } := by
  obtain ⟨meter, measured⟩ := protocol.measured_eq view edge
  refine ⟨meter, ?_⟩
  unfold answer
  dsimp only
  rw [target, measured]
  rfl

theorem drive?_answer_illegal
    (target : protocol.successor view.detector edge.line = .illegal) :
    (protocol.answer stretches view edge).drive? = none := by
  unfold answer
  dsimp only
  rw [target]
  rfl

theorem phase_of_dataEdge (high : view.detector.clock.level = true)
    (rested : rests (protocol.successor view.detector .data) = true)
    (extent : protocol.Extent stretches view .data left notes phases error?) :
    left.phase = protocol.successor view.detector .data := by
  have settles : (protocol.landing stretches view .data).forced? = none :=
    forced?_enter_of_rests _ _ rested
  cases extent with
  | judged _ cut =>
    have quiet : protocol.edgeNotes view .data = [] := if_pos high
    rw [quiet] at cut
    rcases cut with cut | falls
    · exact absurd sound_nil cut
    · cases falls
  | unread => exact phase_enter ..
  | refused => exact phase_enter ..
  | settled => exact phase_enter ..
  | forced _ _ next => cases settles.symm.trans next

end Protocol

namespace Probe

variable {β : Type} [LineBus β]

theorem weakData_paused (probe : Probe β) :
    probe.pause.state.lines.weakData = probe.lines.weakData := by
  have waited (kind : WaitKind) :
      (probe.wait kind).state.lines.weakData = probe.lines.weakData := by
    unfold wait
    rw [Outcome.state_mapState]
    rfl
  unfold pause
  dsimp only
  refine Outcome.state_andThen
    (motive := fun after : Probe β => after.lines.weakData = probe.lines.weakData) ?_
    fun _ woken same => (congrArg Lines.weakData woken.refreshed_refresh.lines).trans same
  split
  case isFalse => exact waited .change
  case isTrue =>
    refine Outcome.state_andThen
      (motive := fun after : Probe β => after.lines.weakData = probe.lines.weakData)
      (waited .cycle) fun _ woken same => ?_
    unfold releaseWhenDue
    split
    case isFalse => exact same
    case isTrue =>
      have lines := woken.lines_drive .clock true
      cases free : woken.drive .clock true <;> rw [free] at lines <;>
        exact (congrArg Lines.weakData lines).trans same

end Probe

namespace Checker

/-- Nothing that the protocol goes by has changed but its place in the table, and the data line is
driven as before. -/
structure Suspended {β : Type} (before after : Checker β) : Prop where
  protocol : ∃ meter previous phase,
    after.protocol = { before.protocol with meter, previous, phase }
  weakData : after.weakData = before.weakData

theorem Suspended.trans {β : Type} {first middle last : Checker β}
    (early : Suspended first middle) (late : Suspended middle last) : Suspended first last := by
  obtain ⟨⟨_, _, _, same⟩, drives⟩ := early
  obtain ⟨⟨meter, previous, phase, same'⟩, drives'⟩ := late
  refine ⟨⟨meter, previous, phase, ?_⟩, drives'.trans drives⟩
  rw [same', same]

variable {β : Type} [LineBus β] {checker ready before next later : Checker β} {change : Change}
  {committed : Probe β} {told since : List Finding} {n : Nat}

theorem weakData_report (checker : Checker β) (notes : List Note) :
    (checker.report notes).state.weakData = checker.weakData := by
  induction notes generalizing checker with
  | nil => rfl
  | cons note rest ih =>
    cases note with
    | overflow => rfl
    | found finding =>
      exact ih (checker.note (.recorded ⟨checker.now, checker.protocol.phase, finding⟩))

theorem kept_judge (checker : Checker β) (change : Change) :
    (∃ meter, (checker.judge change).state.protocol = { checker.protocol with meter }) ∧
      (checker.judge change).state.weakData = checker.weakData := by
  let Kept (after : Checker β) : Prop :=
    (∃ meter, after.protocol = { checker.protocol with meter }) ∧
      after.weakData = checker.weakData
  have reports (before : Checker β) (notes : List Note) (kept : Kept before) :
      Kept (before.report notes).state := by
    obtain ⟨⟨meter, same⟩, drives⟩ := kept
    exact ⟨⟨meter, (before.protocol_report notes).trans same⟩,
      (before.weakData_report notes).trans drives⟩
  refine Outcome.state_andThen (motive := Kept) (reports _ _ ⟨⟨_, rfl⟩, rfl⟩)
    fun _ measured kept => ?_
  refine Outcome.state_andThen (motive := Kept) ?_ fun _ clocked kept => reports _ _ kept
  obtain ⟨⟨meter, same⟩, drives⟩ := kept
  unfold clockEdge
  split
  case isFalse => exact ⟨⟨meter, same⟩, drives⟩
  case isTrue =>
    have fallen : Kept ({ measured with
        protocol := { measured.protocol with meter := measured.protocol.meter.clockFell change.time }
        probe := { measured.probe with stretch := measured.probe.stretch.begin change.time } } :
          Checker β) := ⟨⟨_, by rw [same]⟩, drives⟩
    unfold clockFell
    dsimp only
    split
    case isFalse => exact fallen
    case isTrue =>
      refine Outcome.state_andThen (motive := Kept) ?_ fun _ low kept => kept
      obtain ⟨⟨meter, same⟩, drives⟩ := fallen
      refine ⟨⟨meter, (protocol_drive _ .clock false).trans same⟩, ?_⟩
      unfold drive
      rw [Outcome.state_mapState]
      exact (congrArg Lines.weakData (Probe.lines_drive _ .clock false)).trans drives

/-- What has come of an edge that is astray. It is reported as such unless the one before it was,
too, or the turn is cut short before that. -/
structure Astray (before : Checker β) (change : Change) : Prop where
  suspended : Suspended before before.turned
  reached : before.turned.protocol.phase = .illegal ∧ (∃ next, before.turn = .ok next) ∧
      before.reported = Note.findings (before.protocol.edgeNotes (before.sees change) change.edge ++
        simultaneousNotes change.edge) ++
          (if before.protocol.phase = .illegal then []
            else [.violation (.illegalPhase before.protocol.phase)]) ∨
    before.turned.protocol.phase = before.protocol.phase ∧
      before.reported = Note.told (before.protocol.edgeNotes (before.sees change) change.edge)

theorem astray_of_cut {stopped : Checker β} {error : BusError}
    (commits : before.probe.Commits change committed)
    (h : ({ before with probe := committed } : Checker β).judge change = .fail error stopped) :
    before.Astray change := by
  have turned := turned_of_commits commits
  rw [react_eq_judge, h, Outcome.andThen_fail, Outcome.state_fail] at turned
  obtain ⟨⟨meter, same⟩, still⟩ :=
    ({ before with probe := committed } : Checker β).kept_judge change
  obtain ⟨-, -, findings, -⟩ := cut_of_judge h
  rw [h, Outcome.state_fail, ← turned] at same still
  rw [← turned, view_of_commits commits] at findings
  have quiet : ({ before with probe := committed } : Checker β).findings = before.findings := by
    change committed.findings = before.probe.findings
    rw [commits.after]
    exact Journal.findings_cons_of_none rfl _
  have drives : ({ before with probe := committed } : Checker β).weakData = before.weakData := by
    rw [commits.after]
    rfl
  have phase := congrArg Protocol.phase same
  refine ⟨⟨⟨meter, _, _, same⟩, still.trans drives⟩, .inr ⟨phase, ?_⟩⟩
  unfold reported
  rw [findings, quiet, List.drop_left]

theorem astray_of_replied (replied : Replied before change next)
    (turned : before.turn = .ok next)
    (target : before.protocol.successor (before.sees change).detector change.edge.line = .illegal) :
    before.Astray change := by
  obtain ⟨meter, protocol⟩ := @Protocol.protocol_answer_illegal before.protocol
    (before.sees change) change.edge before.probe.stretch.isEnabled target
  have protocol := replied.protocol.trans protocol
  have drives := replied.weakData
  have told := replied.reported
  unfold reply at drives told
  rw [Protocol.drive?_answer_illegal target] at drives
  rw [Protocol.notes_answer_illegal target, Note.findings_append] at told
  rw [← turned_of_turn turned] at protocol drives
  refine ⟨⟨⟨meter, _, _, protocol⟩, drives⟩,
    .inl ⟨congrArg Protocol.phase protocol, ⟨next, turned⟩, told.trans ?_⟩⟩
  congr 1
  split <;> rfl

theorem exists_of_follow_illegal (checker : Checker β) (sight : Sight) :
    ∃ after, checker.follow sight .illegal = .ok () after := by
  have sound :
      Note.Sound (checker.protocol.enter (checker.view sight) .illegal).notes := by
    unfold Protocol.enter Protocol.arrive Protocol.onIllegal
    dsimp only
    split
    · exact Note.sound_nil
    · exact Note.sound_cons Note.sound_nil
  obtain ⟨after, entered⟩ := checker.exists_of_enter sound (by decide)
  refine ⟨after, ?_⟩
  unfold follow
  rw [entered]
  rfl

theorem astray_of_commits (commits : before.probe.Commits change committed)
    (target : before.protocol.successor (before.sees change).detector change.edge.line = .illegal) :
    before.Astray change := by
  cases judging : ({ before with probe := committed } : Checker β).judge change with
  | fail error stopped => exact astray_of_cut commits judging
  | ok _ last =>
    have leads : last.protocol.successor last.probe.detector change.line = .illegal := by
      rw [(judged judging).successor, view_of_commits commits]
      exact target
    obtain ⟨after, follows⟩ := last.exists_of_follow_illegal change.sight
    have react : ({ before with probe := committed } : Checker β).react change = .ok () after := by
      rw [react_eq_judge, judging, Outcome.andThen_ok, leads, follows]
    have turned : before.turn = .ok after := by
      rw [turn_of_commits commits, react]
      rfl
    exact astray_of_replied (replied_of_react commits turned react) turned target

theorem Astray.bare (astray : before.Astray change) (illegal : before.protocol.phase = .illegal) :
    before.turned.protocol.phase = .illegal ∧
      ∀ finding ∈ before.reported, finding.isBare = true := by
  rcases astray.reached with ⟨phase, -, told⟩ | ⟨phase, told⟩
  · rw [if_pos illegal, List.append_nil] at told
    rw [told]
    exact ⟨phase, Protocol.bare_findings_edge _ _ _⟩
  · rw [told]
    exact ⟨phase.trans illegal, Note.all_of_told (Protocol.bare_edgeNotes _ _ _)⟩

/-- The next turn commits an edge of the data line while the clock is high. -/
def ConditionNext (checker : Checker β) : Prop :=
  ∃ change committed, checker.probe.Commits change committed ∧ change.line = .data ∧
    committed.detector.clock.level = true

/-- Turns that go through, none of which commits an edge of the data line while the clock is high,
with what they report. -/
inductive Unconditioned : Checker β → List Finding → Checker β → Prop
  | none (checker : Checker β) : Unconditioned checker [] checker
  | turn {first before next : Checker β} {told : List Finding}
      (early : Unconditioned first told before) (none : ¬before.ConditionNext)
      (turned : before.turn = .ok next) : Unconditioned first (told ++ before.reported) next

theorem weakData_of_unseen (unseen : ∀ change committed, ¬before.probe.Commits change committed) :
    before.turned.weakData = before.weakData := by
  unfold turned turn
  cases look : before.probe.look with
  | error error => rfl
  | ok sight =>
    dsimp only
    cases seen : before.probe.detector.edge? before.probe.lines sight with
    | some edge => exact absurd ⟨look, seen, rfl⟩ (unseen ⟨edge, sight⟩ _)
    | none =>
      have still := before.probe.weakData_paused
      cases paused : before.probe.pause <;> rw [paused] at still <;> exact still

/-- Nothing has been interpreted since `first`. -/
structure Lost (first : Checker β) (since : List Finding) (later : Checker β) : Prop where
  illegal : later.protocol.phase = .illegal
  suspended : Suspended first later
  bare : ∀ finding ∈ since, finding.isBare = true

theorem still_of_illegal (illegal : before.protocol.phase = .illegal)
    (none : ¬before.ConditionNext) :
    before.turned.protocol.phase = .illegal ∧ Suspended before before.turned ∧
      ∀ finding ∈ before.reported, finding.isBare = true := by
  by_cases seen : ∃ change committed, before.probe.Commits change committed
  case pos =>
    obtain ⟨change, committed, commits⟩ := seen
    have target : before.protocol.successor (before.sees change).detector change.edge.line =
        .illegal := by
      unfold Protocol.successor
      rw [if_neg]
      · rw [illegal]
        rfl
      · rintro ⟨-, line, high⟩
        refine none ⟨change, committed, commits, line, ?_⟩
        rw [commits.after]
        exact high
    have astray := astray_of_commits commits target
    obtain ⟨phase, bare⟩ := astray.bare illegal
    exact ⟨phase, astray.suspended, bare⟩
  case neg =>
    obtain ⟨silent, kept⟩ := before.commits_or_silent.resolve_left seen
    have drives := weakData_of_unseen fun change committed commits => seen ⟨_, _, commits⟩
    rw [reported_of_silent silent, kept]
    exact ⟨illegal, ⟨⟨_, _, _, kept⟩, drives⟩, nofun⟩

theorem Lost.turn {first : Checker β} (lost : Lost first since before)
    (none : ¬before.ConditionNext) : Lost first (since ++ before.reported) before.turned := by
  obtain ⟨phase, suspended, bare⟩ := still_of_illegal lost.illegal none
  refine ⟨phase, lost.suspended.trans suspended, fun finding mem => ?_⟩
  rcases List.mem_append.mp mem with mem | mem
  · exact lost.bare finding mem
  · exact bare finding mem

theorem Lost.unconditioned {first : Checker β} (lost : Lost first told next)
    (unconditioned : next.Unconditioned since later) : Lost first (told ++ since) later := by
  induction unconditioned with
  | none => rwa [List.append_nil]
  | turn _ none turned ih =>
    have further := ih.turn none
    rw [turned_of_turn turned, List.append_assoc] at further
    exact further

structure Recovers (before : Checker β) (rose : Bool) : Prop where
  phase : before.turned.protocol.phase = if rose then .stopped else .starting
  reported : ∃ timings, before.reported =
      .event (if rose then .stopBit else .startBit) :: timings ∧
    ∀ finding ∈ timings, ∃ param interval, finding = .violation (.timing param interval)

theorem recovers_of_illegal (illegal : before.protocol.phase = .illegal)
    (commits : before.probe.Commits change committed) (line : change.line = .data)
    (high : committed.detector.clock.level = true) :
    before.Recovers committed.detector.data.level := by
  have lasts : before.protocol.phase.Lasts before.probe.detector := by
    rw [illegal]
    exact ⟨by decide, nofun, nofun⟩
  have suits := suits_of_commits lasts commits
  obtain ⟨notes, error?, extent, told, -⟩ := extent_of_commits commits
  rw [commits.after] at high ⊢
  obtain ⟨edge, sight⟩ := change
  cases edge <;> cases line
  have high : (before.sees ⟨.data, sight⟩).detector.clock.level = true := high
  have target := Protocol.successor_of_illegal illegal (before.sees ⟨.data, sight⟩).detector
  rw [high, if_pos rfl] at target
  change before.Recovers (before.sees ⟨.data, sight⟩).detector.data.level
  have condition : Phase.condition? (before.protocol.successor
      (before.sees ⟨.data, sight⟩).detector .data) = some
        (if (before.sees ⟨.data, sight⟩).detector.data.level then .stopBit else .startBit) := by
    rw [target]
    split <;> rfl
  have rested := Protocol.rests_of_condition condition
  have suits : (before.sees ⟨.data, sight⟩).Suits
      (before.protocol.successor (before.sees ⟨.data, sight⟩).detector .data) := suits
  obtain ⟨rest, begins, within⟩ :=
    Protocol.notes_of_condition before.protocol condition suits.fits
  have same := Protocol.told_of_dataEdge high suits extent
  rw [Protocol.follow_of_settled (Protocol.forced?_enter_of_rests _ _ rested), begins] at same
  refine ⟨(Protocol.phase_of_dataEdge high rested extent).trans target, Note.told rest, ?_, ?_⟩
  · rw [told, same]
    rfl
  · intro finding mem
    obtain ⟨broken, rfl, kind⟩ := within finding (Note.mem_of_mem_told mem)
    cases broken with
    | timing param interval => exact ⟨param, interval, rfl⟩
    | _ => simp [Violation.kind] at kind

structure GoesAstray (before : Checker β) : Prop where
  origin : before.protocol.phase ∈ [.stopped, .starting, .byteDone, .repeatStart]
  goesOn : ∃ next, before.turn = .ok next
  suspended : Suspended before before.turned
  reported : ∃ told, before.reported =
      told ++ [.violation (.illegalPhase before.protocol.phase)] ∧
    ∀ finding ∈ told, finding.isBare = true

theorem legal_follow (checker : Checker β) (sight : Sight) {phase : Phase}
    (legal : phase ≠ .illegal) :
    (checker.follow sight phase).state.protocol.phase ≠ .illegal := by
  have first := congrArg Protocol.phase (checker.protocol_enter sight phase)
  rw [Protocol.phase_enter] at first
  unfold follow
  cases entered : checker.enter sight phase with
  | fail error stopped =>
    rw [entered] at first
    exact fun illegal => legal (first.symm.trans illegal)
  | ok forced? middle =>
    rw [entered] at first
    have forces := (arrived_enter entered).2
    rw [Outcome.andThen_ok]
    cases forced? with
    | none => exact fun illegal => legal (first.symm.trans illegal)
    | some forced =>
      have second := congrArg Protocol.phase (middle.protocol_enter sight forced)
      rw [Protocol.phase_enter] at second
      refine Outcome.state_andThen (motive := fun after : Checker β =>
        after.protocol.phase ≠ .illegal) ?_ fun _ _ => id
      rw [second]
      rintro rfl
      rcases Protocol.forced_cases forces.symm with
        ⟨-, -, same⟩ | ⟨-, same⟩ | ⟨-, -, same⟩ | ⟨-, same⟩
      · cases same
      · revert same
        split
        · exact nofun
        · split <;> exact nofun
      · cases same
      · revert same
        split <;> exact nofun

theorem target_of_turned (legal : before.protocol.phase ≠ .illegal)
    (illegal : before.turned.protocol.phase = .illegal) :
    ∃ change committed, before.probe.Commits change committed ∧
      before.protocol.successor (before.sees change).detector change.edge.line = .illegal := by
  rcases before.commits_or_silent with ⟨change, committed, commits⟩ | ⟨-, kept⟩
  case inr =>
    rw [kept] at illegal
    exact absurd illegal legal
  case inl =>
    refine ⟨change, committed, commits, ?_⟩
    rw [turned_of_commits commits, react_eq_judge] at illegal
    obtain ⟨⟨meter, kept⟩, -⟩ :=
      ({ before with probe := committed } : Checker β).kept_judge change
    cases judging : ({ before with probe := committed } : Checker β).judge change with
    | fail error stopped =>
      rw [judging, Outcome.state_fail] at kept
      rw [judging, Outcome.andThen_fail, Outcome.state_fail, kept] at illegal
      exact absurd illegal legal
    | ok _ last =>
      by_contra other
      rw [judging, Outcome.andThen_ok, (judged judging).successor, view_of_commits commits]
        at illegal
      exact last.legal_follow change.sight other illegal

theorem goesAstray_of_turned (lasts : before.protocol.phase.Lasts before.probe.detector)
    (legal : before.protocol.phase ≠ .illegal)
    (illegal : before.turned.protocol.phase = .illegal) : before.GoesAstray := by
  obtain ⟨change, committed, commits, target⟩ := target_of_turned legal illegal
  have astray := astray_of_commits commits target
  rcases astray.reached with ⟨-, goesOn, told⟩ | ⟨kept, -⟩
  · rw [if_neg legal] at told
    exact ⟨Protocol.origin_of_illegal lasts legal target, goesOn, astray.suspended, _, told,
      Protocol.bare_findings_edge _ _ _⟩
  · exact absurd (kept.symm.trans illegal) legal

/-- An excursion into the illegal phase, in any run. It begins in one of four phases, with the one
violation that says so. Until the data line moves while the clock is high nothing is interpreted:
nothing is told of but the edges themselves, and all that the protocol goes by stays as it is, also
if the run ends. That move is taken for a start if the line fell and for a stop if it rose. -/
theorem illegal_until_condition (idle : checker.startUp = .ok () ready)
    (run : ready.turns n = .ok before) (legal : before.protocol.phase ≠ .illegal)
    (illegal : before.turned.protocol.phase = .illegal) :
    before.GoesAstray ∧
    ∀ next since later, before.turn = .ok next → next.Unconditioned since later →
      Lost before since later ∧
      (∀ change committed, later.probe.Commits change committed → change.line = .data →
        committed.detector.clock.level = true →
        later.Recovers committed.detector.data.level) ∧
      (¬later.ConditionNext → Lost before (since ++ later.reported) later.turned) := by
  have astray := goesAstray_of_turned (lasts_turns idle run) legal illegal
  refine ⟨astray, fun next since later turned unconditioned => ?_⟩
  have same := turned_of_turn turned
  have start : Lost before [] next := ⟨same ▸ illegal, same ▸ astray.suspended, nofun⟩
  have lost := start.unconditioned unconditioned
  exact ⟨lost, fun change committed => recovers_of_illegal lost.illegal, lost.turn⟩

theorem conditionNext_iff : checker.ConditionNext ↔
    checker.edge?.any (fun edge => decide (edge.line = .data)) = true ∧
      checker.probe.detector.clock.level = true := by
  have kept (change : Change) (data : change.line = .data) :
      (checker.sees change).detector.clock = checker.probe.detector.clock := by
    unfold sees
    rw [data]
    rfl
  constructor
  · rintro ⟨change, committed, commits, data, high⟩
    rw [commits.after] at high
    rw [edge?_of_commits commits, ← kept change data]
    exact ⟨decide_eq_true data, high⟩
  · rintro ⟨shows, high⟩
    obtain ⟨edge, shown, data⟩ := (Option.any_eq_true _ _).mp shows
    obtain ⟨change, committed, commits, rfl⟩ := commits_of_edge? shown
    have data : change.line = .data := of_decide_eq_true data
    refine ⟨change, committed, commits, data, ?_⟩
    rw [← kept change data] at high
    rw [commits.after]
    exact high

instance : Decidable checker.ConditionNext := decidable_of_iff _ conditionNext_iff.symm

/-- So many turns on, if none of them commits an edge of the data line while the clock is high. -/
def unconditioned? (checker : Checker β) : Nat → Option (Checker β)
  | 0 => some checker
  | n + 1 => (unconditioned? checker n).bind fun before =>
    if before.ConditionNext then none else before.turn.toOption

theorem exists_unconditioned (h : checker.unconditioned? n = some later) :
    ∃ since, checker.Unconditioned since later := by
  induction n generalizing later with
  | zero =>
    cases h
    exact ⟨[], .none _⟩
  | succ n ih =>
    obtain ⟨before, early, turned⟩ := Option.bind_eq_some_iff.mp h
    obtain ⟨since, unconditioned⟩ := ih early
    split at turned
    · cases turned
    case isFalse none => exact ⟨_, .turn unconditioned none (eq_ok_of_toOption turned)⟩

/-- The clock falls at rest, the data line moves while it is low, and both come back, the clock
first. -/
theorem illegal_until_stop :
    ∃ checker ready before next since later, ∃ change : Change, ∃ committed : Probe Replay,
      ofConfig { clock := 0, data := 1, nominalSpeed := some 100 }
        (Replay.ofTrace 0 1 [⟨200, 0, some false⟩, ⟨250, 1, some false⟩, ⟨300, 0, none⟩,
          ⟨400, 1, none⟩]) = .ok checker ∧
      checker.startUp = .ok () ready ∧ ready.turns 1 = .ok before ∧
      before.protocol.phase = .stopped ∧ before.GoesAstray ∧ before.turn = .ok next ∧
      next.Unconditioned since later ∧ Lost before since later ∧
      later.probe.Commits change committed ∧ later.now = 400 ∧
      later.Recovers committed.detector.data.level := by
  have seen : ((ofConfig { clock := 0, data := 1, nominalSpeed := some 100 }
      (Replay.ofTrace 0 1 [⟨200, 0, some false⟩, ⟨250, 1, some false⟩, ⟨300, 0, none⟩,
        ⟨400, 1, none⟩])).toOption.bind fun checker =>
      checker.startUp.verdict.toOption.bind fun ready => (ready.turns 1).toOption.bind
      fun before => before.turn.toOption.bind fun next => (next.unconditioned? 5).map fun later =>
        (before.protocol.phase, next.protocol.phase, later.now, decide later.ConditionNext)) =
        some (.stopped, .illegal, 400, true) := by decide +kernel
  obtain ⟨checker, made, seen⟩ := Option.bind_eq_some_iff.mp seen
  obtain ⟨ready, idle, seen⟩ := Option.bind_eq_some_iff.mp seen
  obtain ⟨before, run, seen⟩ := Option.bind_eq_some_iff.mp seen
  obtain ⟨next, turned, seen⟩ := Option.bind_eq_some_iff.mp seen
  obtain ⟨later, gone, seen⟩ := Option.map_eq_some_iff.mp seen
  obtain ⟨stopped, illegal, now, shows⟩ := by simpa only [Prod.mk.injEq] using seen
  have made := eq_ok_of_toOption made
  have idle := Outcome.eq_ok_of_verdict (eq_ok_of_toOption idle)
  have run := eq_ok_of_toOption run
  have turned := eq_ok_of_toOption turned
  obtain ⟨since, unconditioned⟩ := exists_unconditioned gone
  obtain ⟨change, committed, commits, data, high⟩ := of_decide_eq_true shows
  obtain ⟨astray, after⟩ := illegal_until_condition idle run (by rw [stopped]; decide)
    (by rw [turned_of_turn turned, illegal])
  obtain ⟨lost, recovers, -⟩ := after next since later turned unconditioned
  exact ⟨checker, ready, before, next, since, later, change, committed, made, idle, run, stopped,
    astray, turned, unconditioned, lost, commits, now, recovers change committed commits data high⟩

end Checker
end TwoWire
