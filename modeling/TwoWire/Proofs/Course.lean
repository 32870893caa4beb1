import TwoWire.Proofs.Answer
import TwoWire.Proofs.Turn

/-! How far a turn gets. What an answer has reported and which phases it has entered when it is cut
short are told by the protocol alone. A run is the sum of its turns, the last of which fails. -/

namespace TwoWire

def Outcome.error? : Outcome σ α → Option BusError
  | ok .. => none
  | fail error _ => some error

namespace Protocol

/-- The phase that an edge leads to, without the one that it may force. -/
def landing (protocol : Protocol) (stretches : Bool) (view : View) (edge : Edge) : Arrival :=
  (protocol.measured view edge).enter (view.held edge stretches)
    (protocol.successor view.detector edge.line)

def forcedNotes (protocol : Protocol) (stretches : Bool) (view : View) (edge : Edge) : List Note :=
  let landing := protocol.landing stretches view edge
  match landing.forced? with
  | none => []
  | some forced =>
    (landing.protocol.enter ((view.held edge stretches).driven landing.drive?) forced).notes

theorem follow_of_settled {protocol : Protocol} {view : View} {phase : Phase}
    (h : (protocol.enter view phase).forced? = none) :
    protocol.follow view phase = protocol.enter view phase := by
  unfold follow
  dsimp only
  rw [h]

theorem follow_of_forced {protocol : Protocol} {view : View} {phase forced : Phase}
    (h : (protocol.enter view phase).forced? = some forced) :
    protocol.follow view phase =
      let first := protocol.enter view phase
      let second := first.protocol.enter (view.driven first.drive?) forced
      { protocol := second.protocol
        notes := first.notes ++ second.notes
        drive? := first.drive? } := by
  unfold follow
  dsimp only
  rw [h]

theorem phase_follow (protocol : Protocol) (view : View) (phase : Phase) :
    (protocol.follow view phase).protocol.phase =
      ((protocol.enter view phase).forced?).getD phase := by
  cases forces : (protocol.enter view phase).forced? with
  | none => rw [follow_of_settled forces, phase_enter, Option.getD_none]
  | some forced =>
    rw [follow_of_forced forces]
    exact phase_enter ..

variable {protocol : Protocol} {stretches : Bool} {view : View} {edge : Edge}

theorem protocol_answer_of_settled (h : (protocol.landing stretches view edge).forced? = none) :
    (protocol.answer stretches view edge).protocol =
      (protocol.landing stretches view edge).protocol := by
  have same := congrArg Arrival.protocol (follow_of_settled h)
  exact same

theorem protocol_answer_of_forced {forced : Phase}
    (h : (protocol.landing stretches view edge).forced? = some forced) :
    (protocol.answer stretches view edge).protocol =
      ((protocol.landing stretches view edge).protocol.enter
        ((view.held edge stretches).driven (protocol.landing stretches view edge).drive?)
        forced).protocol := by
  have same := congrArg Arrival.protocol (follow_of_forced h)
  exact same

theorem notes_answer (protocol : Protocol) (stretches : Bool) (view : View) (edge : Edge) :
    (protocol.answer stretches view edge).notes =
      protocol.edgeNotes view edge ++ Checker.simultaneousNotes edge ++
        (protocol.landing stretches view edge).notes ++
        protocol.forcedNotes stretches view edge := by
  unfold answer forcedNotes
  dsimp only
  cases h : (protocol.landing stretches view edge).forced? with
  | none =>
    rw [follow_of_settled h, List.append_nil]
    rfl
  | some forced =>
    have same := congrArg Arrival.notes (follow_of_forced h)
    dsimp only at same ⊢
    rw [same, ← List.append_assoc]
    rfl

/-- How far the answer to an edge may get: the protocol it leaves, what has been noted, the phases
that have been entered and why it ended, if it was cut short. -/
inductive Extent (protocol : Protocol) (stretches : Bool) (view : View) (edge : Edge) :
    Protocol → List Note → List Phase → Option BusError → Prop
  /-- The edge cannot be measured, or the clock cannot be held low. -/
  | judged {after : Protocol} {error : BusError} (kept : after.shifter = protocol.shifter)
      (cut : ¬Note.Sound (protocol.edgeNotes view edge) ∨ view.falls edge = true) :
    Extent protocol stretches view edge after (protocol.edgeNotes view edge) [] (some error)
  /-- An interval that the phase looks at cannot be measured. -/
  | unread {kind : Overflow} (measured : Note.Sound (protocol.edgeNotes view edge))
      (overflow : .overflow kind ∈ (protocol.landing stretches view edge).notes) :
    Extent protocol stretches view edge (protocol.landing stretches view edge).protocol
      (protocol.edgeNotes view edge ++ Checker.simultaneousNotes edge ++
        (protocol.landing stretches view edge).notes)
      [protocol.successor view.detector edge.line] (some (.overflow kind))
  /-- The data line cannot be driven. -/
  | refused {error : BusError} (measured : Note.Sound (protocol.edgeNotes view edge))
      (sound : Note.Sound (protocol.landing stretches view edge).notes)
      (drives : (protocol.landing stretches view edge).drive?.isSome) :
    Extent protocol stretches view edge (protocol.landing stretches view edge).protocol
      (protocol.edgeNotes view edge ++ Checker.simultaneousNotes edge ++
        (protocol.landing stretches view edge).notes)
      [protocol.successor view.detector edge.line] (some error)
  /-- Nothing is forced. -/
  | settled (measured : Note.Sound (protocol.edgeNotes view edge))
      (sound : Note.Sound (protocol.landing stretches view edge).notes)
      (rests : (protocol.landing stretches view edge).forced? = none) :
    Extent protocol stretches view edge (protocol.landing stretches view edge).protocol
      (protocol.edgeNotes view edge ++ Checker.simultaneousNotes edge ++
        (protocol.landing stretches view edge).notes)
      [protocol.successor view.detector edge.line] none
  /-- Another phase is forced and entered, as far as that goes. -/
  | forced {forced : Phase} {error? : Option BusError}
      (measured : Note.Sound (protocol.edgeNotes view edge))
      (sound : Note.Sound (protocol.landing stretches view edge).notes)
      (next : (protocol.landing stretches view edge).forced? = some forced) :
    Extent protocol stretches view edge (protocol.answer stretches view edge).protocol
      (protocol.answer stretches view edge).notes
      [protocol.successor view.detector edge.line, forced] error?

end Protocol

namespace Checker

variable {β : Type} [LineBus β]

theorem protocol_report (checker : Checker β) (notes : List Note) :
    (checker.report notes).state.protocol = checker.protocol := by
  induction notes generalizing checker with
  | nil => rfl
  | cons note rest ih =>
    cases note with
    | overflow => rfl
    | found finding =>
      exact ih (checker.note (.recorded ⟨checker.now, checker.protocol.phase, finding⟩))

theorem protocol_driveData (checker : Checker β) (drive? : Option Bool) :
    (checker.driveData drive?).state.protocol = checker.protocol := by
  cases drive? with
  | none => rfl
  | some level =>
    unfold driveData drive
    rw [Outcome.state_mapState]

theorem protocol_enter (checker : Checker β) (sight : Sight) (phase : Phase) :
    (checker.enter sight phase).state.protocol =
      (checker.protocol.enter (checker.view sight) phase).protocol := by
  unfold enter
  dsimp only
  generalize checker.protocol.enter (checker.view sight) phase = arrival
  have kept := protocol_report ({ checker.note
    (.entered checker.protocol.phase phase checker.now) with
      protocol := arrival.protocol } : Checker β) arrival.notes
  revert kept
  cases report (β := β) _ arrival.notes with
  | fail error last => exact id
  | ok _ last =>
    intro kept
    have driven := last.protocol_driveData arrival.drive?
    rw [Outcome.andThen_ok]
    revert driven
    cases last.driveData arrival.drive? <;> exact fun driven => driven.trans kept

theorem overflow_of_report {before stopped : Checker β} {notes : List Note} {error : BusError}
    (h : before.report notes = .fail error stopped) :
    ∃ kind, .overflow kind ∈ notes ∧ error = .overflow kind := by
  induction notes generalizing before with
  | nil => cases h
  | cons note rest ih =>
    cases note with
    | overflow kind =>
      cases h
      exact ⟨kind, List.mem_cons_self, rfl⟩
    | found finding =>
      obtain ⟨kind, mem, same⟩ :=
        @ih (before.note (.recorded ⟨before.now, before.protocol.phase, finding⟩)) h
      exact ⟨kind, List.mem_cons_of_mem _ mem, same⟩

theorem not_sound_of_report {before stopped : Checker β} {notes : List Note} {error : BusError}
    (h : before.report notes = .fail error stopped) : ¬Note.Sound notes := by
  intro sound
  obtain ⟨kind, mem, -⟩ := overflow_of_report h
  obtain ⟨finding, same⟩ := sound _ mem
  cases same

theorem cases_of_enter {before stopped : Checker β} {sight : Sight} {phase : Phase}
    {error : BusError} (h : before.enter sight phase = .fail error stopped) :
    (∃ kind, .overflow kind ∈ (before.protocol.enter (before.view sight) phase).notes ∧
        error = .overflow kind) ∨
      Note.Sound (before.protocol.enter (before.view sight) phase).notes ∧
        (before.protocol.enter (before.view sight) phase).drive?.isSome := by
  unfold enter at h
  dsimp only at h
  generalize before.protocol.enter (before.view sight) phase = arrival at h ⊢
  cases reported : report ({ before.note (.entered before.protocol.phase phase before.now) with
      protocol := arrival.protocol } : Checker β) arrival.notes with
  | fail reason last =>
    rw [reported] at h
    cases h
    exact .inl (overflow_of_report reported)
  | ok _ last =>
    rw [reported] at h
    refine .inr ⟨sound_of_report reported, ?_⟩
    cases drive : arrival.drive? with
    | none =>
      rw [drive] at h
      cases h
    | some level => rfl

theorem protocol_drive (checker : Checker β) (line : Line) (level : Bool) :
    (checker.drive line level).state.protocol = checker.protocol := by
  unfold drive
  rw [Outcome.state_mapState]

theorem shifter_clockEdge (checker : Checker β) (change : Change) :
    (checker.clockEdge change).state.protocol.shifter = checker.protocol.shifter := by
  unfold clockEdge
  split
  case isFalse => rfl
  case isTrue =>
    unfold clockFell
    dsimp only
    split
    case isFalse => rfl
    case isTrue =>
      generalize begun : ({ checker with
        protocol := { checker.protocol with meter := checker.protocol.meter.clockFell change.time }
        probe := { checker.probe with stretch := checker.probe.stretch.begin change.time } } :
          Checker β) = held
      have kept := held.protocol_drive .clock false
      have shifter : held.protocol.shifter = checker.protocol.shifter := by rw [← begun]
      cases low : held.drive .clock false <;> rw [low] at kept <;>
        exact (congrArg Protocol.shifter kept).trans shifter

theorem falls_of_clockEdge {before stopped : Checker β} {change : Change} {error : BusError}
    (h : before.clockEdge change = .fail error stopped) :
    (before.view change.sight).falls change.edge = true := by
  unfold clockEdge at h
  split at h
  case isFalse => cases h
  case isTrue fell =>
    unfold View.falls
    rw [Bool.and_eq_true, decide_eq_true_eq, Bool.not_eq_true']
    exact fell

theorem cut_of_judge {before stopped : Checker β} {change : Change} {error : BusError}
    (h : before.judge change = .fail error stopped) :
    stopped.protocol.shifter = before.protocol.shifter ∧
      (¬Note.Sound (before.protocol.edgeNotes (before.view change.sight) change.edge) ∨
        (before.view change.sight).falls change.edge = true) ∧
      stopped.findings = before.findings ++
        Note.told (before.protocol.edgeNotes (before.view change.sight) change.edge) ∧
      stopped.phases = before.phases := by
  unfold judge at h
  have told := before.told_report
    (before.protocol.edgeNotes (before.view change.sight) change.edge)
  have phases := before.phases_report
    (before.protocol.edgeNotes (before.view change.sight) change.edge)
  have kept := before.protocol_report
    (before.protocol.edgeNotes (before.view change.sight) change.edge)
  cases reported : before.report
      (before.protocol.edgeNotes (before.view change.sight) change.edge) with
  | fail reason last =>
    rw [reported] at h told phases kept
    cases h
    exact ⟨congrArg Protocol.shifter kept, .inl (not_sound_of_report reported), told, phases⟩
  | ok _ first =>
    rw [reported] at h told phases kept
    rw [Outcome.andThen_ok] at h
    have silent := first.silent_clockEdge change
    have shifter := first.shifter_clockEdge change
    have same := report_ok reported
    cases clocked : first.clockEdge change with
    | ok _ middle =>
      rw [clocked, Outcome.andThen_ok] at h
      exact absurd (sound_simultaneousNotes _) (not_sound_of_report h)
    | fail reason last =>
      have fell := falls_of_clockEdge clocked
      rw [clocked] at h silent shifter
      cases h
      have unmoved : first.view change.sight = before.view change.sight := by rw [same]; rfl
      refine ⟨shifter.trans (congrArg Protocol.shifter kept), .inr (unmoved ▸ fell), ?_, ?_⟩
      · exact silent.findings.trans told
      · exact (Journal.phases_of_silent silent).trans phases

theorem phases_of_judge {before after : Checker β} {change : Change}
    (h : before.judge change = .ok () after) : after.phases = before.phases := by
  unfold judge at h
  obtain ⟨_, first, reported, h⟩ := Outcome.of_andThen h
  obtain ⟨_, middle, clocked, noted⟩ := Outcome.of_andThen h
  have early := before.phases_report
    (before.protocol.edgeNotes (before.view change.sight) change.edge)
  have silent := first.silent_clockEdge change
  have late := middle.phases_report (simultaneousNotes change.edge)
  rw [reported] at early
  rw [clocked] at silent
  rw [noted] at late
  exact late.trans ((Journal.phases_of_silent silent).trans early)

theorem sound_of_judge {before after : Checker β} {change : Change}
    (h : before.judge change = .ok () after) :
    Note.Sound (before.protocol.edgeNotes (before.view change.sight) change.edge) := by
  unfold judge at h
  obtain ⟨_, first, reported, -⟩ := Outcome.of_andThen h
  exact sound_of_report reported

theorem told_forced {landed : Checker β} {protocol : Protocol} {stretches : Bool} {view : View}
    {edge : Edge} {sight : Sight} {forced : Phase}
    (kept : landed.protocol = (protocol.landing stretches view edge).protocol)
    (seen : landed.view sight =
      (view.held edge stretches).driven (protocol.landing stretches view edge).drive?)
    (next : (protocol.landing stretches view edge).forced? = some forced) :
    (landed.enter sight forced).state.protocol =
        (protocol.answer stretches view edge).protocol ∧
      (landed.enter sight forced).state.findings =
        landed.findings ++ Note.told (protocol.forcedNotes stretches view edge) ∧
      (landed.enter sight forced).state.phases = landed.phases ++ [forced] := by
  have told := landed.told_enter sight forced
  have left := landed.protocol_enter sight forced
  rw [kept, seen] at told left
  refine ⟨left.trans (Protocol.protocol_answer_of_forced next).symm, ?_⟩
  unfold Protocol.forcedNotes
  dsimp only
  rw [next]
  exact told

theorem extent_react (before : Checker β) (change : Change) :
    ∃ notes phases,
      Protocol.Extent before.protocol before.probe.stretch.isEnabled (before.view change.sight)
        change.edge (before.react change).state.protocol notes phases
        (before.react change).error? ∧
      (before.react change).state.findings = before.findings ++ Note.told notes ∧
      (before.react change).state.phases = before.phases ++ phases := by
  rw [react_eq_judge]
  cases judging : before.judge change with
  | fail error stopped =>
    obtain ⟨kept, cut, told, phases⟩ := cut_of_judge judging
    exact ⟨_, _, .judged kept cut, told, phases.trans (List.append_nil _).symm⟩
  | ok _ ready =>
    have measured := sound_of_judge judging
    have unentered := phases_of_judge judging
    have judged := judged judging
    have start : Note.Sound (before.protocol.edgeNotes (before.view change.sight) change.edge ++
        simultaneousNotes change.edge) :=
      Note.sound_append measured (sound_simultaneousNotes _)
    rw [Outcome.andThen_ok, judged.successor]
    have landing : ready.protocol.enter (ready.view change.sight)
          (before.protocol.successor (before.view change.sight).detector change.edge.line) =
        before.protocol.landing before.probe.stretch.isEnabled (before.view change.sight)
          change.edge := by
      rw [judged.protocol, judged.view]
      rfl
    obtain ⟨told, phases⟩ := ready.told_enter change.sight
      (before.protocol.successor (before.view change.sight).detector change.edge.line)
    have kept := ready.protocol_enter change.sight
      (before.protocol.successor (before.view change.sight).detector change.edge.line)
    rw [landing, judged.findings, List.append_assoc, ← Note.told_append_of_sound start] at told
    rw [unentered] at phases
    rw [landing] at kept
    unfold follow
    cases entered : ready.enter change.sight
        (before.protocol.successor (before.view change.sight).detector change.edge.line) with
    | fail error stopped =>
      rw [entered, Outcome.state_fail] at told phases kept
      have cut := cases_of_enter entered
      rw [landing] at cut
      rw [Outcome.andThen_fail, Outcome.state_fail, kept]
      refine ⟨_, _, ?_, told, phases⟩
      rcases cut with ⟨kind, overflow, rfl⟩ | ⟨sound, drives⟩
      · exact .unread measured overflow
      · exact .refused measured sound drives
    | ok forced? landed =>
      rw [entered, Outcome.state_ok] at told phases kept
      have sound := sound_of_enter entered
      obtain ⟨arrived, forces⟩ := arrived_enter entered
      have seen := view_of_arrived arrived
      rw [landing] at sound forces seen
      rw [judged.view] at seen
      rw [Outcome.andThen_ok]
      cases forced? with
      | none =>
        rw [Outcome.state_ok, kept]
        exact ⟨_, _, .settled measured sound forces.symm, told, phases⟩
      | some forced =>
        dsimp only
        obtain ⟨left, told', phases'⟩ := told_forced kept seen forces.symm
        have entire := Protocol.notes_answer before.protocol before.probe.stretch.isEnabled
          (before.view change.sight) change.edge
        have state : ((landed.enter change.sight forced).andThen fun _ checker =>
            Outcome.ok () checker).state = (landed.enter change.sight forced).state := by
          cases landed.enter change.sight forced <;> rfl
        rw [state, left]
        refine ⟨_, _, .forced measured sound forces.symm, ?_, ?_⟩
        · have whole := Note.sound_append start sound
          rw [told', told, entire, List.append_assoc,
            Note.told_of_sound whole, Note.told_append_of_sound whole]
        · rw [phases', phases, List.append_assoc]
          rfl

/-- The checker after a turn, whether the turn goes through or ends the run. -/
def turned (checker : Checker β) : Checker β :=
  match checker.turn with
  | .ok next => next
  | .error (_, stopped) => stopped

def reported (checker : Checker β) : List Finding :=
  checker.turned.findings.drop checker.findings.length

def entered (checker : Checker β) : List Phase :=
  checker.turned.phases.drop checker.phases.length

/-- What an edge is answered with: the lines as they were looked at and the levels committed
then. -/
def sees (checker : Checker β) (change : Change) : View where
  sight := change.sight
  lines := checker.probe.lines
  detector := checker.probe.detector.commit checker.probe.lines change.sight change.line

theorem view_of_commits {checker : Checker β} {committed : Probe β} {change : Change}
    (commits : checker.probe.Commits change committed) :
    ({ checker with probe := committed } : Checker β).view change.sight =
      checker.sees change := by
  rw [commits.after]
  rfl

theorem turn_of_commits {checker : Checker β} {committed : Probe β} {change : Change}
    (commits : checker.probe.Commits change committed) :
    checker.turn =
      (({ checker with probe := committed } : Checker β).react change).verdict := by
  unfold turn
  rw [commits.look]
  dsimp only
  rw [commits.edge, commits.after]

theorem turned_of_ended {checker : Checker β} {ended : BusError × Checker β}
    (ends : checker.turn = .error ended) : checker.turned = ended.2 := by
  unfold turned
  rw [ends]

theorem turned_of_commits {checker : Checker β} {committed : Probe β} {change : Change}
    (commits : checker.probe.Commits change committed) :
    checker.turned =
      (({ checker with probe := committed } : Checker β).react change).state := by
  unfold turned
  rw [turn_of_commits commits]
  cases react (β := β) _ change <;> rfl

theorem commits_or_silent (checker : Checker β) :
    (∃ change committed, checker.probe.Commits change committed) ∨
      checker.probe.Silent checker.turned.probe ∧
        checker.turned.protocol = checker.protocol := by
  unfold turned turn
  cases look : checker.probe.look with
  | error error => exact .inr ⟨.refl _, rfl⟩
  | ok sight =>
    dsimp only
    cases seen : checker.probe.detector.edge? checker.probe.lines sight with
    | some edge => exact .inl ⟨⟨edge, sight⟩, _, look, seen, rfl⟩
    | none =>
      have silent := checker.probe.silent_pause
      cases paused : checker.probe.pause <;> rw [paused] at silent <;> exact .inr ⟨silent, rfl⟩

theorem extent_turn {before : Checker β} {change : Change} {committed : Probe β}
    (commits : before.probe.Commits change committed) :
    ∃ notes error?,
      before.protocol.Extent before.probe.stretch.isEnabled (before.sees change) change.edge
        before.turned.protocol notes before.entered error? ∧
      before.turned.findings = before.findings ++ Note.told notes ∧
      before.turned.phases = before.phases ++ before.entered ∧
      ∀ error, error? = some error → ∃ stopped, before.turn = .error (error, stopped) := by
  have turn := turn_of_commits commits
  have turned := turned_of_commits commits
  have view := view_of_commits commits
  generalize here : ({ before with probe := committed } : Checker β) = checker
    at turn turned view
  obtain ⟨notes, phases, extent, told, entered⟩ := checker.extent_react change
  have quiet : before.probe.Silent checker.probe := by
    rw [← here, commits.after]
    exact Journal.silent_cons rfl rfl before.probe.journal
  have protocol : checker.protocol = before.protocol := by rw [← here]
  have stretch : checker.probe.stretch = before.probe.stretch := by rw [← here, commits.after]; rfl
  rw [protocol, stretch, view, ← turned] at extent
  rw [← turned, show checker.findings = before.findings from quiet.findings] at told
  rw [← turned, show checker.phases = before.phases from Journal.phases_of_silent quiet] at entered
  have same : before.entered = phases := by
    unfold Checker.entered
    rw [entered, List.drop_left]
  refine ⟨notes, (checker.react change).error?, same ▸ extent, told, same ▸ entered, ?_⟩
  intro error fails
  rw [turn]
  cases reacted : checker.react change with
  | ok _ next =>
    rw [reacted] at fails
    cases fails
  | fail reason stopped =>
    rw [reacted] at fails
    cases fails
    exact ⟨stopped, rfl⟩

theorem findings_turned (checker : Checker β) :
    checker.turned.findings = checker.findings ++ checker.reported := by
  have grows : ∃ told, checker.turned.findings = checker.findings ++ told := by
    rcases checker.commits_or_silent with ⟨change, committed, commits⟩ | ⟨silent, -⟩
    · obtain ⟨notes, _, -, told, -⟩ := extent_turn commits
      exact ⟨_, told⟩
    · exact ⟨[], silent.findings.trans (List.append_nil _).symm⟩
  obtain ⟨told, grown⟩ := grows
  unfold reported
  rw [grown, List.drop_left]

theorem reported_of_silent {checker : Checker β}
    (silent : checker.probe.Silent checker.turned.probe) : checker.reported = [] := by
  unfold reported
  rw [show checker.turned.findings = checker.findings from silent.findings]
  exact List.drop_length

theorem entered_of_silent {checker : Checker β}
    (silent : checker.probe.Silent checker.turned.probe) : checker.entered = [] := by
  unfold entered
  rw [show checker.turned.phases = checker.phases from Journal.phases_of_silent silent]
  exact List.drop_length

theorem commits_of_reported {before : Checker β} {finding : Finding}
    (mem : finding ∈ before.reported) :
    ∃ change committed, before.probe.Commits change committed := by
  rcases before.commits_or_silent with commits | ⟨silent, -⟩
  · exact commits
  · rw [reported_of_silent silent] at mem
    cases mem

theorem commits_of_entered {before : Checker β} {phase : Phase} (mem : phase ∈ before.entered) :
    ∃ change committed, before.probe.Commits change committed := by
  rcases before.commits_or_silent with commits | ⟨silent, -⟩
  · exact commits
  · rw [entered_of_silent silent] at mem
    cases mem

theorem extent_of_commits {before : Checker β} {change : Change} {committed : Probe β}
    (commits : before.probe.Commits change committed) :
    ∃ notes error?,
      before.protocol.Extent before.probe.stretch.isEnabled (before.sees change) change.edge
        before.turned.protocol notes before.entered error? ∧
      before.reported = Note.told notes ∧
      ∀ error, error? = some error → ∃ stopped, before.turn = .error (error, stopped) := by
  obtain ⟨notes, error?, extent, told, -, ends⟩ := extent_turn commits
  refine ⟨notes, error?, extent, ?_, ends⟩
  unfold reported
  rw [told, List.drop_left]

theorem exists_of_turns_succ {checker after : Checker β} {n : Nat}
    (h : checker.turns (n + 1) = .ok after) :
    ∃ before, checker.turns n = .ok before ∧ before.turn = .ok after := by
  induction n generalizing checker with
  | zero =>
    unfold turns at h
    cases turned : checker.turn with
    | ok next =>
      rw [turned] at h
      cases h
      exact ⟨checker, rfl, turned⟩
    | error stopped =>
      rw [turned] at h
      cases h
  | succ n ih =>
    unfold turns at h ⊢
    cases turned : checker.turn with
    | ok next =>
      rw [turned] at h
      exact ih h
    | error stopped =>
      rw [turned] at h
      cases h

theorem turns_of_turn {checker next last : Checker β} {n : Nat} (first : checker.turn = .ok next)
    (rest : next.turns n = .ok last ∧ last.turn = .error next.watch) :
    checker.turns (n + 1) = .ok last ∧ last.turn = .error checker.watch := by
  unfold turns
  rw [first, watch_of_turn first]
  exact rest

/-- A step is a number of turns: wake-ups without an edge and then the answer to one. -/
theorem exists_turns_of_step (checker : Checker β)
    (further : ∀ next, checker.step = .ok () next →
      ∃ n last, next.turns n = .ok last ∧ last.turn = .error next.watch) :
    ∃ n last, checker.turns n = .ok last ∧ last.turn = .error checker.watch := by
  cases turned : checker.turn with
  | error stopped => exact ⟨0, checker, rfl, by rw [watch_turn, turned]⟩
  | ok next =>
    have first := turned
    unfold turn at turned
    split at turned
    case h_1 => cases turned
    case h_2 sight look =>
      split at turned
      case h_1 edge seen =>
        have step := (step_of_edge look seen).trans (Outcome.eq_ok_of_verdict turned)
        obtain ⟨n, last, rest⟩ := further next step
        exact ⟨n + 1, last, turns_of_turn first rest⟩
      case h_2 unseen =>
        cases paused : checker.probe.pause with
        | fail error woken =>
          rw [paused] at turned
          cases turned
        | ok _ woken =>
          rw [paused] at turned
          cases turned
          -- the wake-up is within the step, which goes on from there
          have same : checker.step = ({ checker with probe := woken } : Checker β).step := by
            rw [step_of_pause look unseen, paused]
            rfl
          obtain ⟨n, last, rest⟩ :=
            exists_turns_of_step { checker with probe := woken } (same ▸ further)
          exact ⟨n + 1, last, turns_of_turn first rest⟩
termination_by
  (LineBus.work checker.probe.bus, checker.probe.stretch.remaining checker.probe.now)
decreasing_by exact Probe.pause_lt paused

/-- Every run is a number of turns that go through and one that fails. -/
theorem exists_turns (checker : Checker β) :
    ∃ n last, checker.turns n = .ok last ∧ last.turn = .error checker.watch :=
  exists_turns_of_step checker fun next _ => exists_turns next
termination_by checker.measure
decreasing_by exact step_lt ‹_›

/-- What holds of a run if it holds of what is left after its first turn holds of every run. -/
theorem turn_induct {motive : Checker β → Prop}
    (further : ∀ checker, (∀ next, checker.turn = .ok next → motive next) → motive checker)
    (checker : Checker β) : motive checker := by
  obtain ⟨n, last, run, ends⟩ := exists_turns checker
  generalize checker.watch = stop at ends
  induction n generalizing checker with
  | zero =>
    cases run
    refine further _ fun next turned => ?_
    rw [ends] at turned
    cases turned
  | succ n ih =>
    refine further checker fun next turned => ?_
    unfold turns at run
    rw [turned] at run
    exact ih next run

theorem silent_startUp (checker : Checker β) :
    checker.probe.Silent checker.startUp.state.probe := by
  have start : checker.probe.Silent (checker.note (.started checker.config)).probe :=
    Journal.silent_cons rfl rfl checker.probe.journal
  have settled := start.trans
    ((checker.note (.started checker.config)).probe.silent_settle checker.config.settleTime)
  unfold startUp
  revert settled
  cases (checker.note (.started checker.config)).probe.settle checker.config.settleTime <;>
    exact id

theorem phase_startUp {checker ready : Checker β} (idle : checker.startUp = .ok () ready) :
    ready.protocol.phase = .stopped := by
  unfold startUp at idle
  obtain ⟨_, late, -, same⟩ := Outcome.of_andThen idle
  cases same
  rfl

theorem run_of_ready {checker ready : Checker β} (idle : checker.startUp = .ok () ready) :
    ∃ n last, ready.turns n = .ok last ∧ last.turn = .error ready.watch ∧
      checker.run.1 = ready.watch.1 ∧ checker.run.2.protocol = last.turned.protocol ∧
      checker.run.2.findings = last.turned.findings := by
  obtain ⟨n, last, run, ends⟩ := exists_turns ready
  have turned := turned_of_ended ends
  refine ⟨n, last, run, ends, ?_, ?_, ?_⟩ <;> rw [run_of_startUp idle]
  · rw [turned]
    rfl
  · rw [turned]
    exact Journal.findings_cons_of_none rfl _

theorem run_of_restless {checker stopped : Checker β} {error : BusError}
    (idle : checker.startUp = .fail error stopped) :
    checker.run.2.findings = checker.findings ∧ checker.run.2.protocol = checker.protocol := by
  have silent := checker.silent_startUp
  rw [idle] at silent
  unfold run
  rw [idle]
  refine ⟨(Journal.findings_cons_of_none rfl _).trans silent.findings, ?_⟩
  unfold startUp at idle
  revert idle
  cases (checker.note (.started checker.config)).probe.settle checker.config.settleTime with
  | ok _ late => exact nofun
  | fail reason late =>
    intro idle
    cases idle
    rfl

end Checker
end TwoWire
