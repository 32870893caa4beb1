import TwoWire.Proofs.Simultaneous
import TwoWire.Proofs.Sound
import TwoWire.Proofs.Stretched

/-! A run as the list of the edges that it commits, with what comes of each. What is remembered of a
line are its last two edges (`recalls_turns`). -/

namespace TwoWire

namespace Transition

def on (line : Line) (edges : List Transition) : List Transition :=
  edges.filter fun edge => decide (edge.line = line)

def last? (line : Line) (edges : List Transition) : Option Transition := (on line edges).getLast?

theorem on_concat (line : Line) (edges : List Transition) (edge : Transition) :
    on line (edges ++ [edge]) = if edge.line = line then on line edges ++ [edge]
      else on line edges := by
  unfold on
  rw [List.filter_append]
  split <;> simp_all

end Transition

/-- What is remembered of a line whose edges these are. Before the first one a line is high. -/
structure LineSample.Recalls (sample : LineSample) (edges : List Transition) : Prop where
  level : sample.level = (edges.getLast?.map Transition.level).getD true
  changedAt : sample.changedAt = edges.getLast?.map Transition.time
  previousChange : sample.previousChange = edges.dropLast.getLast?.map Transition.time

theorem LineSample.Recalls.commit {sample : LineSample} {edges : List Transition}
    (recalls : sample.Recalls edges) (edge : Transition) :
    (sample.commit edge.level edge.time).Recalls (edges ++ [edge]) := by
  refine ⟨?_, ?_, ?_⟩
  · rw [List.getLast?_concat]
    rfl
  · rw [List.getLast?_concat]
    rfl
  · rw [List.dropLast_concat]
    exact recalls.changedAt

namespace EdgeDetector

def Recalls (detector : EdgeDetector) (edges : List Transition) : Prop :=
  ∀ line, (detector.sample line).Recalls (Transition.on line edges)

variable {detector : EdgeDetector} {edges : List Transition}

theorem recalls_nil : ({} : EdgeDetector).Recalls [] := by
  intro line
  cases line <;> exact ⟨rfl, rfl, rfl⟩

theorem Recalls.commit (recalls : detector.Recalls edges) (lines : Lines) (sight : Sight)
    (line : Line) : (detector.commit lines sight line).Recalls
      (edges ++ [⟨sight.now, line, lines.level sight line⟩]) := by
  intro other
  have same := recalls other
  rw [Transition.on_concat]
  cases line <;> cases other
  case clock.clock | data.data => exact same.commit ⟨sight.now, _, _⟩
  all_goals exact same

theorem Recalls.last_changedAt (recalls : detector.Recalls edges) (line : Line) :
    (detector.sample line).changedAt = (Transition.last? line edges).map Transition.time :=
  (recalls line).changedAt

theorem Recalls.sample_commit (recalls : detector.Recalls edges) (lines : Lines) (sight : Sight)
    (line other : Line) : (detector.commit lines sight line).sample other =
      if line = other then
        ⟨lines.level sight other, some sight.now,
          (Transition.last? other edges).map Transition.time⟩
      else detector.sample other := by
  have known := recalls.last_changedAt other
  cases line <;> cases other
  case clock.clock | data.data =>
    rw [if_pos rfl, ← known]
    rfl
  all_goals rfl

theorem Recalls.changedAt_of_other (recalls : detector.Recalls edges) (lines : Lines)
    (sight : Sight) {line other : Line} (apart : line ≠ other) :
    ((detector.commit lines sight line).sample other).changedAt =
      (Transition.last? other edges).map Transition.time := by
  rw [recalls.sample_commit lines sight, if_neg apart]
  exact recalls.last_changedAt other

theorem Recalls.previousChange_of_own (recalls : detector.Recalls edges) (lines : Lines)
    (sight : Sight) (line : Line) : ((detector.commit lines sight line).sample line).previousChange =
      (Transition.last? line edges).map Transition.time := by
  rw [recalls.sample_commit lines sight, if_pos rfl]

theorem Recalls.level_of_last? (recalls : detector.Recalls edges) {line : Line} {edge : Transition}
    (h : Transition.last? line edges = some edge) : (detector.sample line).level = edge.level := by
  have level := (recalls line).level
  rw [show (Transition.on line edges).getLast? = some edge from h] at level
  exact level

theorem Recalls.past (recalls : detector.Recalls edges) {now : Nat}
    (past : ∀ edge ∈ edges, edge.time ≤ now) : detector.Past now := by
  have known (line : Line) {times : List Transition} (sub : ∀ edge ∈ times, edge ∈ edges)
      (time : Nat) (h : times.getLast?.map Transition.time = some time) : time ≤ now := by
    obtain ⟨edge, last, rfl⟩ := Option.map_eq_some_iff.mp h
    exact past edge (sub edge (List.mem_of_getLast? last))
  have sample (line : Line) : (detector.sample line).Past now := by
    have all : ∀ edge ∈ Transition.on line edges, edge ∈ edges :=
      fun edge mem => (List.mem_filter.mp mem).1
    refine ⟨fun time h => ?_, fun time h => ?_⟩
    · exact known line all time ((recalls line).changedAt ▸ h)
    · exact known line (fun edge mem => all edge (List.dropLast_subset _ mem)) time
        ((recalls line).previousChange ▸ h)
  exact ⟨sample .clock, sample .data⟩

end EdgeDetector

namespace Probe

variable {β : Type} [LineBus β]

theorem prime_of_awaitIdle {probe idle : Probe β} (h : probe.awaitIdle = .ok () idle) :
    idle.detector = probe.detector.prime true true := by
  fun_induction awaitIdle probe with
  | case1 => cases h
  | case2 =>
    cases h
    rfl
  | case3 => cases h
  | case4 probe sight look busy _ woken woke ih =>
    obtain ⟨_, late, waited, refreshing⟩ := Outcome.of_andThen woke
    have refreshed := late.refreshed_refresh
    rw [refreshing] at refreshed
    obtain ⟨bus, -, rfl⟩ := wait_ok waited
    rw [ih h]
    exact congrArg (EdgeDetector.prime · true true) refreshed.still.detector

theorem prime_of_settle {probe idle : Probe β} {time : Nat} (h : probe.settle time = .ok () idle) :
    idle.detector = probe.detector.prime true true := by
  unfold settle at h
  obtain ⟨_, free, clock, h⟩ := Outcome.of_andThen h
  obtain ⟨_, both, data, h⟩ := Outcome.of_andThen h
  obtain ⟨_, late, waited, h⟩ := Outcome.of_andThen h
  have first := probe.still_drive .clock true
  have second := free.still_drive .data true
  rw [clock] at first
  rw [data] at second
  obtain ⟨bus, -, rfl⟩ := wait_ok waited
  rw [prime_of_awaitIdle h]
  exact congrArg (EdgeDetector.prime · true true) (second.detector.trans first.detector)

end Probe

structure Moment where
  edge : Transition
  /-- A byte was being received. -/
  sinking : Bool
  entered : List Phase
  told : List Finding
  deriving DecidableEq, Repr

namespace Checker

variable {β : Type} [LineBus β] {checker ready before next : Checker β} {change : Change}
  {committed : Probe β} {edge : Transition} {n : Nat}

def edge? (checker : Checker β) : Option Transition :=
  match checker.probe.look with
  | .error _ => none
  | .ok sight =>
    (checker.probe.detector.edge? checker.probe.lines sight).map fun edge =>
      ⟨sight.now, edge.line, checker.probe.lines.level sight edge.line⟩

def moment? (checker : Checker β) : Option Moment :=
  checker.edge?.map fun edge =>
    ⟨edge, checker.protocol.shifter.isSinking, checker.entered, checker.reported⟩

/-- What has come of the edges in so many turns, also if the last of them ends the run. -/
def moments (ready : Checker β) : Nat → List Moment
  | 0 => []
  | n + 1 =>
    match ready.turns n with
    | .ok before => moments ready n ++ before.moment?.toList
    | .error _ => moments ready n

def edges (ready : Checker β) (n : Nat) : List Transition := (ready.moments n).map Moment.edge

theorem edge?_of_commits (commits : before.probe.Commits change committed) :
    before.edge? =
      some ⟨change.time, change.line, (before.sees change).level change.line⟩ := by
  unfold edge?
  rw [commits.look]
  dsimp only
  rw [commits.edge]
  rfl

theorem commits_of_edge? (h : before.edge? = some edge) :
    ∃ change committed, before.probe.Commits change committed ∧
      edge = ⟨change.time, change.line, (before.sees change).level change.line⟩ := by
  unfold edge? at h
  split at h
  · cases h
  case h_2 sight look =>
    obtain ⟨seen, shows, rfl⟩ := Option.map_eq_some_iff.mp h
    exact ⟨⟨seen, sight⟩, _, ⟨look, shows, rfl⟩, rfl⟩

theorem edge?_eq_none (unseen : ¬∃ change committed, before.probe.Commits change committed) :
    before.edge? = none := by
  rw [Option.eq_none_iff_forall_ne_some]
  intro edge h
  obtain ⟨change, committed, commits, -⟩ := commits_of_edge? h
  exact unseen ⟨change, committed, commits⟩

theorem edge?_of_waited (waited : Waited before next) : before.edge? = none :=
  edge?_eq_none fun ⟨_, _, commits⟩ => waited.not_commits commits

theorem time_of_edge? (h : before.edge? = some edge) : edge.time = before.now := by
  obtain ⟨change, committed, commits, rfl⟩ := commits_of_edge? h
  exact Probe.now_of_look commits.look

theorem moments_succ (run : ready.turns n = .ok before) :
    ready.moments (n + 1) = ready.moments n ++ before.moment?.toList := by
  rw [moments, run]

theorem edges_succ (run : ready.turns n = .ok before) :
    ready.edges (n + 1) = ready.edges n ++ before.edge?.toList := by
  unfold edges
  rw [moments_succ run, List.map_append]
  unfold moment?
  cases before.edge? <;> rfl

theorem moments_of_commits (run : ready.turns n = .ok before)
    (commits : before.probe.Commits change committed) :
    ready.moments (n + 1) = ready.moments n ++
      [⟨⟨change.time, change.line, (before.sees change).level change.line⟩,
        before.protocol.shifter.isSinking, before.entered, before.reported⟩] := by
  rw [moments_succ run, moment?, edge?_of_commits commits]
  rfl

theorem moments_of_waited (run : ready.turns n = .ok before) (waited : Waited before next) :
    ready.moments (n + 1) = ready.moments n := by
  rw [moments_succ run, moment?, edge?_of_waited waited]
  exact List.append_nil _

theorem recalls_turn {edges : List Transition} (turned : before.turn = .ok next)
    (recalls : before.probe.detector.Recalls edges) :
    next.probe.detector.Recalls (edges ++ before.edge?.toList) := by
  rcases replied_or_waited turned with ⟨change, committed, commits, replied⟩ | waited
  · rw [replied.detector, edge?_of_commits commits]
    exact recalls.commit before.probe.lines change.sight change.line
  · rw [edge?_of_waited waited, waited.detector, Option.toList_none, List.append_nil]
    exact recalls

omit [LineBus β] in
theorem fresh_of_made {config : Config} {bus : β} (made : ofConfig config bus = .ok checker) :
    checker.config = config ∧ ∃ responses, checker.protocol = .ofConfig config responses := by
  unfold ofConfig at made
  cases accepted : config.check with
  | error wrong =>
    rw [accepted] at made
    cases made
  | ok responses =>
    rw [accepted] at made
    cases made
    exact ⟨rfl, responses, rfl⟩

theorem ready_of_startUp (idle : checker.startUp = .ok () ready) :
    ∃ late, (checker.note (.started checker.config)).probe.settle checker.config.settleTime =
        .ok () late ∧
      ready = { checker with
        probe := late
        protocol := { checker.protocol with phase := .stopped, previous := .stopped } } := by
  unfold startUp at idle
  cases settled : (checker.note (.started checker.config)).probe.settle
      checker.config.settleTime with
  | fail error late =>
    rw [settled] at idle
    cases idle
  | ok _ late =>
    rw [settled] at idle
    cases idle
    exact ⟨late, rfl, rfl⟩

theorem recalls_startUp {config : Config} {bus : β} (made : ofConfig config bus = .ok checker)
    (idle : checker.startUp = .ok () ready) : ready.probe.detector.Recalls [] := by
  have fresh : checker.probe.detector = {} := by rw [new_of_ofConfig made]
  obtain ⟨late, settled, rfl⟩ := ready_of_startUp idle
  have primed := Probe.prime_of_settle settled
  rw [show (checker.note (.started checker.config)).probe.detector = {} from fresh] at primed
  dsimp only
  rw [primed]
  exact EdgeDetector.recalls_nil

/-- What is remembered of the lines is what the edges committed so far say. -/
theorem recalls_turns {config : Config} {bus : β} (made : ofConfig config bus = .ok checker)
    (idle : checker.startUp = .ok () ready) (run : ready.turns n = .ok before) :
    before.probe.detector.Recalls (ready.edges n) := by
  induction n generalizing before with
  | zero =>
    cases run
    exact recalls_startUp made idle
  | succ n ih =>
    obtain ⟨early, run, turned⟩ := exists_of_turns_succ run
    rw [edges_succ run]
    exact recalls_turn turned (ih run)

theorem now_turn (forward : LineBus.Forward β) (turned : before.turn = .ok next) :
    before.now ≤ next.now := by
  rcases turn_cases turned with ⟨change, committed, commits, react⟩ | ⟨woken, paused, rfl⟩
  · have same := now_react ({ before with probe := committed } : Checker β) change
    rw [react, Outcome.state_ok] at same
    rw [same, commits.after]
    exact Nat.le_refl _
  · have later := before.probe.now_pause forward
    rw [paused] at later
    exact later

theorem ordered_edges (forward : LineBus.Forward β) (run : ready.turns n = .ok before) :
    (ready.edges n).Pairwise (·.time ≤ ·.time) ∧ ∀ edge ∈ ready.edges n, edge.time ≤ before.now := by
  induction n generalizing before with
  | zero => exact ⟨.nil, nofun⟩
  | succ n ih =>
    obtain ⟨early, run, turned⟩ := exists_of_turns_succ run
    obtain ⟨ordered, past⟩ := ih run
    have later := now_turn forward turned
    have now (edge : Transition) (mem : edge ∈ early.edge?.toList) : edge.time = early.now :=
      time_of_edge? (Option.mem_toList.mp mem)
    rw [edges_succ run, List.pairwise_append]
    refine ⟨⟨ordered, ?_, fun edge mem new fresh => (now new fresh) ▸ past edge mem⟩, ?_⟩
    · cases early.edge? with
      | none => exact .nil
      | some edge => exact List.pairwise_singleton _ _
    · intro edge mem
      rcases List.mem_append.mp mem with mem | mem
      · exact Nat.le_trans (past edge mem) later
      · exact now edge mem ▸ later

theorem dated_of_commits {edges : List Transition}
    (commits : before.probe.Commits change committed)
    (recalls : before.probe.detector.Recalls edges)
    (past : ∀ edge ∈ edges, edge.time ≤ before.now) (early : before.now < Time.half) :
    (before.sees change).Dated := by
  have now : change.sight.now = before.now := Probe.now_of_look commits.look
  have known : before.probe.detector.Past change.sight.now := now ▸ recalls.past past
  exact ⟨known.commit change.line, show change.sight.now < Time.half from now ▸ early⟩

theorem findings_of_moments (run : ready.turns n = .ok before) :
    before.turned.findings = ready.findings ++ (ready.moments (n + 1)).flatMap Moment.told := by
  have grown (before : Checker β) :
      before.turned.findings = before.findings ++ before.moment?.toList.flatMap Moment.told := by
    rw [findings_turned]
    congr 1
    unfold moment?
    by_cases seen : ∃ change committed, before.probe.Commits change committed
    · obtain ⟨change, committed, commits⟩ := seen
      rw [edge?_of_commits commits]
      exact (List.append_nil _).symm
    · obtain ⟨silent, -⟩ := before.commits_or_silent.resolve_left seen
      rw [edge?_eq_none seen, reported_of_silent silent]
      rfl
  induction n generalizing before with
  | zero =>
    rw [moments_succ run]
    cases run
    exact grown ready
  | succ n ih =>
    obtain ⟨early, first, turned⟩ := exists_of_turns_succ run
    have told := ih first
    rw [turned_of_turn turned] at told
    rw [moments_succ run, List.flatMap_append, ← List.append_assoc, ← told]
    exact grown before

/-- A run to its end, as the edges with what came of them. -/
inductive Recounts (checker : Checker β) : List Moment → Prop
  | restless {error : BusError} {stopped : Checker β}
      (restless : checker.startUp = .fail error stopped) : Recounts checker []
  | watched {ready last stopped : Checker β} {n : Nat} {error : BusError}
      (idle : checker.startUp = .ok () ready) (run : ready.turns n = .ok last)
      (ended : last.turn = .error (error, stopped)) :
    Recounts checker (ready.moments (n + 1))

variable {moments : List Moment}

theorem exists_recounts (checker : Checker β) : ∃ moments, checker.Recounts moments := by
  cases idle : checker.startUp with
  | fail error stopped => exact ⟨[], .restless idle⟩
  | ok _ ready =>
    obtain ⟨n, last, run, ended⟩ := exists_turns ready
    exact ⟨_, .watched idle run ended⟩

theorem findings_of_recounts (recounts : checker.Recounts moments) :
    checker.run.2.findings = checker.findings ++ moments.flatMap Moment.told := by
  have silent := checker.silent_startUp
  cases recounts with
  | restless idle => exact (run_of_restless idle).1.trans (List.append_nil _).symm
  | @watched ready last stopped n error idle run ended =>
    rw [idle] at silent
    have start : ready.findings = checker.findings := silent.findings
    have watched := (watched_of_ended run ended).2
    rw [← start, ← findings_of_moments run, run_of_startUp idle, ← watched]
    exact Journal.findings_cons_of_none rfl _

theorem told_of_recounts {config : Config} {bus : β} (made : ofConfig config bus = .ok checker)
    (recounts : checker.Recounts moments) :
    checker.run.2.findings = moments.flatMap Moment.told := by
  rw [findings_of_recounts recounts, (configured_of_ofConfig made).fresh, List.nil_append]

theorem turn_of_split {early late : List Moment} {moment : Moment}
    (split : ready.moments n = early ++ moment :: late) :
    ∃ m before, ready.turns m = .ok before ∧ ready.moments m = early ∧
      before.moment? = some moment := by
  induction n generalizing late with
  | zero => cases early <;> cases split
  | succ n ih =>
    unfold moments at split
    split at split
    case h_2 => exact ih split
    case h_1 before run =>
      cases seen : before.moment? with
      | none =>
        rw [seen, Option.toList_none, List.append_nil] at split
        exact ih split
      | some newest =>
        rw [seen, Option.toList_some] at split
        rcases List.eq_nil_or_concat late with rfl | ⟨rest, other, rfl⟩
        · obtain ⟨same, final⟩ := List.append_inj' split rfl
          cases final
          exact ⟨n, before, run, same, seen⟩
        · rw [List.concat_eq_append, ← List.cons_append, ← List.append_assoc] at split
          exact ih (List.append_inj' split rfl).1

theorem turn_of_recounts (recounts : checker.Recounts moments) {early late : List Moment}
    {moment : Moment} (split : moments = early ++ moment :: late) :
    ∃ ready n before, checker.startUp = .ok () ready ∧ ready.turns n = .ok before ∧
      ready.moments n = early ∧ before.moment? = some moment := by
  cases recounts with
  | restless => cases early <;> cases split
  | @watched ready last stopped n error idle run ended =>
    obtain ⟨m, before, run, same, seen⟩ := turn_of_split split
    exact ⟨ready, m, before, idle, run, same, seen⟩

theorem now_of_run (forward : LineBus.Forward β) (idle : checker.startUp = .ok () ready)
    (run : ready.turns n = .ok before) : before.now ≤ checker.run.2.now := by
  have later := before.now_watch forward
  rw [run_of_startUp idle, watch_turns run]
  exact later

def final? (checker : Checker β) (n : Nat) : Option (Checker β) :=
  match checker.startUp with
  | .fail .. => none
  | .ok _ ready =>
    match ready.turns n with
    | .ok _ => none
    | .error (_, last) => some last

theorem run_of_final? {last : Checker β} (h : checker.final? n = some last) :
    checker.run.2.now = last.now ∧ checker.run.2.findings = last.findings := by
  unfold final? at h
  split at h
  case h_1 => cases h
  case h_2 ready idle =>
    split at h
    case h_1 => cases h
    case h_2 error stopped ended =>
      cases h
      rw [run_of_startUp idle, watch_of_turns ended]
      exact ⟨rfl, Journal.findings_cons_of_none rfl _⟩

end Checker
end TwoWire
