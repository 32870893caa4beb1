import TwoWire.Proofs.Intervals

/-! The timing violations of a whole run, told from the edges that it commits: those of the edges by
themselves (`edges_judged`), and those of starts, stops and bits (`steps_judged`). -/

namespace TwoWire

namespace TimingParam

def isPulse : TimingParam → Bool
  | .clockLow | .clockHigh => true
  | _ => false

/-- What an edge is held to in whatever phase it comes. -/
def isBare (param : TimingParam) : Bool := param.isPulse || decide (param = .dataValid)

def among (kind : TimingParam → Bool) (timings : List (TimingParam × Int)) :
    List (TimingParam × Int) :=
  timings.filter fun broken => kind broken.1

variable {kind : TimingParam → Bool} {limits : Limits}

@[simp] theorem among_append (first second : List (TimingParam × Int)) :
    among kind (first ++ second) = among kind first ++ among kind second := List.filter_append ..

@[simp] theorem among_check (param : TimingParam) (interval : Int) :
    among kind (param.check limits interval) =
      if kind param then param.check limits interval else [] := by
  unfold check
  split
  · split <;> rfl
  · unfold among
    rw [List.filter_cons]
    rfl

theorem among_eq_nil {timings : List (TimingParam × Int)}
    (none : ∀ broken ∈ timings, kind broken.1 = false) : among kind timings = [] :=
  List.filter_eq_nil_iff.mpr fun broken mem => Bool.not_eq_true _ ▸ none broken mem

theorem eq_of_mem_check {param : TimingParam} {interval : Int} {broken : TimingParam × Int}
    (mem : broken ∈ param.check limits interval) : broken.1 = param := by
  unfold check at mem
  split at mem
  · cases mem
  · rw [List.mem_singleton.mp mem]

theorem eq_of_mem_since {param : TimingParam} {start? : Option Nat} {stop : Nat}
    {broken : TimingParam × Int} (mem : broken ∈ param.since limits start? stop) :
    broken.1 = param := by
  cases start? with
  | none => cases mem
  | some start => exact eq_of_mem_check mem

end TimingParam

namespace Transition

variable {limits : Limits}

/-- The edges of a line that was high before them: the first falls, and each turns what the one
before it left. -/
def Alternates (edges : List Transition) : Prop :=
  ∀ k edge, edges[k]? = some edge → edge.level = decide (k % 2 = 1)

theorem Alternates.concat {edges : List Transition} (alternates : Alternates edges)
    {edge : Transition} (turns : edge.level = !(edges.getLast?.map level).getD true) :
    Alternates (edges ++ [edge]) := by
  intro k other at_
  rcases Nat.lt_trichotomy k edges.length with early | rfl | late
  · rw [List.getElem?_append_left early] at at_
    exact alternates k other at_
  · rw [List.getElem?_concat_length] at at_
    cases at_
    rw [turns, List.getLast?_eq_getElem?]
    cases last : edges[edges.length - 1]? with
    | none =>
      rw [List.getElem?_eq_none_iff] at last
      rw [show edges.length = 0 by omega]
      rfl
    | some before =>
      have known := alternates _ before last
      have some := (List.getElem?_eq_some_iff.mp last).1
      rw [Option.map_some, Option.getD_some, known, ← decide_not]
      exact decide_eq_decide.mpr (by omega)
  · rw [List.getElem?_eq_none (by rw [List.length_append, List.length_singleton]; omega)] at at_
    cases at_

/-- The complaints about the pulses of a clock whose edges these are. -/
def pulses (limits : Limits) : List Transition → List (TimingParam × Int)
  | first :: second :: rest => pulseTimings limits first second ++ pulses limits (second :: rest)
  | _ => []

theorem pulses_concat (edges : List Transition) (edge : Transition) :
    pulses limits (edges ++ [edge]) =
      pulses limits edges ++ edges.getLast?.toList.flatMap (pulseTimings limits · edge) := by
  match edges with
  | [] => rfl
  | [only] => exact List.append_nil _ |>.trans (List.append_nil _).symm
  | first :: second :: rest =>
    have later := pulses_concat (second :: rest) edge
    rw [List.getLast?_cons_cons]
    change pulseTimings limits first second ++ pulses limits (second :: rest ++ [edge]) = _
    rw [later, ← List.append_assoc]
    rfl

theorem among_pulseTimings (kind : TimingParam → Bool) (last edge : Transition) :
    TimingParam.among kind (pulseTimings limits last edge) =
      if kind (if edge.level then .clockLow else .clockHigh) then pulseTimings limits last edge
      else [] := TimingParam.among_check ..

theorem among_validTimings (kind : TimingParam → Bool) (last edge : Transition) :
    TimingParam.among kind (validTimings limits last edge) =
      if kind .dataValid then validTimings limits last edge else [] := by
  unfold validTimings
  cases last.level with
  | true => exact (ite_self _).symm
  | false => exact TimingParam.among_check ..

theorem among_pulse_timings (early : List Transition) (edge : Transition) :
    TimingParam.among TimingParam.isPulse (edge.timings limits early) =
      if edge.line = .clock then
        (last? .clock early).toList.flatMap (pulseTimings limits · edge)
      else [] := by
  unfold timings
  cases last? .clock early with
  | none => exact (ite_self _).symm
  | some last =>
    dsimp only
    rw [Option.toList_some, List.flatMap_singleton]
    cases edge.line with
    | clock =>
      dsimp only
      rw [among_pulseTimings, if_pos (by cases edge.level <;> rfl), if_pos rfl]
    | data =>
      dsimp only
      rw [among_validTimings, if_neg (by decide), if_neg (by decide)]

theorem among_valid_timings (early : List Transition) (edge : Transition) :
    TimingParam.among (fun param => decide (param = .dataValid)) (edge.timings limits early) =
      if edge.line = .data then
        (last? .clock early).toList.flatMap (validTimings limits · edge)
      else [] := by
  unfold timings
  cases last? .clock early with
  | none => exact (ite_self _).symm
  | some last =>
    dsimp only
    rw [Option.toList_some, List.flatMap_singleton]
    cases edge.line with
    | clock =>
      dsimp only
      rw [among_pulseTimings, if_neg (by cases edge.level <;> decide), if_neg (by decide)]
    | data =>
      dsimp only
      rw [among_validTimings, if_pos (decide_eq_true rfl), if_pos rfl]

theorem bare_of_mem_timings {early : List Transition} {edge : Transition}
    {broken : TimingParam × Int} (mem : broken ∈ edge.timings limits early) :
    broken.1.isBare = true := by
  unfold timings at mem
  split at mem
  · cases mem
  · split at mem
    · rw [TimingParam.eq_of_mem_check mem]
      cases edge.level <;> rfl
    · unfold validTimings at mem
      split at mem
      · cases mem
      · rw [TimingParam.eq_of_mem_check mem]
        rfl

end Transition

namespace Moment

variable {limits : Limits}

theorem not_bare_of_mem_steps {early : List Moment} {moment : Moment} {broken : TimingParam × Int}
    (mem : broken ∈ moment.stepTimings limits early) : broken.1.isBare = false := by
  unfold stepTimings at mem
  rcases List.mem_append.mp mem with mem | mem
  · rcases List.mem_append.mp mem with mem | mem
    · unfold holdTimings at mem
      split at mem
      · cases mem
      · split at mem
        · rw [TimingParam.eq_of_mem_check mem]
          rfl
        · cases mem
    · unfold bitTimings at mem
      split at mem
      · rw [TimingParam.eq_of_mem_since mem]
        rfl
      · cases mem
  · obtain ⟨event, -, mem⟩ := List.mem_flatMap.mp mem
    have setup {param : TimingParam} {start? : Option Nat} {stop : Nat}
        (plain : param.isBare = false) (mem : broken ∈ param.since limits start? stop) :
        broken.1.isBare = false := (TimingParam.eq_of_mem_since mem) ▸ plain
    unfold conditionTimings at mem
    split at mem
    · exact (List.mem_append.mp mem).elim (setup rfl) (setup rfl)
    · exact (List.mem_append.mp mem).elim (setup rfl) (setup rfl)
    · exact setup rfl mem
    · cases mem

variable {early : List Moment} {moment : Moment}
  (whole : moment.timings = moment.edge.timings limits (early.map edge) ++
    moment.stepTimings limits early)

include whole

theorem among_pulse_of_whole : TimingParam.among TimingParam.isPulse moment.timings =
    if moment.edge.line = .clock then
      (last? .clock early).toList.flatMap (Transition.pulseTimings limits · moment.edge)
    else [] := by
  rw [whole, TimingParam.among_append, Transition.among_pulse_timings,
    TimingParam.among_eq_nil fun broken mem => ?_, List.append_nil]
  · rfl
  · exact (Bool.or_eq_false_iff.mp (not_bare_of_mem_steps mem)).1

theorem among_valid_of_whole :
    TimingParam.among (fun param => decide (param = .dataValid)) moment.timings =
      if moment.edge.line = .data then
        (last? .clock early).toList.flatMap (Transition.validTimings limits · moment.edge)
      else [] := by
  rw [whole, TimingParam.among_append, Transition.among_valid_timings,
    TimingParam.among_eq_nil fun broken mem => ?_, List.append_nil]
  · rfl
  · exact (Bool.or_eq_false_iff.mp (not_bare_of_mem_steps mem)).2

theorem among_steps_of_whole : TimingParam.among (fun param => !param.isBare) moment.timings =
    moment.stepTimings limits early := by
  rw [whole, TimingParam.among_append, TimingParam.among_eq_nil fun broken mem => ?_,
    List.nil_append]
  · refine List.filter_eq_self.mpr fun broken mem => ?_
    exact Bool.not_eq_eq_eq_not.mpr (not_bare_of_mem_steps mem)
  · exact Bool.not_eq_eq_eq_not.mpr (Transition.bare_of_mem_timings mem)

omit whole

theorem pulses_of_moments {moments : List Moment}
    (each : ∀ early moment late, moments = early ++ moment :: late →
      TimingParam.among TimingParam.isPulse moment.timings =
        if moment.edge.line = .clock then
          (last? .clock early).toList.flatMap (Transition.pulseTimings limits · moment.edge)
        else []) :
    TimingParam.among TimingParam.isPulse (moments.flatMap timings) =
      Transition.pulses limits (Transition.on .clock (moments.map edge)) := by
  induction moments using List.reverseRecOn with
  | nil => rfl
  | append_singleton early moment ih =>
    have before := ih fun first middle late split =>
      each first middle (late ++ [moment]) (by rw [split, List.append_assoc, List.cons_append])
    rw [List.flatMap_append, TimingParam.among_append, before, List.flatMap_singleton,
      each early moment [] rfl, List.map_append, List.map_singleton, Transition.on_concat]
    split
    · exact (Transition.pulses_concat _ _).symm
    · exact List.append_nil _

end Moment

namespace Checker

variable {β : Type} [LineBus β] {checker ready before : Checker β} {n : Nat}
  {moments : List Moment} {limits : Limits}

theorem alternates_moments {config : Config} {bus : β} (made : ofConfig config bus = .ok checker)
    (idle : checker.startUp = .ok () ready) (n : Nat) :
    Transition.Alternates (Transition.on .clock (ready.edges n)) := by
  induction n with
  | zero => exact nofun
  | succ n ih =>
    cases run : ready.turns n with
    | error stop =>
      have same : ready.moments (n + 1) = ready.moments n := by rw [Checker.moments, run]
      unfold edges
      rw [same]
      exact ih
    | ok before =>
      rw [edges_succ run]
      cases seen : before.edge? with
      | none => rwa [Option.toList_none, List.append_nil]
      | some edge =>
        obtain ⟨change, committed, commits, rfl⟩ := commits_of_edge? seen
        rw [Option.toList_some, Transition.on_concat]
        split
        case isFalse => exact ih
        case isTrue clock =>
          have clock : change.line = .clock := clock
          refine ih.concat ?_
          rw [← ((recalls_turns made idle run) .clock).level]
          dsimp only
          rw [clock]
          exact turns_of_commits commits clock

/-- What is found of the edges of a run by themselves. The clock alternates. Its pulses are found too
short one by one, in order, and the data line too late at each edge that follows a fall of the
clock. -/
structure EdgesJudged (limits : Limits) (moments : List Moment) (findings : List Finding) : Prop where
  told : findings = moments.flatMap Moment.told
  alternates : Transition.Alternates (Transition.on .clock (moments.map Moment.edge))
  pulses : TimingParam.among TimingParam.isPulse (Finding.timings findings) =
    Transition.pulses limits (Transition.on .clock (moments.map Moment.edge))
  valid : ∀ early moment late, moments = early ++ moment :: late →
    TimingParam.among (fun param => decide (param = .dataValid)) moment.timings =
      if moment.edge.line = .data then
        (Moment.last? .clock early).toList.flatMap (Transition.validTimings limits · moment.edge)
      else []

/-- What else is found of a run: what starts, stops and bits are held to. A start or a stop is an edge
of the data line after a rise of the clock, if after any edge of it, and a bit is sampled at a rise
of the clock. -/
structure StepsJudged (limits : Limits) (moments : List Moment) (findings : List Finding) : Prop where
  told : findings = moments.flatMap Moment.told
  remaining : ∀ early moment late, moments = early ++ moment :: late →
    TimingParam.among (fun param => !param.isBare) moment.timings = moment.stepTimings limits early
  condition : ∀ early moment late, moments = early ++ moment :: late → moment.conditions ≠ [] →
    moment.edge.line = .data ∧ ∀ last, Moment.last? .clock early = some last → last.level = true
  bit : ∀ early moment late, moments = early ++ moment :: late → .sampleBit ∈ moment.entered →
    moment.edge.line = .clock ∧ moment.edge.level = true

theorem condition_of_turn {moment : Moment} {config : Config} {bus : β}
    (made : ofConfig config bus = .ok checker) (idle : checker.startUp = .ok () ready)
    (run : ready.turns n = .ok before) (seen : before.moment? = some moment)
    (told : moment.conditions ≠ []) : moment.edge.line = .data ∧
      ∀ last, Moment.last? .clock (ready.moments n) = some last → last.level = true := by
  obtain ⟨edge, shown, rfl⟩ := Option.map_eq_some_iff.mp seen
  obtain ⟨change, committed, commits, rfl⟩ := commits_of_edge? shown
  obtain ⟨event, mem⟩ := List.exists_mem_of_ne_nil _ told
  obtain ⟨finding, mem, same⟩ := List.mem_filterMap.mp mem
  obtain ⟨framing, mem⟩ : event.isFraming = true ∧ .event event ∈ before.reported := by
    cases finding with
    | violation => cases same
    | event other =>
      obtain ⟨framing, same⟩ := Option.ite_none_right_eq_some.mp same
      cases same
      exact ⟨framing, mem⟩
  obtain ⟨notes, error?, extent, reported, -⟩ := extent_of_commits commits
  rw [reported] at mem
  obtain ⟨data, high, -⟩ := Protocol.dataEdge_of_told (lasts_turns idle run)
    (moved_of_commits commits) extent mem framing
  refine ⟨data, fun last known => ?_⟩
  rw [← (recalls_turns made idle run).level_of_last? known, ← high]
  exact ((moved_of_commits commits).kept .clock (by rw [data]; decide)).symm

theorem bit_of_turn {moment : Moment} (idle : checker.startUp = .ok () ready)
    (run : ready.turns n = .ok before) (seen : before.moment? = some moment)
    (sampled : .sampleBit ∈ moment.entered) :
    moment.edge.line = .clock ∧ moment.edge.level = true := by
  obtain ⟨edge, shown, rfl⟩ := Option.map_eq_some_iff.mp seen
  obtain ⟨change, committed, commits, rfl⟩ := commits_of_edge? shown
  obtain ⟨notes, error?, extent, -⟩ := extent_of_commits commits
  obtain ⟨phase, clock⟩ :=
    Protocol.driveBit_of_sampleBit (Protocol.phases_of_sampleBit extent sampled).1
  have low : before.probe.detector.clock.level = false :=
    (lasts_turns idle run).clock false (by rw [phase]; rfl)
  refine ⟨clock, ?_⟩
  dsimp only
  rw [show change.line = .clock from clock, turns_of_commits commits clock, low]
  rfl

variable {speed : SpeedClass} {config : Config} {bus : β}

theorem whole_of_recounts (plain : LineBus.Plain β) (forward : LineBus.Forward β)
    (made : ofConfig config bus = .ok checker) (class_ : config.speedClass? = some speed)
    (measurable : checker.run.2.now < Time.half) (recounts : checker.Recounts moments)
    {early late : List Moment} {moment : Moment} (split : moments = early ++ moment :: late) :
    moment.timings = moment.edge.timings speed.limits (early.map Moment.edge) ++
      moment.stepTimings speed.limits early := by
  obtain ⟨ready, n, before, idle, run, rfl, seen⟩ := turn_of_recounts recounts split
  exact timings_of_turn plain forward made class_ idle run
    (Nat.lt_of_le_of_lt (now_of_run forward idle run) measurable) seen

theorem edgesJudged (plain : LineBus.Plain β) (forward : LineBus.Forward β)
    (made : ofConfig config bus = .ok checker) (class_ : config.speedClass? = some speed)
    (measurable : checker.run.2.now < Time.half) (recounts : checker.Recounts moments) :
    EdgesJudged speed.limits moments checker.run.2.findings where
  told := told_of_recounts made recounts
  alternates := by
    cases recounts with
    | restless => exact nofun
    | watched idle => exact alternates_moments made idle _
  pulses := by
    have timings : Finding.timings checker.run.2.findings = moments.flatMap Moment.timings := by
      rw [told_of_recounts made recounts]
      exact List.filterMap_flatMap ..
    rw [timings]
    exact Moment.pulses_of_moments fun early moment late split => Moment.among_pulse_of_whole
      (whole_of_recounts plain forward made class_ measurable recounts split)
  valid early moment late split := Moment.among_valid_of_whole
    (whole_of_recounts plain forward made class_ measurable recounts split)

theorem stepsJudged (plain : LineBus.Plain β) (forward : LineBus.Forward β)
    (made : ofConfig config bus = .ok checker) (class_ : config.speedClass? = some speed)
    (measurable : checker.run.2.now < Time.half) (recounts : checker.Recounts moments) :
    StepsJudged speed.limits moments checker.run.2.findings where
  told := told_of_recounts made recounts
  remaining early moment late split := Moment.among_steps_of_whole
    (whole_of_recounts plain forward made class_ measurable recounts split)
  condition early moment late split some := by
    obtain ⟨ready, n, before, idle, run, rfl, seen⟩ := turn_of_recounts recounts split
    exact condition_of_turn made idle run seen some
  bit early moment late split sampled := by
    obtain ⟨ready, n, before, idle, run, rfl, seen⟩ := turn_of_recounts recounts split
    exact bit_of_turn idle run seen sampled

/-- The clock and the data line of a run are held to its class edge by edge, on every recorded trace
and in every program. -/
theorem edges_judged (config : Config) (speed : SpeedClass) (cycle : Nat)
    (class_ : config.speedClass? = some speed) :
    (∀ (clock data : LineId) (trace : List PeerDrive) (checker : Checker Replay),
      ofConfig config ((Replay.ofTrace clock data trace).withCycle cycle) = .ok checker →
        checker.run.2.now < Time.half →
        ∃ moments, checker.Recounts moments ∧
          EdgesJudged speed.limits moments checker.run.2.findings) ∧
    ∀ (clock data : LineId) (program : List Step) (bus : Simulation)
      (checker : Checker Simulation), Simulation.ofProgram clock data program = .ok bus →
        ofConfig config (bus.withCycle cycle) = .ok checker →
        checker.run.2.now < Time.half →
        ∃ moments, checker.Recounts moments ∧
          EdgesJudged speed.limits moments checker.run.2.findings := by
  constructor
  · intro clock data trace checker made measurable
    obtain ⟨moments, recounts⟩ := exists_recounts checker
    exact ⟨moments, recounts,
      edgesJudged Replay.plain Replay.forward made class_ measurable recounts⟩
  · intro clock data program bus checker _ made measurable
    obtain ⟨moments, recounts⟩ := exists_recounts checker
    exact ⟨moments, recounts,
      edgesJudged Simulation.plain Simulation.forward made class_ measurable recounts⟩

/-- A clock that is low for a microsecond and high for two, and a data line that moves late. -/
theorem edges_judged_of_short_pulses :
    ({ clock := 0, data := 1, nominalSpeed := some 100 } : Config).speedClass? = some .standard ∧
    (∃ checker : Checker Replay,
      ofConfig { clock := 0, data := 1, nominalSpeed := some 100 }
        ((Replay.ofTrace 0 1 [⟨20000, 1, some false⟩, ⟨25000, 0, some false⟩, ⟨26000, 0, none⟩,
          ⟨28000, 0, some false⟩, ⟨33000, 1, none⟩]).withCycle 20) = .ok checker ∧
      Finding.timings checker.run.2.findings =
        [(.clockLow, 1000), (.clockHigh, 2000), (.dataValid, 5000)] ∧
      ∃ moments, checker.Recounts moments ∧
        EdgesJudged SpeedClass.standard.limits moments checker.run.2.findings) ∧
    ∃ (bus : Simulation) (checker : Checker Simulation),
      Simulation.ofProgram 0 1 [.delay 20000, .drive .data (some false), .delay 5000,
        .drive .clock (some false), .delay 1000, .drive .clock none] = .ok bus ∧
      ofConfig { clock := 0, data := 1, nominalSpeed := some 100 } (bus.withCycle 20) =
        .ok checker ∧
      Finding.timings checker.run.2.findings = [(.clockLow, 1000)] ∧
      ∃ moments, checker.Recounts moments ∧
        EdgesJudged SpeedClass.standard.limits moments checker.run.2.findings := by
  have judged := edges_judged { clock := 0, data := 1, nominalSpeed := some 100 } .standard 20 rfl
  refine ⟨rfl, ?_, ?_⟩
  · have seen : ((ofConfig { clock := 0, data := 1, nominalSpeed := some 100 }
        ((Replay.ofTrace 0 1 [⟨20000, 1, some false⟩, ⟨25000, 0, some false⟩, ⟨26000, 0, none⟩,
          ⟨28000, 0, some false⟩, ⟨33000, 1, none⟩]).withCycle 20)).toOption.bind fun checker =>
        (checker.final? 100).map fun last => (last.now, Finding.timings last.findings)) =
        some (33000, [(.clockLow, 1000), (.clockHigh, 2000), (.dataValid, 5000)]) := by
      decide +kernel
    obtain ⟨checker, made, seen⟩ := Option.bind_eq_some_iff.mp seen
    obtain ⟨last, ended, seen⟩ := Option.map_eq_some_iff.mp seen
    obtain ⟨time, told⟩ := by simpa only [Prod.mk.injEq] using seen
    obtain ⟨now, findings⟩ := run_of_final? ended
    have made := eq_ok_of_toOption made
    exact ⟨checker, made, findings ▸ told,
      judged.1 0 1 _ checker made (by rw [now, time]; decide)⟩
  · have seen : ((Simulation.ofProgram 0 1 [.delay 20000, .drive .data (some false), .delay 5000,
        .drive .clock (some false), .delay 1000, .drive .clock none]).toOption.bind fun bus =>
        (ofConfig { clock := 0, data := 1, nominalSpeed := some 100 }
          (bus.withCycle 20)).toOption.bind fun checker =>
        (checker.final? 100).map fun last => (last.now, Finding.timings last.findings)) =
        some (26000, [(.clockLow, 1000)]) := by decide +kernel
    obtain ⟨bus, fits, seen⟩ := Option.bind_eq_some_iff.mp seen
    obtain ⟨checker, made, seen⟩ := Option.bind_eq_some_iff.mp seen
    obtain ⟨last, ended, seen⟩ := Option.map_eq_some_iff.mp seen
    obtain ⟨time, told⟩ := by simpa only [Prod.mk.injEq] using seen
    obtain ⟨now, findings⟩ := run_of_final? ended
    have fits := eq_ok_of_toOption fits
    have made := eq_ok_of_toOption made
    exact ⟨bus, checker, fits, made, findings ▸ told,
      judged.2 0 1 _ bus checker fits made (by rw [now, time]; decide)⟩

/-- The starts, the stops and the bits of a run are held to the edges before them, on every recorded
trace and in every program. -/
theorem steps_judged (config : Config) (speed : SpeedClass) (cycle : Nat)
    (class_ : config.speedClass? = some speed) :
    (∀ (clock data : LineId) (trace : List PeerDrive) (checker : Checker Replay),
      ofConfig config ((Replay.ofTrace clock data trace).withCycle cycle) = .ok checker →
        checker.run.2.now < Time.half →
        ∃ moments, checker.Recounts moments ∧
          StepsJudged speed.limits moments checker.run.2.findings) ∧
    ∀ (clock data : LineId) (program : List Step) (bus : Simulation)
      (checker : Checker Simulation), Simulation.ofProgram clock data program = .ok bus →
        ofConfig config (bus.withCycle cycle) = .ok checker →
        checker.run.2.now < Time.half →
        ∃ moments, checker.Recounts moments ∧
          StepsJudged speed.limits moments checker.run.2.findings := by
  constructor
  · intro clock data trace checker made measurable
    obtain ⟨moments, recounts⟩ := exists_recounts checker
    exact ⟨moments, recounts,
      stepsJudged Replay.plain Replay.forward made class_ measurable recounts⟩
  · intro clock data program bus checker _ made measurable
    obtain ⟨moments, recounts⟩ := exists_recounts checker
    exact ⟨moments, recounts,
      stepsJudged Simulation.plain Simulation.forward made class_ measurable recounts⟩

/-- A stop soon after a rise of the clock, and a start soon after the stop. -/
theorem steps_judged_of_hasty_start :
    ({ clock := 0, data := 1, nominalSpeed := some 100 } : Config).speedClass? = some .standard ∧
    ∃ checker : Checker Replay,
      ofConfig { clock := 0, data := 1, nominalSpeed := some 100 }
        ((Replay.ofTrace 0 1 [⟨20000, 1, some false⟩, ⟨25000, 0, some false⟩, ⟨30000, 0, none⟩,
          ⟨31000, 1, none⟩, ⟨33000, 1, some false⟩, ⟨34000, 0, some false⟩]).withCycle 20) =
        .ok checker ∧
      Finding.timings checker.run.2.findings =
        [(.stopSetup, 1000), (.startSetup, 3000), (.busFree, 2000), (.startHold, 1000)] ∧
      ∃ moments, checker.Recounts moments ∧
        StepsJudged SpeedClass.standard.limits moments checker.run.2.findings := by
  have seen : ((ofConfig { clock := 0, data := 1, nominalSpeed := some 100 }
      ((Replay.ofTrace 0 1 [⟨20000, 1, some false⟩, ⟨25000, 0, some false⟩, ⟨30000, 0, none⟩,
        ⟨31000, 1, none⟩, ⟨33000, 1, some false⟩, ⟨34000, 0, some false⟩]).withCycle
          20)).toOption.bind fun checker =>
      (checker.final? 100).map fun last => (last.now, Finding.timings last.findings)) =
      some (34000, [(.stopSetup, 1000), (.startSetup, 3000), (.busFree, 2000),
        (.startHold, 1000)]) := by decide +kernel
  obtain ⟨checker, made, seen⟩ := Option.bind_eq_some_iff.mp seen
  obtain ⟨last, ended, seen⟩ := Option.map_eq_some_iff.mp seen
  obtain ⟨time, told⟩ := by simpa only [Prod.mk.injEq] using seen
  obtain ⟨now, findings⟩ := run_of_final? ended
  have made := eq_ok_of_toOption made
  exact ⟨rfl, checker, made, findings ▸ told,
    (steps_judged { clock := 0, data := 1, nominalSpeed := some 100 } .standard 20 rfl).1 0 1 _
      checker made (by rw [now, time]; decide)⟩

end Checker
end TwoWire
