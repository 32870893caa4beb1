import TwoWire.Proofs.Timings

/-! The timing violations that come of an edge, told from the edges before it alone
(`timings_of_turn`). -/

namespace TwoWire

namespace Transition

/-- An edge of the clock is held to the one before it, which began the pulse that it ends. -/
def pulseTimings (limits : Limits) (last edge : Transition) : List (TimingParam × Int) :=
  (if edge.level then TimingParam.clockLow else .clockHigh).check limits
    ((edge.time : Int) - last.time)

/-- An edge of the data line is held to the last edge of the clock if that was a fall. -/
def validTimings (limits : Limits) (last edge : Transition) : List (TimingParam × Int) :=
  if last.level then []
  else TimingParam.dataValid.check limits ((edge.time : Int) - last.time)

def timings (limits : Limits) (early : List Transition) (edge : Transition) :
    List (TimingParam × Int) :=
  match last? .clock early with
  | none => []
  | some last =>
    match edge.line with
    | .clock => pulseTimings limits last edge
    | .data => validTimings limits last edge

end Transition

theorem TimingParam.since_map (limits : Limits) (param : TimingParam) (last? : Option Transition)
    (time : Nat) :
    param.since limits (last?.map Transition.time) time =
      match last? with
      | none => []
      | some last => param.check limits ((time : Int) - last.time) := by
  cases last? <;> rfl

theorem Protocol.edgeTimings_of_recalls {detector : EdgeDetector} {edges : List Transition}
    (recalls : detector.Recalls edges) (limits : Limits) (lines : Lines) (sight : Sight)
    (edge : Edge) :
    edgeTimings ⟨sight, lines, detector.commit lines sight edge.line⟩ edge limits =
      Transition.timings limits edges ⟨sight.now, edge.line, lines.level sight edge.line⟩ := by
  have clock := recalls.sample_commit lines sight edge.line .clock
  change View.clock ⟨sight, lines, detector.commit lines sight edge.line⟩ = _ at clock
  unfold edgeTimings Transition.timings
  rw [clock]
  cases line : edge.line with
  | clock => exact TimingParam.since_map ..
  | data =>
    rw [if_neg (show Line.data ≠ Line.clock by decide)]
    dsimp only
    rw [recalls.last_changedAt, TimingParam.since_map]
    cases last : Transition.last? .clock edges with
    | none =>
      dsimp only
      split <;> rfl
    | some fall =>
      rw [recalls.level_of_last? last]
      rfl

theorem Protocol.successor_of_start {protocol : Protocol}
    (phase : protocol.phase = .starting ∨ protocol.phase = .repeatStart)
    (detector : EdgeDetector) (line : Line) :
    protocol.successor detector line = if line = .clock then .driveBit else .illegal := by
  rw [Protocol.successor_of_legal (by rcases phase with phase | phase <;> simp [phase])]
  rcases phase with phase | phase <;> rw [phase] <;> cases line <;> rfl

theorem Protocol.bitTimings_eq (protocol : Protocol) (view : View) (limits : Limits)
    (phase : Phase) : protocol.bitTimings view limits phase =
      (if phase = .driveBit ∧ (protocol.phase = .starting ∨ protocol.phase = .repeatStart) then
        TimingParam.startHold.since limits view.data.changedAt view.now
      else []) ++
      if phase = .sampleBit ∧ protocol.shifter.isSinking = true then
        TimingParam.dataSetup.since limits view.data.changedAt view.now
      else [] := by
  unfold bitTimings
  cases phase <;> simp

namespace Moment

/-- The start or the stop that the edge was told as, if it was. -/
def conditions (moment : Moment) : List Event := Finding.conditions moment.told

def tells (moment : Moment) (kind : Event → Bool) : Bool := moment.told.any (Finding.shows kind)

def starts (moment : Moment) : Bool := moment.tells Event.isStart

def timings (moment : Moment) : List (TimingParam × Int) := Finding.timings moment.told

def last? (line : Line) (early : List Moment) : Option Transition :=
  Transition.last? line (early.map edge)

/-- The first fall of the clock after a start is held to the start. -/
def holdTimings (limits : Limits) (early : List Moment) (moment : Moment) :
    List (TimingParam × Int) :=
  match early.getLast? with
  | none => []
  | some start =>
    if start.starts = true ∧ moment.edge.line = .clock ∧ moment.edge.level = false then
      TimingParam.startHold.check limits ((moment.edge.time : Int) - start.edge.time)
    else []

/-- A bit that is received is held to the data line. -/
def bitTimings (limits : Limits) (early : List Moment) (moment : Moment) :
    List (TimingParam × Int) :=
  if .sampleBit ∈ moment.entered ∧ moment.sinking = true then
    TimingParam.dataSetup.since limits ((last? .data early).map Transition.time) moment.edge.time
  else []

/-- A start and a stop are held to the clock, and a start to the data line, too. -/
def conditionTimings (limits : Limits) (early : List Moment) (time : Nat) :
    Event → List (TimingParam × Int)
  | .startBit =>
    TimingParam.startSetup.since limits ((last? .clock early).map Transition.time) time ++
      TimingParam.busFree.since limits ((last? .data early).map Transition.time) time
  | .repeatedStart =>
    TimingParam.repeatedStartSetup.since limits ((last? .clock early).map Transition.time) time ++
      TimingParam.busFree.since limits ((last? .data early).map Transition.time) time
  | .stopBit =>
    TimingParam.stopSetup.since limits ((last? .clock early).map Transition.time) time
  | _ => []

def stepTimings (limits : Limits) (early : List Moment) (moment : Moment) :
    List (TimingParam × Int) :=
  moment.holdTimings limits early ++ moment.bitTimings limits early ++
    moment.conditions.flatMap (conditionTimings limits early moment.edge.time)

end Moment

namespace Checker

variable {β : Type} [LineBus β] {checker ready before next : Checker β} {change : Change}
  {committed : Probe β} {n : Nat} {edges : List Transition} {moment : Moment}
  {speed : SpeedClass}

theorem speed_turn (turned : before.turn = .ok next) :
    next.protocol.speed = before.protocol.speed := by
  rcases replied_or_waited turned with ⟨change, committed, -, replied⟩ | waited
  · rw [replied.protocol]
    exact Protocol.speed_answer ..
  · rw [waited.protocol]

theorem speed_turns {config : Config} {bus : β} (made : ofConfig config bus = .ok checker)
    (idle : checker.startUp = .ok () ready) (run : ready.turns n = .ok before) :
    before.protocol.speed = config.speedClass? := by
  refine turns_induct (motive := fun checker => checker.protocol.speed = config.speedClass?) ?_
    (fun turned same => (speed_turn turned).trans same) run
  obtain ⟨-, responses, fresh⟩ := fresh_of_made made
  obtain ⟨late, -, rfl⟩ := ready_of_startUp idle
  exact congrArg Protocol.speed fresh

/-- On a bus that refuses no drive of a line that it has, an edge is answered if it can be measured. -/
theorem judged_of_plain (plain : LineBus.Plain β) (commits : before.probe.Commits change committed)
    (dated : (before.sees change).Dated) :
    ∃ last, ({ before with probe := committed } : Checker β).judge change = .ok () last := by
  cases judging : ({ before with probe := committed } : Checker β).judge change with
  | ok _ last => exact ⟨last, rfl⟩
  | fail error stopped =>
    have view := view_of_commits commits
    unfold judge at judging
    rcases Outcome.fail_of_andThen judging with failed | ⟨_, first, reported, judging⟩
    · rw [view] at failed
      exact absurd (Protocol.sound_edgeNotes dated _) (not_sound_of_report failed)
    rcases Outcome.fail_of_andThen judging with failed | ⟨_, middle, -, failed⟩
    · obtain ⟨bus, refused⟩ := refused_of_clockEdge failed
      rw [report_ok reported, commits.after] at refused
      have missing : LineBus.pin? before.probe.bus (before.probe.lines.id .clock) = none :=
        (plain.drive refused).1
      have known := Probe.peer_of_look commits.look .clock
      unfold LineBus.peer? at known
      rw [missing] at known
      cases known
    · exact absurd (sound_simultaneousNotes _) (not_sound_of_report failed)

theorem phases_follow (checker : Checker β) (sight : Sight) (phase : Phase) :
    checker.phases ++ [phase] <+: (checker.follow sight phase).state.phases := by
  have first := (checker.told_enter sight phase).2
  refine Outcome.state_andThen
    (motive := fun after : Checker β => checker.phases ++ [phase] <+: after.phases)
    (by rw [first]) fun forced? middle early => ?_
  cases forced? with
  | none => exact early
  | some forced =>
    refine Outcome.state_andThen
      (motive := fun after : Checker β => checker.phases ++ [phase] <+: after.phases)
      ?_ fun _ _ => id
    rw [(middle.told_enter sight forced).2]
    exact early.trans (List.prefix_append ..)

theorem entered_of_judge {last : Checker β} (commits : before.probe.Commits change committed)
    (h : ({ before with probe := committed } : Checker β).judge change = .ok () last) :
    ∃ rest, before.entered =
      before.protocol.successor (before.sees change).detector change.line :: rest := by
  have same : last.phases = before.phases := by
    refine (phases_of_judge h).trans ?_
    change committed.journal.phases = before.probe.journal.phases
    rw [commits.after]
    exact Journal.phases_of_silent (Journal.silent_cons rfl rfl _)
  have grows := last.phases_follow change.sight
    (last.protocol.successor last.probe.detector change.line)
  have turned := turned_of_commits commits
  rw [react_eq_judge, h, Outcome.andThen_ok] at turned
  rw [← turned, phases_turned, same, List.prefix_append_right_inj, (judged h).successor,
    view_of_commits commits] at grows
  obtain ⟨rest, whole⟩ := grows
  exact ⟨rest, whole.symm⟩

theorem reported_of_plain (plain : LineBus.Plain β)
    (lasts : before.protocol.phase.Lasts before.probe.detector)
    (commits : before.probe.Commits change committed) (dated : (before.sees change).Dated) :
    before.reported = Note.findings (before.reply change).notes ∧
      (.sampleBit ∈ before.entered ↔
        before.protocol.successor (before.sees change).detector change.line = .sampleBit) := by
  obtain ⟨last, judging⟩ := judged_of_plain plain commits dated
  obtain ⟨rest, entered⟩ := entered_of_judge commits judging
  obtain ⟨notes, error?, extent, told, -⟩ := extent_of_commits commits
  refine ⟨?_, fun samples => (Protocol.phases_of_sampleBit extent samples).1, fun target => ?_⟩
  · rw [told, Protocol.told_of_landed (suits_of_commits lasts commits) extent (by simp [entered])]
    exact Note.told_of_sound (Protocol.sound_answer dated _ _)
  · rw [entered, target]
    exact List.mem_cons_self

theorem starts_of_replied (replied : Replied before change next) :
    before.reported.any (Finding.shows Event.isStart) =
      decide (next.protocol.phase = .starting ∨ next.protocol.phase = .repeatStart) := by
  have conditions : (Note.conditions (before.reply change).notes).any Event.isStart =
      before.reported.any (Finding.shows Event.isStart) := by
    rw [replied.reported]
    unfold Note.conditions Finding.conditions
    rw [List.any_filterMap]
    congr 1
    funext finding
    cases finding with
    | violation => rfl
    | event told => cases told <;> rfl
  rw [← conditions, replied.protocol]
  unfold reply
  rw [Protocol.conditions_answer]
  generalize (before.protocol.answer before.probe.stretch.isEnabled (before.sees change)
    change.edge).protocol.phase = phase
  cases phase <;> rfl

/-- The last edge was a start just if the checker is in one, and it was one of the data line. -/
theorem started_turns (idle : checker.startUp = .ok () ready)
    (run : ready.turns n = .ok before) :
    ((before.protocol.phase = .starting ∨ before.protocol.phase = .repeatStart) ↔
        (ready.moments n).getLast?.any Moment.starts = true) ∧
      ∀ start, (ready.moments n).getLast? = some start → start.starts = true →
        start.edge.line = .data := by
  induction n generalizing before with
  | zero =>
    cases run
    rw [phase_startUp idle]
    refine ⟨⟨fun phase => ?_, nofun⟩, nofun⟩
    rcases phase with phase | phase <;> cases phase
  | succ n ih =>
    obtain ⟨early, run, turned⟩ := exists_of_turns_succ run
    rcases replied_or_waited turned with ⟨change, committed, commits, replied⟩ | waited
    · rw [moments_of_commits run commits, List.getLast?_concat, Option.any_some]
      have starts := starts_of_replied replied
      refine ⟨?_, ?_⟩
      · unfold Moment.starts Moment.tells
        dsimp only
        rw [starts, decide_eq_true_eq]
      · rintro start same started
        cases same
        unfold Moment.starts Moment.tells at started
        dsimp only at started
        rw [starts, decide_eq_true_eq, replied.protocol] at started
        refine Protocol.data_of_condition early.protocol early.probe.stretch.isEnabled
          (early.sees change) change.edge ?_
        change Option.isSome (Phase.condition? (early.reply change).protocol.phase) = true
        rcases started with phase | phase <;> rw [phase] <;> rfl
    · rw [moments_of_waited run waited, waited.protocol]
      exact ih run

theorem turns_of_commits (commits : before.probe.Commits change committed)
    (moved : change.line = .clock) :
    (before.sees change).level .clock = !before.probe.detector.clock.level := by
  have turns := (moved_of_commits commits).moved
  rw [show change.edge.line = .clock from moved] at turns
  exact (live_of_commits commits).1.trans turns

theorem holdTimings_of_turn (limits : Limits) (idle : checker.startUp = .ok () ready)
    (run : ready.turns n = .ok before) (recalls : before.probe.detector.Recalls (ready.edges n))
    (commits : before.probe.Commits change committed)
    (edge : moment.edge = ⟨change.time, change.line, (before.sees change).level change.line⟩) :
    moment.holdTimings limits (ready.moments n) =
      if before.protocol.successor (before.sees change).detector change.line = .driveBit ∧
          (before.protocol.phase = .starting ∨ before.protocol.phase = .repeatStart) then
        TimingParam.startHold.since limits (before.sees change).data.changedAt
          (before.sees change).now
      else [] := by
  obtain ⟨started, data⟩ := started_turns idle run
  unfold Moment.holdTimings
  cases last : (ready.moments n).getLast? with
  | none =>
    rw [last] at started
    rw [if_neg fun both => nomatch started.mp both.2]
  | some start =>
    rw [last, Option.any_some] at started
    dsimp only
    by_cases starts : start.starts = true
    case neg => rw [if_neg fun all => starts all.1, if_neg fun both => starts (started.mp both.2)]
    case pos =>
      have phase := started.mpr starts
      rw [Protocol.successor_of_start phase, edge]
      cases moved : change.line with
      | data => simp
      | clock =>
        have high : before.probe.detector.clock.level = true :=
          (lasts_turns idle run).clock true
            (by rcases phase with phase | phase <;> rw [phase] <;> rfl)
        have kept : Transition.last? .data (ready.edges n) = some start.edge := by
          obtain ⟨init, same⟩ := List.getLast?_eq_some_iff.mp last
          unfold Transition.last? Checker.edges
          rw [same, List.map_append, List.map_singleton, Transition.on_concat,
            if_pos (data start last starts), List.getLast?_concat]
        have since := recalls.changedAt_of_other before.probe.lines change.sight
          (show change.line ≠ .data by rw [moved]; decide)
        rw [kept] at since
        have fell := turns_of_commits commits moved
        rw [high] at fell
        rw [if_pos ⟨starts, rfl, fell⟩, if_pos ⟨if_pos rfl, phase⟩,
          show (before.sees change).data.changedAt = _ from since]
        rfl

theorem bitTimings_of_turn (limits : Limits)
    (recalls : before.probe.detector.Recalls (ready.edges n))
    (edge : moment.edge = ⟨change.time, change.line, (before.sees change).level change.line⟩)
    (sinking : moment.sinking = before.protocol.shifter.isSinking)
    (samples : .sampleBit ∈ moment.entered ↔
      before.protocol.successor (before.sees change).detector change.line = .sampleBit) :
    moment.bitTimings limits (ready.moments n) =
      if before.protocol.successor (before.sees change).detector change.line = .sampleBit ∧
          before.protocol.shifter.isSinking = true then
        TimingParam.dataSetup.since limits (before.sees change).data.changedAt
          (before.sees change).now
      else [] := by
  unfold Moment.bitTimings
  simp only [samples, sinking]
  by_cases both : before.protocol.successor (before.sees change).detector change.line =
      .sampleBit ∧ before.protocol.shifter.isSinking = true
  case neg => rw [if_neg both, if_neg both]
  case pos =>
    have clock := (Protocol.driveBit_of_sampleBit both.1).2
    have since := recalls.changedAt_of_other before.probe.lines change.sight
      (show change.line ≠ .data by rw [clock]; decide)
    rw [if_pos both, if_pos both, show (before.sees change).data.changedAt = _ from since, edge]
    rfl

theorem conditionTimings_of_turn (limits : Limits)
    (recalls : before.probe.detector.Recalls (ready.edges n))
    (data : change.line = .data) (event : Event) :
    (before.sees change).conditionTimings limits event =
      Moment.conditionTimings limits (ready.moments n) change.time event := by
  have clock := recalls.changedAt_of_other before.probe.lines change.sight
    (show change.line ≠ .clock by rw [data]; decide)
  have previous := recalls.previousChange_of_own before.probe.lines change.sight change.line
  rw [data] at previous
  have own : (before.sees change).data.previousChange =
      (Transition.last? .data (ready.edges n)).map Transition.time := by
    unfold View.data sees
    rw [data]
    exact previous
  unfold View.conditionTimings Moment.conditionTimings
  rw [show (before.sees change).clock.changedAt = _ from clock, own]
  rfl

theorem timings_of_turn {config : Config} {bus : β} (plain : LineBus.Plain β)
    (forward : LineBus.Forward β) (made : ofConfig config bus = .ok checker)
    (class_ : config.speedClass? = some speed) (idle : checker.startUp = .ok () ready)
    (run : ready.turns n = .ok before) (early : before.now < Time.half)
    (seen : before.moment? = some moment) :
    moment.timings = moment.edge.timings speed.limits (ready.edges n) ++
      moment.stepTimings speed.limits (ready.moments n) := by
  obtain ⟨_, shown, same⟩ := Option.map_eq_some_iff.mp seen
  obtain ⟨change, committed, commits, rfl⟩ := commits_of_edge? shown
  have edge : moment.edge = ⟨change.time, change.line, (before.sees change).level change.line⟩ := by
    rw [← same]
  have recalls := recalls_turns made idle run
  have dated := dated_of_commits commits recalls (ordered_edges forward run).2 early
  have class_ := (speed_turns made idle run).trans class_
  obtain ⟨told, samples⟩ := reported_of_plain plain (lasts_turns idle run) commits dated
  have hold := holdTimings_of_turn speed.limits idle run recalls commits edge
  have bit := bitTimings_of_turn speed.limits recalls edge (by rw [← same])
    (show .sampleBit ∈ moment.entered ↔ _ by rw [← same]; exact samples)
  have moved (data : change.edge.line = .data) :
      (before.sees change).data.changedAt = some (before.sees change).now := by
    unfold View.data sees
    rw [show change.line = .data from data]
    rfl
  have told : moment.told = Note.findings (before.reply change).notes := by rw [← same, told]
  have phases : moment.conditions = (before.reply change).protocol.phase.condition?.toList := by
    unfold Moment.conditions
    rw [told]
    exact Protocol.conditions_answer ..
  have whole := Protocol.timings_answer before.probe.stretch.isEnabled class_ dated moved
  have bare : Protocol.edgeTimings (before.sees change) change.edge speed.limits =
      moment.edge.timings speed.limits (ready.edges n) :=
    edge ▸ Protocol.edgeTimings_of_recalls recalls ..
  unfold Moment.stepTimings
  rw [hold, bit, phases, ← List.append_assoc]
  unfold Moment.timings
  rw [told]
  refine whole.trans ?_
  rw [bare]
  congr 1
  · congr 1
    exact Protocol.bitTimings_eq ..
  · rw [edge]
    refine List.flatMap_congr fun event mem =>
      conditionTimings_of_turn speed.limits recalls ?_ event
    refine Protocol.data_of_condition before.protocol before.probe.stretch.isEnabled
      (before.sees change) change.edge ?_
    exact Option.isSome_of_mem (Option.mem_toList.mp mem)

end Checker
end TwoWire
