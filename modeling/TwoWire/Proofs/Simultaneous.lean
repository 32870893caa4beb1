import TwoWire.Proofs.Faults
import TwoWire.Proofs.Wakeups

/-! Both lines at once. The clock is taken first and the fault is reported; if the data line then
still differs, that is the next edge, at the same instant (`clock_first_of_both`). -/

namespace TwoWire

/-- The faults of framing: both lines at once, and a condition amid a byte. -/
def SequenceFault.misframes : SequenceFault → Bool
  | .simultaneousEdges | .stopMidByte | .startMidByte => true
  | .peerDrivingDuringAck | .activityAfterNack => false

def Finding.misframings (findings : List Finding) : List SequenceFault :=
  (faults findings).filter SequenceFault.misframes

namespace Protocol

open Note

variable {protocol : Protocol} {view : View} {stretches : Bool} {edge : Edge}
  {before : EdgeDetector} {left : Protocol} {notes : List Note} {phases : List Phase}
  {error? : Option BusError}

theorem misframes_of_unchecked {phase : Phase} (unchecked : phase ≠ .checkStartStop) :
    (protocol.phaseFaults view phase).filter SequenceFault.misframes = [] := by
  cases phase with
  | checkStartStop => exact absurd rfl unchecked
  | sampleBit | sampleAck =>
    unfold phaseFaults
    dsimp only
    split <;> rfl
  | _ => rfl

theorem unchecked_of_clock {detector : EdgeDetector} {line : Line} (clock : line = .clock) :
    protocol.successor detector line ≠ .checkStartStop := by
  intro target
  rw [clock] at target
  cases (sampleBit_of_checkStartStop target).2

theorem misframings_of_simultaneous
    (suits : (view.held .simultaneous stretches).Suits
      (protocol.successor view.detector Edge.simultaneous.line))
    (extent : protocol.Extent stretches view .simultaneous left notes phases error?) :
    Finding.misframings (told notes) <+: [.simultaneousEdges] := by
  have unchecked : protocol.successor view.detector Edge.simultaneous.line ≠ .checkStartStop :=
    unchecked_of_clock rfl
  have early := (faults_of_extent suits extent).filter SequenceFault.misframes
  rw [List.filter_append, misframes_of_unchecked unchecked, List.append_nil] at early
  exact early

/-- Where a stop or a start is told apart, the fault is told before anything is measured. -/
theorem faults_told_checkStartStop (suits : view.Suits .checkStartStop) :
    Finding.faults (told (protocol.follow view .checkStartStop).notes) =
      protocol.phaseFaults view .checkStartStop := by
  obtain ⟨rest, within, follows⟩ := protocol.notes_follow_checkStartStop suits
  have timed := faults_told_prefix rest
  rw [faults_of_within within (by decide)] at timed
  have quiet : Finding.faults (told rest) = [] := List.prefix_nil.mp timed
  rw [follows]
  unfold phaseFaults
  dsimp only
  by_cases first : protocol.shifter.bits = 1
  · simp only [if_pos first]
    exact quiet
  · simp only [if_neg first]
    exact congrArg (List.cons _) quiet

theorem misframings_of_data (lasts : protocol.phase.Lasts before)
    (moved : before.Moved view.detector .data)
    (suits : view.Suits (protocol.successor view.detector .data))
    (extent : protocol.Extent stretches view .data left notes phases error?) :
    Finding.misframings (told notes) =
      if protocol.phase = .sampleBit ∧ protocol.shifter.bits ≠ 1 then
        [if view.data.level then .stopMidByte else .startMidByte]
      else [] := by
  by_cases sampling : protocol.phase = .sampleBit
  case pos =>
    have high : view.detector.clock.level = true :=
      (moved.kept .clock (by decide)).trans (lasts.clock true (by rw [sampling]; rfl))
    have target : protocol.successor view.detector .data = .checkStartStop := by
      rw [successor_of_legal (by rw [sampling]; decide), sampling]
      rfl
    have same := told_of_dataEdge high suits extent
    rw [target] at suits same
    unfold Finding.misframings
    rw [same, faults_told_checkStartStop suits]
    unfold phaseFaults
    dsimp only
    by_cases first : protocol.shifter.bits = 1
    · simp [first]
    · cases view.data.level <;> simp [first, sampling, SequenceFault.misframes]
  case neg =>
    have unchecked : protocol.successor view.detector Edge.data.line ≠ .checkStartStop :=
      fun target => sampling (sampleBit_of_checkStartStop target).1
    have early := (@faults_of_extent protocol view stretches .data left notes phases error? suits
      extent).filter SequenceFault.misframes
    rw [List.filter_append, misframes_of_unchecked unchecked] at early
    rw [if_neg fun amid => sampling amid.1]
    exact List.prefix_nil.mp early

theorem follow_eq_sampleBit_iff {phase : Phase} :
    (protocol.follow view phase).protocol.phase = .sampleBit ↔
      phase = .sampleBit ∧ (protocol.shifter.clock (view.level .data)).isComplete = false := by
  rw [phase_follow]
  by_cases samples : phase = .sampleBit
  case pos =>
    rw [samples, forced?_enter_sampleBit]
    cases (protocol.shifter.clock (view.level .data)).isComplete <;> simp
  case neg =>
    refine iff_of_false ?_ fun other => samples other.1
    cases forces : (protocol.enter view phase).forced? with
    | none => exact samples
    | some forced => exact forced_ne_sampleBit forces

/-- After an edge of the clock a byte can be misframed if a bit of it has just been sampled that was
neither its first nor its last. -/
theorem amid_byte_iff (protocol : Protocol) (stretches : Bool) (view : View)
    (clock : edge.line = .clock) :
    ((protocol.answer stretches view edge).protocol.phase = .sampleBit ∧
        (protocol.answer stretches view edge).protocol.shifter.bits ≠ 1) ↔
      protocol.phase = .driveBit ∧ 1 ≤ protocol.shifter.bits ∧ protocol.shifter.bits ≤ 6 := by
  have target : protocol.successor view.detector edge.line = .sampleBit ↔
      protocol.phase = .driveBit := by
    refine ⟨fun samples => (driveBit_of_sampleBit samples).1, fun driving => ?_⟩
    rw [successor_of_legal (by rw [driving]; decide), driving, clock]
    rfl
  have short : ((protocol.measured view edge).shifter.clock
      ((view.held edge stretches).level .data)).isComplete = false ↔
        protocol.shifter.bits ≤ 6 := by
    rw [shifter_measured]
    unfold Shifter.isComplete Shifter.clock Shifter.bitsPerByte
    rw [decide_eq_false_iff_not]
    dsimp only
    omega
  have reached : (protocol.answer stretches view edge).protocol.phase = .sampleBit ↔
      protocol.phase = .driveBit ∧ protocol.shifter.bits ≤ 6 := by
    rw [← target, ← short]
    exact follow_eq_sampleBit_iff
  have counted (driving : protocol.phase = .driveBit) (few : protocol.shifter.bits ≤ 6) :
      (protocol.answer stretches view edge).protocol.shifter.bits =
        min (protocol.shifter.bits + 1) 8 := by
    have followed := follow_sampleBit_of_incomplete (short.mpr few)
    rw [← target.mpr driving] at followed
    rw [show (protocol.answer stretches view edge).protocol = _ from followed,
      ← shifter_measured protocol view edge]
    rfl
  constructor
  · rintro ⟨phase, later⟩
    obtain ⟨driving, few⟩ := reached.mp phase
    rw [counted driving few] at later
    exact ⟨driving, by omega, few⟩
  · rintro ⟨driving, later, few⟩
    refine ⟨reached.mpr ⟨driving, few⟩, ?_⟩
    rw [counted driving few]
    omega

end Protocol

namespace Probe

variable {β : Type} [LineBus β] {probe : Probe β}

theorem known_of_differs {line : Line} (differs : probe.differs line = true) :
    LineBus.peer? probe.bus (probe.lines.id line) ≠ none := by
  intro missing
  unfold Probe.differs level? at differs
  rw [missing] at differs
  cases differs

theorem edge?_of_differs {sight : Sight} (look : probe.look = .ok sight) :
    probe.detector.edge? probe.lines sight =
      if probe.differs .clock then some (if probe.differs .data then .simultaneous else .clock)
      else if probe.differs .data then some .data
      else none := by
  rw [differs_of_look look, differs_of_look look]
  rfl

end Probe

namespace Checker

variable {β : Type} [LineBus β] {before next : Checker β} {change : Change} {committed : Probe β}

theorem refused_of_clockEdge {stopped : Checker β} {error : BusError}
    (h : before.clockEdge change = .fail error stopped) :
    ∃ bus, LineBus.drive before.probe.bus (before.probe.lines.id .clock) false =
      .fail error bus := by
  unfold clockEdge at h
  split at h
  case isFalse => cases h
  case isTrue =>
    unfold clockFell at h
    dsimp only at h
    split at h
    case isFalse => cases h
    case isTrue =>
      rcases Outcome.fail_of_andThen h with refused | ⟨_, low, -, noted⟩
      · unfold drive at refused
        cases driven : Probe.drive (β := β) _ .clock false with
        | ok _ probe =>
          rw [driven] at refused
          cases refused
        | fail reason probe =>
          rw [driven] at refused
          cases refused
          have refused := Probe.drive_fail driven
          exact ⟨_, refused⟩
      · cases noted

/-- The turn comes to an edge that cannot be measured, or the bus refuses to hold the clock low. -/
def Unanswered (checker : Checker β) : Prop :=
  ∃ error stopped, checker.turn = .error (error, stopped) ∧
    ((∃ kind, error = .overflow kind) ∨
      ∃ bus, LineBus.drive checker.probe.bus (checker.probe.lines.id .clock) false =
        .fail error bus)

theorem unanswered_of_judge {stopped : Checker β} {error : BusError}
    (commits : before.probe.Commits change committed)
    (h : ({ before with probe := committed } : Checker β).judge change = .fail error stopped) :
    before.Unanswered := by
  refine ⟨error, stopped, ?_, ?_⟩
  · rw [turn_of_commits commits, react_eq_judge, h]
    rfl
  · have bus : committed.bus = before.probe.bus := by rw [commits.after]; rfl
    have lines : committed.lines = before.probe.lines := by rw [commits.after]; rfl
    rw [← bus, ← lines]
    unfold judge at h
    rcases Outcome.fail_of_andThen h with failed | ⟨_, first, reported, h⟩
    · obtain ⟨kind, -, overflow⟩ := overflow_of_report failed
      exact .inl ⟨kind, overflow⟩
    rcases Outcome.fail_of_andThen h with failed | ⟨_, middle, -, failed⟩
    · have refused := refused_of_clockEdge failed
      rw [report_ok reported] at refused
      exact .inr refused
    · exact absurd (sound_simultaneousNotes _) (not_sound_of_report failed)

theorem findings_follow (checker : Checker β) (sight : Sight) (phase : Phase) :
    checker.findings <+: (checker.follow sight phase).state.findings := by
  have grows (checker : Checker β) (phase : Phase) :
      checker.findings <+: (checker.enter sight phase).state.findings := by
    rw [(checker.told_enter sight phase).1]
    exact List.prefix_append ..
  refine Outcome.state_andThen
    (motive := fun after : Checker β => checker.findings <+: after.findings)
    (grows checker phase) fun forced? middle early => ?_
  cases forced? with
  | none => exact early
  | some forced =>
    exact Outcome.state_andThen
      (motive := fun after : Checker β => checker.findings <+: after.findings)
      (early.trans (grows middle forced)) fun _ _ => id

theorem reported_of_judge {ready : Checker β} (commits : before.probe.Commits change committed)
    (simultaneous : change.edge = .simultaneous)
    (h : ({ before with probe := committed } : Checker β).judge change = .ok () ready) :
    .simultaneousEdges ∈ Finding.faults before.reported := by
  have told := (judged h).findings
  have quiet : ({ before with probe := committed } : Checker β).findings = before.findings := by
    change committed.findings = before.probe.findings
    rw [commits.after]
    exact Journal.findings_cons_of_none rfl _
  have turned := turned_of_commits commits
  rw [react_eq_judge, h, Outcome.andThen_ok] at turned
  have grows := ready.findings_follow change.sight
    (ready.protocol.successor ready.probe.detector change.line)
  rw [← turned, findings_turned, told, quiet, List.prefix_append_right_inj] at grows
  obtain ⟨rest, same⟩ := grows
  rw [← same, Finding.faults_append]
  refine List.mem_append_left _ ?_
  change _ ∈ Note.faults _
  rw [simultaneous, Note.faults_append]
  exact List.mem_append_right _ (List.mem_singleton_self _)

/-- What comes of both lines having moved at once. -/
structure ClockFirst (before : Checker β) : Prop where
  commits : ∃ change committed, before.probe.Commits change committed ∧
    change.edge = .simultaneous ∧ change.time = before.now
  unwaited : before.turned.probe.wakeups = before.probe.wakeups
  /-- One fault of framing is reported, unless the run ends before that. -/
  misframings : Finding.misframings before.reported = [.simultaneousEdges] ∨
    Finding.misframings before.reported = [] ∧ before.Unanswered

/-- What has come of both lines having moved at once where the run goes on, and what then comes of
the data line if it differs still. -/
structure DataNext (before next : Checker β) : Prop where
  clock : next.probe.detector.clock.level = !before.probe.detector.clock.level
  data : next.probe.detector.data = before.probe.detector.data
  now : next.now = before.now
  misframings : Finding.misframings before.reported = [.simultaneousEdges]
  commits : next.probe.differs .data = true → ∃ change committed,
    next.probe.Commits change committed ∧ change.edge = .data ∧ change.time = before.now
  unwaited : next.probe.differs .data = true → next.turned.probe.wakeups = before.probe.wakeups
  /-- A second fault is reported just if the clock rose on a bit amid its byte. -/
  again : next.probe.differs .data = true → Finding.misframings next.reported =
    if before.protocol.phase = .driveBit ∧ 1 ≤ before.protocol.shifter.bits ∧
        before.protocol.shifter.bits ≤ 6 then
      [if before.probe.detector.data.level then .startMidByte else .stopMidByte]
    else []

theorem commits_of_both (both : ∀ line, before.probe.differs line = true) :
    ∃ change committed, before.probe.Commits change committed ∧ change.edge = .simultaneous := by
  obtain ⟨sight, look⟩ := Probe.look_of_known fun line => Probe.known_of_differs (both line)
  have seen := Probe.edge?_of_differs look
  rw [both .clock, both .data] at seen
  exact ⟨⟨.simultaneous, sight⟩, _, ⟨look, seen, rfl⟩, rfl⟩

theorem clockFirst_of_commits (lasts : before.protocol.phase.Lasts before.probe.detector)
    (commits : before.probe.Commits change committed)
    (simultaneous : change.edge = .simultaneous) : before.ClockFirst := by
  refine ⟨⟨change, committed, commits, simultaneous, Probe.now_of_look commits.look⟩,
    wakeups_of_commits commits, ?_⟩
  obtain ⟨notes, error?, extent, told, -⟩ := extent_of_commits commits
  have suits := suits_of_commits lasts commits
  rw [simultaneous] at extent suits
  have most := Protocol.misframings_of_simultaneous suits extent
  rw [← told] at most
  rcases List.prefix_cons_iff.mp most with none | ⟨rest, one, ended⟩
  case inr => exact .inl (List.prefix_nil.mp ended ▸ one)
  case inl =>
    -- the fault is reported once the edge has been judged, so this has failed
    cases judging : ({ before with probe := committed } : Checker β).judge change with
    | fail error stopped => exact .inr ⟨none, unanswered_of_judge commits judging⟩
    | ok _ ready =>
      have mem := reported_of_judge commits simultaneous judging
      have told : .simultaneousEdges ∈ Finding.misframings before.reported :=
        List.mem_filter.mpr ⟨mem, rfl⟩
      rw [none] at told
      cases told

theorem commits_of_replied (commits : before.probe.Commits change committed)
    (react : ({ before with probe := committed } : Checker β).react change = .ok () next)
    (calm : next.probe.differs .clock = false) (still : next.probe.differs .data = true) :
    ∃ second last, next.probe.Commits second last ∧ second.edge = .data ∧
      second.time = next.now := by
  have kept := (answered react).still
  have known (line : Line) : LineBus.peer? next.probe.bus (next.probe.lines.id line) ≠ none := by
    rw [kept.peer, kept.id]
    have seen := Probe.peer_of_look commits.look line
    rw [commits.after]
    exact fun missing => by cases missing.symm.trans seen
  obtain ⟨sight, look⟩ := Probe.look_of_known known
  have seen := Probe.edge?_of_differs look
  rw [calm, still] at seen
  exact ⟨⟨.data, sight⟩, _, ⟨look, seen, rfl⟩, rfl, Probe.now_of_look look⟩

theorem dataNext_of_commits {checker ready : Checker β} {n : Nat}
    (idle : checker.startUp = .ok () ready) (run : ready.turns n = .ok before)
    (commits : before.probe.Commits change committed) (simultaneous : change.edge = .simultaneous)
    (turned : before.turn = .ok next) : before.DataNext next := by
  have line : change.line = .clock := by
    unfold Change.line
    rw [simultaneous]
    rfl
  have react : ({ before with probe := committed } : Checker β).react change = .ok () next :=
    Outcome.eq_ok_of_verdict (turn_of_commits commits ▸ turned)
  have replied := replied_of_react commits turned react
  have moved := replied.moved commits
  rw [show change.edge.line = .clock from line] at moved
  have data : next.probe.detector.data = before.probe.detector.data := by
    rw [replied.detector]
    unfold sees
    rw [line]
    rfl
  have now : next.now = before.now := by
    refine (answered react).still.now.trans ?_
    change committed.now = _
    rw [commits.after]
    rfl
  have told : Finding.misframings before.reported = [.simultaneousEdges] := by
    rcases (clockFirst_of_commits (lasts_turns idle run) commits simultaneous).misframings with
      one | ⟨-, error, stopped, fails, -⟩
    · exact one
    · cases turned.symm.trans fails
  have further (still : next.probe.differs .data = true) := commits_of_replied commits react
    replied.calm still
  refine ⟨moved.moved, data, now, told, fun still => ?_, fun still => ?_, fun still => ?_⟩
  · obtain ⟨second, last, again, edge, time⟩ := further still
    exact ⟨second, last, again, edge, time.trans now⟩
  · obtain ⟨second, last, again, -, -⟩ := further still
    rw [wakeups_of_commits again, ← turned_of_turn turned]
    exact wakeups_of_commits commits
  · -- the data line has moved away from where it was committed before both lines moved
    obtain ⟨⟨edge, sight⟩, last, again, same, -⟩ := further still
    cases same
    have lasts := lasts_turns idle (turns_succ run turned)
    obtain ⟨notes, error?, extent, reported, -⟩ := extent_of_commits again
    have shifts := moved_of_commits again
    have rose : (next.sees ⟨.data, sight⟩).data.level = !before.probe.detector.data.level := by
      rw [← data]
      exact shifts.moved
    rw [reported, Protocol.misframings_of_data lasts shifts (suits_of_commits lasts again) extent,
      rose]
    have amid := before.protocol.amid_byte_iff before.probe.stretch.isEnabled (before.sees change)
      line
    have same : next.protocol = (before.protocol.answer before.probe.stretch.isEnabled
      (before.sees change) change.edge).protocol := replied.protocol
    rw [← same] at amid
    simp only [amid]
    cases before.probe.detector.data.level <;> rfl

/-- Both lines at once, in any state of a run: the clock is taken and one fault of framing reported;
the data line, if it differs still, is taken next, at the same instant and without a wait, and makes
for a second one just if the clock rose on a bit that is neither the first nor the last of its
byte. -/
theorem clock_first_of_both {checker ready before : Checker β} {n : Nat}
    (idle : checker.startUp = .ok () ready) (run : ready.turns n = .ok before)
    (both : ∀ line, before.probe.differs line = true) :
    before.ClockFirst ∧ ∀ next, before.turn = .ok next → before.DataNext next := by
  obtain ⟨change, committed, commits, simultaneous⟩ := commits_of_both both
  exact ⟨clockFirst_of_commits (lasts_turns idle run) commits simultaneous,
    fun next turned => dataNext_of_commits idle run commits simultaneous turned⟩

/-- After a start the clock falls and the data line rises at once. -/
theorem clock_first_after_start :
    ∃ checker ready before next : Checker Replay,
      ofConfig { clock := 0, data := 1 }
        (.ofTrace 0 1 [⟨200, 1, some false⟩, ⟨300, 0, some false⟩, ⟨300, 1, none⟩]) = .ok checker ∧
      checker.startUp = .ok () ready ∧ ready.turns 3 = .ok before ∧
      (∀ line, before.probe.differs line = true) ∧ before.turn = .ok next ∧
      next.probe.differs .data = true ∧ before.ClockFirst ∧ before.DataNext next ∧
      Finding.misframings next.reported = [] := by
  let bus : Replay :=
    .ofTrace 0 1 [⟨200, 1, some false⟩, ⟨300, 0, some false⟩, ⟨300, 1, none⟩]
  have seen : ((ofConfig { clock := 0, data := 1 } bus).toOption.bind
      fun checker => checker.startUp.verdict.toOption.bind
      fun ready => (ready.turns 3).toOption.bind
      fun before => before.turn.toOption.map
      fun next => (before.probe.differs .clock, before.probe.differs .data,
        next.probe.differs .data, decide (before.protocol.phase = .starting))) =
        some (true, true, true, true) := by decide +kernel
  obtain ⟨checker, made, seen⟩ := Option.bind_eq_some_iff.mp seen
  obtain ⟨ready, idle, seen⟩ := Option.bind_eq_some_iff.mp seen
  obtain ⟨before, run, seen⟩ := Option.bind_eq_some_iff.mp seen
  obtain ⟨next, turned, seen⟩ := Option.map_eq_some_iff.mp seen
  obtain ⟨clock, data, still, starting⟩ := by simpa only [Prod.mk.injEq] using seen
  have idle := Outcome.eq_ok_of_verdict (eq_ok_of_toOption idle)
  have run := eq_ok_of_toOption run
  have turned := eq_ok_of_toOption turned
  have both : ∀ line, before.probe.differs line = true := by
    intro line
    cases line
    · exact clock
    · exact data
  obtain ⟨first, further⟩ := clock_first_of_both idle run both
  have follows := further next turned
  have phase := of_decide_eq_true starting
  refine ⟨checker, ready, before, next, eq_ok_of_toOption made, idle, run, both, turned, still,
    first, follows, ?_⟩
  rw [follows.again still, if_neg]
  rw [phase]
  exact fun amid => by cases amid.1

/-- One change of both lines, two faults: the second bit of a byte is clocked as the data line is let
go, which is then taken for a stop amid the byte. -/
theorem faulted_twice_amid_byte :
    ∃ checker ready before next : Checker Replay,
      ofConfig { clock := 0, data := 1 }
        (.ofTrace 0 1 [⟨200, 1, some false⟩, ⟨300, 0, some false⟩, ⟨400, 0, none⟩,
          ⟨500, 0, some false⟩, ⟨600, 0, none⟩, ⟨600, 1, none⟩]) = .ok checker ∧
      checker.startUp = .ok () ready ∧ ready.turns 9 = .ok before ∧
      (∀ line, before.probe.differs line = true) ∧ before.turn = .ok next ∧
      next.now = before.now ∧ Finding.misframings before.reported = [.simultaneousEdges] ∧
      Finding.misframings next.reported = [.stopMidByte] := by
  let bus : Replay := .ofTrace 0 1 [⟨200, 1, some false⟩, ⟨300, 0, some false⟩, ⟨400, 0, none⟩,
    ⟨500, 0, some false⟩, ⟨600, 0, none⟩, ⟨600, 1, none⟩]
  have seen : ((ofConfig { clock := 0, data := 1 } bus).toOption.bind
      fun checker => checker.startUp.verdict.toOption.bind
      fun ready => (ready.turns 9).toOption.bind
      fun before => before.turn.toOption.map
      fun next => (before.probe.differs .clock && before.probe.differs .data,
        decide (next.now = before.now), Finding.misframings before.reported,
        Finding.misframings next.reported)) =
        some (true, true, [.simultaneousEdges], [.stopMidByte]) := by decide +kernel
  obtain ⟨checker, made, seen⟩ := Option.bind_eq_some_iff.mp seen
  obtain ⟨ready, idle, seen⟩ := Option.bind_eq_some_iff.mp seen
  obtain ⟨before, run, seen⟩ := Option.bind_eq_some_iff.mp seen
  obtain ⟨next, turned, seen⟩ := Option.map_eq_some_iff.mp seen
  obtain ⟨both, now, once, twice⟩ := by simpa only [Prod.mk.injEq] using seen
  obtain ⟨clock, data⟩ := Bool.and_eq_true_iff.mp both
  refine ⟨checker, ready, before, next, eq_ok_of_toOption made,
    Outcome.eq_ok_of_verdict (eq_ok_of_toOption idle), eq_ok_of_toOption run, ?_,
    eq_ok_of_toOption turned, of_decide_eq_true now, once, twice⟩
  intro line
  cases line
  · exact clock
  · exact data

end Checker
end TwoWire
