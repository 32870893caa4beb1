import TwoWire.Proofs.Driven
import TwoWire.Proofs.Spending
import TwoWire.Proofs.Ways

/-! Our decisions on received bytes are the scripted ones (`decided_as_configured`). Each stays on
the data line until the clock falls again, and only a peer that drives the line overrules it. -/

namespace TwoWire

namespace Note

theorem not_mem_of_within {classes : List ViolationClass} {notes : List Note}
    (within : Within classes notes) {broken : Violation} (other : broken.kind ∉ classes) :
    .found (.violation broken) ∉ notes := by
  intro mem
  obtain ⟨named, same, kind⟩ := within _ mem
  cases same
  exact other kind

theorem mem_findings {notes : List Note} {finding : Finding} :
    finding ∈ findings notes ↔ .found finding ∈ notes := by
  refine List.mem_filterMap.trans ⟨?_, fun mem => ⟨_, mem, rfl⟩⟩
  rintro ⟨note, mem, same⟩
  cases note with
  | found other =>
    cases same
    exact mem
  | overflow kind => cases same

end Note

namespace Protocol

open Note

variable {protocol after : Protocol} {view : View} {level weakData driven : Bool} {line : Line}
  {talk : List Event}

/-- We acknowledge the byte, and our decision on it has not been sampled yet. -/
structure Answering (protocol : Protocol) : Prop where
  phase : protocol.phase = .ackSent
  ours : protocol.acknowledging = true

theorem Answering.of_core (same : after.core = protocol.core) (answering : protocol.Answering) :
    after.Answering := by
  obtain ⟨phase, -, ours, -⟩ := eq_of_core same
  exact ⟨phase.trans answering.phase, ours.trans answering.ours⟩

theorem decisions_riseTalk (protocol : Protocol) (level : Bool) :
    (protocol.riseTalk level).filterMap Event.decision? = [] := by
  unfold riseTalk
  split
  · dsimp only
    split
    · split
      · split <;> rfl
      · rfl
    · rfl
  · split
    · rfl
    · split <;> rfl

theorem Way.answering (way : protocol.Way level weakData line after driven talk) {ack : Bool}
    (made : ack ∈ talk.filterMap Event.decision?) : after.Answering ∧ driven = !ack := by
  cases way with
  | fall _ _ core drives told =>
    rw [told] at made
    unfold fallTalk at made
    split at made
    case isFalse => cases made
    case isTrue turn =>
      obtain ⟨done, ours⟩ := turn
      have fallen : protocol.fall.phase = .ackSent ∧ protocol.fall.acknowledging = true := by
        unfold Protocol.fall
        rw [if_pos done, if_pos ours]
        exact ⟨rfl, ours⟩
      refine ⟨.of_core core ⟨fallen.1, fallen.2⟩, ?_⟩
      · rw [drives]
        unfold wanted
        rw [if_pos done, ours]
        revert made
        cases protocol.responses.nextAck.1 <;> cases ack <;> simp [Event.decision?]
  | rise _ _ _ _ told =>
    rw [told, decisions_riseTalk] at made
    cases made
  | stay _ _ _ _ told =>
    rw [told] at made
    cases made
  | start _ _ _ _ told =>
    obtain ⟨event, starts, rfl⟩ := told
    have none : event.decision? = none := by cases event <;> first | rfl | cases starts
    rw [List.filterMap_cons_none none] at made
    cases made
  | leave _ _ _ _ _ told =>
    rcases told with rfl | rfl <;> cases made

theorem Answering.successor (answering : protocol.Answering) (detector : EdgeDetector) :
    protocol.successor detector .clock = .sampleAck := by
  rw [successor_of_legal (by rw [answering.phase]; decide), answering.phase]
  rfl

theorem driving_iff (answering : protocol.Answering) (stretches : Bool) {edge : Edge}
    (clock : edge.line = .clock) :
    .violation (.sequence .peerDrivingDuringAck) ∈
        findings (protocol.answer stretches view edge).notes ↔
      (view.sight.peer .data).isSome = true := by
  have target : protocol.successor view.detector edge.line = .sampleAck := by
    rw [clock]
    exact answering.successor _
  have levels (phase : Phase) (view : View) (line : Line) :
      .found (.violation (.sequence .peerDrivingDuringAck)) ∉ mismatch phase view line :=
    not_mem_of_within (within_mismatch phase view line) (by decide)
  have edges : .found (.violation (.sequence .peerDrivingDuringAck)) ∉
      protocol.edgeNotes view edge :=
    not_mem_of_within (within_edgeNotes protocol view edge) (by decide)
  have both : .found (.violation (.sequence .peerDrivingDuringAck)) ∉
      Checker.simultaneousNotes edge := by
    unfold Checker.simultaneousNotes
    split <;> simp [Note.fault, Note.violation]
  have landed : .found (.violation (.sequence .peerDrivingDuringAck)) ∈
      (protocol.landing stretches view edge).notes ↔ (view.sight.peer .data).isSome = true := by
    have ours : (protocol.measured view edge).acknowledging = true :=
      (acknowledging_measured edge).trans answering.ours
    unfold landing
    rw [target]
    unfold enter arrive onSampleAck ackNotes
    dsimp only
    rw [ours, if_pos rfl, List.mem_append, List.mem_append]
    simp only [levels, false_or]
    unfold View.driver Lines.driver Lines.reading
    rw [View.sight_held]
    cases view.sight.peer .data with
    | none => simp
    | some level => simp [Note.fault, Note.violation]
  have forced : .found (.violation (.sequence .peerDrivingDuringAck)) ∉
      protocol.forcedNotes stretches view edge := by
    unfold forcedNotes landing
    dsimp only
    rw [target, forced?_enter_sampleAck]
    dsimp only
    unfold enter
    dsimp only
    rw [List.mem_append, List.mem_append]
    simp only [levels, false_or]
    split <;> exact List.not_mem_nil
  rw [mem_findings, notes_answer, List.mem_append, List.mem_append, List.mem_append, landed]
  simp only [edges, both, forced, false_or, or_false]

theorem entries_of_answering (answering : protocol.Answering) (stretches : Bool) {edge : Edge}
    (clock : edge.line = .clock) :
    protocol.entries stretches view edge =
      [.sampleAck, if view.level .data then .nacked else .acked] := by
  have same : (view.held edge stretches).level .data = view.level .data := by
    unfold View.held
    split <;> rfl
  unfold entries trail
  rw [clock, answering.successor, forced?_enter_sampleAck, same]
  rfl

theorem sound_enter_sampleAck (protocol : Protocol) (view : View) :
    Sound (protocol.enter view .sampleAck).notes := by
  refine sound_append (sound_append (sound_mismatch _ view _) (sound_mismatch _ view _)) ?_
  change Sound (ackNotes _ view (view.level .data))
  unfold ackNotes
  split
  · split
    · exact sound_fault _
    · exact sound_nil
  · split
    · exact sound_event (sound_event sound_nil)
    · exact sound_event sound_nil

theorem sound_enter_answered (protocol : Protocol) (view : View) {phase : Phase}
    (answered : phase = .acked ∨ phase = .nacked) : Sound (protocol.enter view phase).notes := by
  refine sound_append (sound_append (sound_mismatch _ view _) (sound_mismatch _ view _)) ?_
  rcases answered with rfl | rfl <;> exact sound_nil

end Protocol

namespace Checker

variable {β : Type} [LineBus β]

theorem answering_or_high {checker ready first later : Checker β} {n : Nat}
    (idle : checker.startUp = .ok () ready) (run : ready.turns n = .ok first)
    (answering : first.protocol.Answering) (unfallen : first.Unfallen later) :
    later.protocol.Answering ∨ later.probe.detector.clock.level = true := by
  induction unfallen with
  | none => exact .inl answering
  | @turn before next early unfallen turned ih =>
    obtain ⟨m, run⟩ := early.turns run
    rcases way_of_run idle run turned with
      ⟨change, committed, commits, replied, way⟩ | waited
    case inr =>
      rw [waited.protocol, waited.detector]
      exact ih
    case inl =>
      have rises (clock : change.line = .clock) : next.probe.detector.clock.level = true := by
        by_contra low
        refine unfallen ⟨change, committed, commits, clock, ?_⟩
        rw [commits.after]
        rw [replied.detector, Bool.not_eq_true] at low
        exact low
      cases line : change.line with
      | clock => exact .inr (rises line)
      | data =>
        have kept := (replied.moved commits).kept .clock (by
          rw [show change.edge.line = .data from line]
          decide)
        rcases ih with ⟨sent, ours⟩ | high
        · refine .inl ?_
          have low : before.protocol.phase.isLow = true := by rw [sent]; rfl
          cases way with
          | fall clock | rise clock =>
            rw [line] at clock
            cases clock
          | stay _ _ core => exact .of_core core ⟨sent, ours⟩
          | start _ high | leave _ high =>
            rw [low] at high
            cases high
        · exact .inr (kept.trans high)

theorem exists_of_enter (checker : Checker β) {sight : Sight} {phase : Phase}
    (sound : Note.Sound (checker.protocol.enter (checker.view sight) phase).notes)
    (still : ¬Protocol.Drives phase) :
    ∃ after, checker.enter sight phase =
      .ok (checker.protocol.enter (checker.view sight) phase).forced? after := by
  cases entered : checker.enter sight phase with
  | ok forced? after =>
    rw [(arrived_enter entered).2]
    exact ⟨after, rfl⟩
  | fail error stopped =>
    rcases cases_of_enter entered with ⟨kind, overflow, -⟩ | ⟨-, drives⟩
    · exact absurd overflow (Note.not_overflow_of_sound sound kind)
    · rw [Protocol.drive?_enter _ _ still] at drives
      cases drives

theorem exists_of_follow_sampleAck (checker : Checker β) (sight : Sight) :
    ∃ after, checker.follow sight .sampleAck = .ok () after := by
  obtain ⟨middle, entered⟩ := checker.exists_of_enter
    (checker.protocol.sound_enter_sampleAck (checker.view sight)) (by decide)
  rw [Protocol.forced?_enter_sampleAck] at entered
  have ends {forced : Phase} (answered : forced = .acked ∨ forced = .nacked) :
      ∃ after, middle.enter sight forced =
        .ok (middle.protocol.enter (middle.view sight) forced).forced? after := by
    refine middle.exists_of_enter (Protocol.sound_enter_answered _ _ answered) ?_
    rcases answered with rfl | rfl <;> decide
  unfold follow
  rw [entered, Outcome.andThen_ok]
  dsimp only
  obtain ⟨after, ended⟩ := @ends (if (checker.view sight).level .data then .nacked else .acked)
    (by split <;> simp)
  exact ⟨after, by rw [ended]; rfl⟩

theorem overflow_of_judge {before stopped : Checker β} {change : Change} {error : BusError}
    (rose : (before.view change.sight).falls change.edge = false)
    (h : before.judge change = .fail error stopped) :
    ∃ kind, .overflow kind ∈ before.protocol.edgeNotes (before.view change.sight) change.edge ∧
      error = .overflow kind := by
  unfold judge at h
  cases reported : before.report
      (before.protocol.edgeNotes (before.view change.sight) change.edge) with
  | fail reason last =>
    rw [reported] at h
    cases h
    exact overflow_of_report reported
  | ok _ first =>
    rw [reported, Outcome.andThen_ok] at h
    have same : first.view change.sight = before.view change.sight := by
      rw [report_ok reported]
      rfl
    cases clocked : first.clockEdge change with
    | ok _ middle =>
      rw [clocked, Outcome.andThen_ok] at h
      exact absurd (sound_simultaneousNotes _) (not_sound_of_report h)
    | fail reason last =>
      have fell := falls_of_clockEdge clocked
      rw [same, rose] at fell
      cases fell

theorem turn_of_sampleAck {before : Checker β} {change : Change} {committed : Probe β}
    (commits : before.probe.Commits change committed)
    (rose : (before.sees change).falls change.edge = false)
    (target : before.protocol.successor (before.sees change).detector change.line = .sampleAck) :
    (∃ next, before.turn = .ok next) ∨ ∃ kind stopped,
      .overflow kind ∈ before.protocol.edgeNotes (before.sees change) change.edge ∧
        before.turn = .error (.overflow kind, stopped) := by
  rw [turn_of_commits commits, react_eq_judge]
  have view := view_of_commits commits
  cases judging : ({ before with probe := committed } : Checker β).judge change with
  | fail error stopped =>
    obtain ⟨kind, overflow, rfl⟩ := overflow_of_judge (view ▸ rose) judging
    rw [view] at overflow
    exact .inr ⟨kind, stopped, overflow, rfl⟩
  | ok _ ready =>
    have judged := judged judging
    have next : ready.protocol.successor ready.probe.detector change.line = .sampleAck := by
      rw [judged.successor, view]
      exact target
    obtain ⟨after, followed⟩ := ready.exists_of_follow_sampleAck change.sight
    rw [Outcome.andThen_ok, next, followed]
    exact .inl ⟨after, rfl⟩

/-- The rise of the clock that samples our decision: the byte ends as we have decided, unless the
peer drives the data line, which is reported. -/
structure Sampled (ack : Bool) (before : Checker β) (change : Change) : Prop where
  goesOn : ∃ next, before.turn = .ok next
  driven : .violation (.sequence .peerDrivingDuringAck) ∈ before.reported ↔
    (change.sight.peer .data).isSome = true
  entered : before.entered = [.sampleAck, .acked] ∨ before.entered = [.sampleAck, .nacked]
  ending : .violation (.sequence .peerDrivingDuringAck) ∉ before.reported →
    (before.entered = [.sampleAck, .acked] ↔ ack = true)

/-- The clock has been low for so long that the time cannot be measured, and the run ends. -/
def Overlong (before : Checker β) : Prop :=
  ∃ since stopped, before.probe.detector.clock.changedAt = some since ∧
    Time.elapsed since before.now = .error .subtract ∧
      before.turn = .error (.overflow .subtract, stopped)

theorem sampled_or_overlong {checker ready next later : Checker β} {n : Nat} {ack : Bool}
    {change : Change} {committed : Probe β} (idle : checker.startUp = .ok () ready)
    (run : ready.turns n = .ok next) (answering : next.protocol.Answering)
    (held : next.weakData = !ack) (unfallen : next.Unfallen later)
    (commits : later.probe.Commits change committed) (clock : change.line = .clock)
    (rose : committed.detector.clock.level = true) :
    later.Sampled ack change ∨ later.Overlong := by
  have kept := weakData_of_unfallen idle run unfallen
  have high : (later.sees change).clock.level = true := by
    rw [commits.after] at rose
    exact rose
  rcases answering_or_high idle run answering unfallen with answering | already
  case inr =>
    have moved := (moved_of_commits commits).moved
    rw [show change.edge.line = .clock from clock] at moved
    change (later.sees change).clock.level = !later.probe.detector.clock.level at moved
    rw [high, already] at moved
    cases moved
  have rising : (later.sees change).falls change.edge = false := by
    unfold View.falls
    rw [high, Bool.not_true, Bool.and_false]
  have target : later.protocol.successor (later.sees change).detector change.line = .sampleAck := by
    rw [clock]
    exact answering.successor _
  rcases turn_of_sampleAck commits rising target with
    ⟨after, turned⟩ | ⟨kind, stopped, overflow, ended⟩
  case inr =>
    unfold Protocol.edgeNotes at overflow
    rw [show change.edge.line = .clock from clock] at overflow
    obtain ⟨rfl, since, known, long⟩ := Note.unmeasured_of_overflow overflow
    refine .inr ⟨since, stopped, ?_, ?_, ended⟩
    · rw [← known]
      unfold sees
      rw [clock]
      rfl
    · rw [now, ← Probe.now_of_look commits.look]
      exact long
  case inl =>
    rcases replied_or_waited turned with ⟨second, other, again, replied⟩ | waited
    case inr => exact absurd commits waited.not_commits
    cases commits_unique commits again
    have driven : .violation (.sequence .peerDrivingDuringAck) ∈ later.reported ↔
        (change.sight.peer .data).isSome = true := by
      rw [replied.reported]
      exact Protocol.driving_iff answering _ clock
    have entered : later.entered =
        [.sampleAck, if (later.sees change).level .data then .nacked else .acked] := by
      rw [replied.entered]
      exact Protocol.entries_of_answering answering _ clock
    refine .inl ⟨⟨after, turned⟩, driven, ?_, fun unopposed => ?_⟩
    · rw [entered]
      cases (later.sees change).level .data
      · exact .inl rfl
      · exact .inr rfl
    · -- nobody else drives the line, so it shows what we have decided
      have free : (later.sees change).sight.peer .data = none := by
        change change.sight.peer .data = none
        rwa [driven, Bool.not_eq_true, Option.isSome_eq_false_iff, Option.isNone_iff_eq_none]
          at unopposed
      have level : (later.sees change).level .data = !ack := by
        rw [← held, ← kept]
        unfold View.level Lines.level Lines.reading
        rw [free]
        rfl
      rw [entered, level]
      cases ack <;> simp

theorem decisions_of_run {config : Config} {bus : β} {checker : Checker β}
    (configured : Configured config bus checker) :
    decisions checker.run.2.findings =
      (List.range (decisions checker.run.2.findings).length).map
        fun k => config.ackSequence.getD k true := by
  cases idle : checker.startUp with
  | fail error stopped =>
    rw [(run_of_restless idle).1, configured.fresh]
    rfl
  | ok _ ready =>
    obtain ⟨n, last, run, -, -, -, findings⟩ := run_of_ready idle
    obtain ⟨told, entered, passes⟩ := passes_of_turns run
    have start : ready.findings = [] := by
      have silent := checker.silent_startUp
      rw [idle] at silent
      exact silent.findings.trans configured.fresh
    have whole : checker.run.2.findings = told ++ last.reported := by
      rw [findings, findings_turned, passes.findings, start, List.nil_append]
    have inOrder := decisions_of_passes idle passes
    rw [responses_startUp idle, configured.responses] at inOrder
    rw [whole]
    exact inOrder

/-- Our decisions on the bytes of a run are those of the configuration, one after the other, and
acknowledges from then on. From the turn that makes a decision until the clock falls again the data
line is driven as decided, on the bus too if no drive is lost; and the rise of the clock before that
ends the byte so, unless the peer drives the line, which is reported, or the clock has been low for
too long to be measured. -/
theorem decided_as_configured {config : Config} {bus : β} {checker : Checker β}
    (made : ofConfig config bus = .ok checker) :
    decisions checker.run.2.findings =
      (List.range (decisions checker.run.2.findings).length).map
        (fun k => config.ackSequence.getD k true) ∧
    ∀ ready before told entered, checker.startUp = .ok () ready →
      ready.Passes told entered before →
      (∀ next ack, before.turn = .ok next → ack ∈ decisions before.reported →
        (∀ later, next.Unfallen later → later.weakData = !ack) ∧
        ∀ later change committed, next.Unfallen later → later.probe.Commits change committed →
          change.line = .clock → committed.detector.clock.level = true →
          later.Sampled ack change ∨ later.Overlong) ∧
      (LineBus.KeepsDrives bus → before.probe.Agrees) := by
  have configured := configured_of_ofConfig made
  refine ⟨decisions_of_run configured, fun ready before told entered idle passes =>
    ⟨fun next ack turned decided => ?_, fun keeps =>
      agrees_of_passes configured.distinct idle passes (configured.bus ▸ keeps)⟩⟩
  obtain ⟨n, run⟩ := passes.turns
  obtain ⟨answering, driven⟩ : next.protocol.Answering ∧ next.weakData = !ack := by
    rcases way_of_run idle run turned with
      ⟨change, committed, commits, replied, way⟩ | waited
    · rw [replied.reported, Note.decisions_findings] at decided
      exact way.answering decided
    · rw [waited.reported] at decided
      cases decided
  have run := turns_succ run turned
  refine ⟨fun later unfallen => ?_, fun later change committed unfallen commits clock rose =>
    sampled_or_overlong idle run answering driven unfallen commits clock rose⟩
  rw [weakData_of_unfallen idle run unfallen, driven]

/-- A read whose command we refuse. -/
theorem refused_as_configured :
    ∃ (checker ready before next later : Checker Replay) (told : List Finding)
      (entered : List Phase) (change : Change),
      ofConfig { clock := 0, data := 1, ackSequence := [false] }
        ((Replay.ofTrace 0 1 (Replay.readTrace 2)).withCycle 10) = .ok checker ∧
      checker.startUp = .ok () ready ∧ ready.Passes told entered before ∧
      before.turn = .ok next ∧ decisions before.reported = [false] ∧ next.Unfallen later ∧
      later.weakData = true ∧ later.Sampled false change ∧ later.probe.Agrees ∧
      decisions checker.run.2.findings =
        (List.range (decisions checker.run.2.findings).length).map (fun k => [false].getD k true) := by
  let bus : Replay := (Replay.ofTrace 0 1 (Replay.readTrace 2)).withCycle 10
  have seen : ((ofConfig { clock := 0, data := 1, ackSequence := [false] } bus).toOption.bind
      fun checker => checker.startUp.verdict.toOption.bind
      fun ready => (ready.turns 37).toOption.bind
      fun before => before.turn.toOption.bind
      fun next => next.turn.toOption.bind
      fun later => later.probe.look.toOption.bind
      fun sight => (later.probe.detector.edge? later.probe.lines sight).map fun edge =>
        (decisions before.reported, next.probe.detector.clock.level, edge.line,
          (later.probe.commit sight edge).detector.clock.level, later.turn.toOption.isSome)) =
      some ([false], false, .clock, true, true) := by decide +kernel
  obtain ⟨checker, made, seen⟩ := Option.bind_eq_some_iff.mp seen
  obtain ⟨ready, idle, seen⟩ := Option.bind_eq_some_iff.mp seen
  obtain ⟨before, run, seen⟩ := Option.bind_eq_some_iff.mp seen
  obtain ⟨next, turned, seen⟩ := Option.bind_eq_some_iff.mp seen
  obtain ⟨later, waited, seen⟩ := Option.bind_eq_some_iff.mp seen
  obtain ⟨sight, look, seen⟩ := Option.bind_eq_some_iff.mp seen
  obtain ⟨edge, shows, seen⟩ := Option.map_eq_some_iff.mp seen
  obtain ⟨decided, low, clock, rose, goesOn⟩ := by simpa only [Prod.mk.injEq] using seen
  have made := eq_ok_of_toOption made
  have idle := Outcome.eq_ok_of_verdict (eq_ok_of_toOption idle)
  have turned := eq_ok_of_toOption turned
  have waited := eq_ok_of_toOption waited
  obtain ⟨told, entered, passes⟩ := passes_of_turns (eq_ok_of_toOption run)
  have commits : later.probe.Commits ⟨edge, sight⟩ (later.probe.commit sight edge) :=
    ⟨eq_ok_of_toOption look, shows, rfl⟩
  have unfallen : next.Unfallen later :=
    (Unfallen.none next).turn (not_fallsNext_of_low low) waited
  obtain ⟨inOrder, each⟩ := decided_as_configured made
  obtain ⟨decides, -⟩ := each ready before told entered idle passes
  obtain ⟨steady, samples⟩ := decides next false turned (decided ▸ List.mem_singleton_self _)
  obtain ⟨-, agrees⟩ := each ready later _ _ idle ((passes.turn turned).turn waited)
  refine ⟨checker, ready, before, next, later, told, entered, ⟨edge, sight⟩, made, idle, passes,
    turned, decided, unfallen, steady later unfallen, ?_, agrees bus.keepsDrives, inOrder⟩
  rcases samples later _ _ unfallen commits clock rose with sampled | ⟨-, stopped, -, -, ended⟩
  · exact sampled
  · rw [ended] at goesOn
    cases goesOn

/-- A peer that drives the data line where we acknowledge may go unreported: the clock has been low
for too long to be measured, and the run ends. -/
theorem unreported_of_long_low :
    ∃ (checker ready before next later : Checker Replay) (change : Change)
      (committed : Probe Replay),
      ofConfig { clock := 0, data := 1 }
        (.ofTrace 0 1 ([⟨200, 1, some false⟩, ⟨300, 0, some false⟩] ++ Replay.pulses 400 8 ++
          [⟨2 ^ 63, 0, none⟩])) = .ok checker ∧
      checker.startUp = .ok () ready ∧ ready.turns 35 = .ok before ∧ before.turn = .ok next ∧
      true ∈ decisions before.reported ∧ next.Unfallen later ∧
      later.probe.Commits change committed ∧ change.line = .clock ∧
      committed.detector.clock.level = true ∧ (change.sight.peer .data).isSome = true ∧
      .violation (.sequence .peerDrivingDuringAck) ∉ later.reported ∧ later.entered = [] := by
  let bus : Replay := .ofTrace 0 1 ([⟨200, 1, some false⟩, ⟨300, 0, some false⟩] ++
    Replay.pulses 400 8 ++ [⟨2 ^ 63, 0, none⟩])
  have seen : ((ofConfig { clock := 0, data := 1 } bus).toOption.bind
      fun checker => checker.startUp.verdict.toOption.bind
      fun ready => (ready.turns 35).toOption.bind
      fun before => before.turn.toOption.bind
      fun next => next.turn.toOption.bind
      fun later => later.probe.look.toOption.bind
      fun sight => (later.probe.detector.edge? later.probe.lines sight).map fun edge =>
        (decisions before.reported, next.probe.detector.clock.level, edge.line,
          (later.probe.commit sight edge).detector.clock.level && (sight.peer .data).isSome,
          later.reported.length + later.entered.length)) =
      some ([true], false, .clock, true, 0) := by decide +kernel
  obtain ⟨checker, made, seen⟩ := Option.bind_eq_some_iff.mp seen
  obtain ⟨ready, idle, seen⟩ := Option.bind_eq_some_iff.mp seen
  obtain ⟨before, run, seen⟩ := Option.bind_eq_some_iff.mp seen
  obtain ⟨next, turned, seen⟩ := Option.bind_eq_some_iff.mp seen
  obtain ⟨later, waited, seen⟩ := Option.bind_eq_some_iff.mp seen
  obtain ⟨sight, look, seen⟩ := Option.bind_eq_some_iff.mp seen
  obtain ⟨edge, shows, seen⟩ := Option.map_eq_some_iff.mp seen
  obtain ⟨decided, low, clock, ⟨rose, peer⟩, quiet⟩ := by
    simpa only [Prod.mk.injEq, Bool.and_eq_true] using seen
  obtain ⟨silent, unentered⟩ := Nat.add_eq_zero_iff.mp quiet
  exact ⟨checker, ready, before, next, later, ⟨edge, sight⟩, later.probe.commit sight edge,
    eq_ok_of_toOption made, Outcome.eq_ok_of_verdict (eq_ok_of_toOption idle),
    eq_ok_of_toOption run, eq_ok_of_toOption turned, decided ▸ List.mem_singleton_self _,
    (Unfallen.none next).turn (not_fallsNext_of_low low) (eq_ok_of_toOption waited),
    ⟨eq_ok_of_toOption look, shows, rfl⟩, clock, rose, peer,
    List.length_eq_zero_iff.mp silent ▸ List.not_mem_nil, List.length_eq_zero_iff.mp unentered⟩

end Checker
end TwoWire
