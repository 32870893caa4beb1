import TwoWire.Proofs.History

/-! Starts and stops. Only an edge of the data line while the clock is high is told of as one, and
every such edge is, but for those that the phase they come in takes none from. -/

namespace TwoWire

namespace Phase

theorem atRest_of_condition {phase : Phase} {event : Event} (h : phase.condition? = some event) :
    phase.clockOnEntry = some true ∧ phase.clockAtRest = some true ∧
      phase.dataAtRest = some (decide (event = .stopBit)) := by
  cases phase <;> cases h <;> exact ⟨rfl, rfl, rfl⟩

theorem isFraming_of_condition {phase : Phase} {event : Event}
    (h : phase.condition? = some event) : event.isFraming = true := by
  cases phase <;> cases h <;> rfl

/-- What comes of an edge of the data line while the clock is high, after so many bits of the byte
in flight: a start or a stop, after a fault if it comes amid a byte; a complaint; or nothing. In the
other phases there is no such edge. -/
def Framed (bits : Nat) (rose : Bool) (reported : List Finding) (phase : Phase) : Prop :=
  match phase with
  | .stopped | .illegal => reported.countP (Finding.shows Event.isFraming) = 1
  | .sampleBit =>
    reported.countP (Finding.shows Event.isFraming) = 1 ∧
      (bits ≠ 1 → ∃ rest, reported =
        if rose then .violation (.sequence .stopMidByte) :: .event .stopBit :: rest
        else .violation (.sequence .startMidByte) :: .event .startBit :: rest)
  | .starting | .repeatStart | .byteDone =>
    .violation (.illegalPhase phase) ∈ reported ∧
      reported.countP (Finding.shows Event.isFraming) = 0
  | .acked | .nacked => ∀ event, .event event ∉ reported
  | .driveBit | .checkStartStop | .driveAck | .ackSent | .sampleAck => False

end Phase

namespace Note

theorem countP_shows_of_within {classes : List ViolationClass} {notes : List Note}
    (within : Within classes notes) (p : Event → Bool) :
    (told notes).countP (Finding.shows p) = 0 := by
  rw [List.countP_eq_zero]
  intro finding mem
  obtain ⟨broken, rfl, -⟩ := within finding (mem_of_mem_told mem)
  exact Bool.false_ne_true

theorem countP_told_event {event : Event} {rest : List Note} (framing : event.isFraming = true)
    (within : Within [.timing] rest) :
    (told (.event event :: rest)).countP (Finding.shows Event.isFraming) = 1 := by
  have first : Finding.shows Event.isFraming (.event event) = true := framing
  change (Finding.event event :: told rest).countP _ = 1
  rw [List.countP_cons_of_pos first, countP_shows_of_within within]

end Note

namespace Protocol

open Note

variable {protocol : Protocol} {view : View} {phase : Phase} {event : Event}

theorem condition_of_phaseTalk (h : event ∈ protocol.phaseTalk view phase)
    (framing : event.isFraming = true) : phase.condition? = some event := by
  rcases mem_phaseTalk h with condition | ⟨-, -, talk⟩ | ⟨-, none⟩
  · exact condition
  · cases (mem_byteTalk talk).1.symm.trans framing
  · cases none.symm.trans framing

theorem notes_enter_of_fits (fits : view.Fits phase) : (protocol.enter view phase).notes =
    (({ protocol with previous := protocol.phase, phase } : Protocol).arrive view).notes := by
  unfold enter
  dsimp only
  rw [mismatch_of_fits fits, mismatch_of_fits fits]
  rfl

theorem arrive_of_condition (protocol : Protocol) (view : View)
    (h : phase.condition? = some event) :
    ∃ rest, (({ protocol with previous := protocol.phase, phase } : Protocol).arrive view).notes =
      .event event :: rest ∧ Within [.timing] rest := by
  have start (other : Protocol) (event : Event) (setup : TimingParam) :
      ∃ rest, (other.onStart view event setup).notes = .event event :: rest ∧
        Within [.timing] rest :=
    ⟨_, rfl, within_append (within_measureBetween within_judge _ _)
      (within_measure within_judge _ _)⟩
  cases phase <;> cases h
  case stopped => exact ⟨_, rfl, within_measureBetween within_judge _ _⟩
  case starting => exact start _ _ _
  case repeatStart => exact start _ _ _

theorem notes_of_condition (protocol : Protocol) (h : phase.condition? = some event)
    (fits : view.Fits phase) :
    ∃ rest, (protocol.enter view phase).notes = .event event :: rest ∧ Within [.timing] rest := by
  rw [notes_enter_of_fits fits]
  exact arrive_of_condition protocol view h

theorem arrive_checkStartStop (protocol : Protocol) (view : View) :
    (({ protocol with previous := protocol.phase, phase := .checkStartStop } : Protocol).arrive
      view).notes =
      if protocol.shifter.bits = 1 then []
      else [.fault (if view.data.level then .stopMidByte else .startMidByte)] := by
  unfold arrive onCheckStartStop
  dsimp only
  by_cases first : protocol.shifter.bits = 1 <;> cases view.data.level <;> simp [first]

variable {stretches : Bool} {left : Protocol} {notes : List Note} {phases : List Phase}
  {error? : Option BusError}

theorem told_of_landed {edge : Edge} (suits : (view.held edge stretches).Suits
      (protocol.successor view.detector edge.line))
    (extent : protocol.Extent stretches view edge left notes phases error?) (landed : phases ≠ []) :
    told notes = told (protocol.answer stretches view edge).notes := by
  have quiet (rests : (protocol.landing stretches view edge).forced? = none) :
      protocol.forcedNotes stretches view edge = [] := by
    unfold forcedNotes
    dsimp only
    rw [rests]
  cases extent with
  | judged => exact absurd rfl landed
  | unread _ overflow =>
    have cut : ¬Sound (protocol.edgeNotes view edge ++ Checker.simultaneousNotes edge ++
        (protocol.landing stretches view edge).notes) :=
      fun sound => not_overflow_of_sound (sound_of_append sound).2 _ overflow
    rw [notes_answer, told_append_of_not_sound cut]
  | refused _ _ drives =>
    rw [notes_answer]
    cases forced : (protocol.landing stretches view edge).forced? with
    | none => rw [quiet forced, List.append_nil]
    | some next =>
      -- the only phase that drives the line and forces another forces one that tells of nothing
      have silent : protocol.forcedNotes stretches view edge = [] := by
        unfold forcedNotes
        dsimp only
        rw [forced]
        unfold landing at forced drives
        dsimp only
        rw [landing, notes_enter_of_fits (suits_forced suits forced).fits]
        rcases forced_cases forced with ⟨target, -⟩ | ⟨target, -⟩ | ⟨-, -, rfl⟩ | ⟨target, -⟩
        case inr.inr.inl => rfl
        all_goals
          rw [target, drive?_enter _ _ (by decide)] at drives
          cases drives
      rw [silent, List.append_nil]
  | settled _ _ rests => rw [notes_answer, quiet rests, List.append_nil]
  | forced => rfl

theorem told_of_extent {edge : Edge} (suits : (view.held edge stretches).Suits
      (protocol.successor view.detector edge.line))
    (extent : protocol.Extent stretches view edge left notes phases error?) :
    told notes = told (protocol.answer stretches view edge).notes ∨
      notes = protocol.edgeNotes view edge ∧
        (¬Sound (protocol.edgeNotes view edge) ∨ view.falls edge = true) := by
  have whole := told_of_landed suits extent
  cases extent with
  | judged _ cut => exact .inr ⟨rfl, cut⟩
  | unread | refused | settled | forced => exact .inl (whole (List.cons_ne_nil _ _))

theorem told_of_dataEdge (high : view.detector.clock.level = true)
    (suits : view.Suits (protocol.successor view.detector .data))
    (extent : protocol.Extent stretches view .data left notes phases error?) :
    told notes = told (protocol.follow view (protocol.successor view.detector .data)).notes := by
  have quiet : protocol.edgeNotes view .data = [] := if_pos high
  have whole : (protocol.answer stretches view .data).notes =
      protocol.edgeNotes view .data ++ Checker.simultaneousNotes .data ++
        (protocol.follow view (protocol.successor view.detector .data)).notes := rfl
  have kept : (view.held .data stretches).Suits (protocol.successor view.detector .data) := suits
  rcases told_of_extent kept extent with same | ⟨-, cut | falls⟩
  · rw [same, whole, quiet]
    rfl
  · rw [quiet] at cut
    exact absurd sound_nil cut
  · cases falls

theorem rests_of_condition (h : phase.condition? = some event) : rests phase = true := by
  cases phase <;> first | rfl | cases h

theorem countP_follow_of_condition (h : phase.condition? = some event) (fits : view.Fits phase) :
    (told (protocol.follow view phase).notes).countP (Finding.shows Event.isFraming) = 1 := by
  obtain ⟨rest, same, within⟩ := notes_of_condition protocol h fits
  rw [follow_of_settled (forced?_enter_of_rests _ _ (rests_of_condition h)), same]
  exact countP_told_event (Phase.isFraming_of_condition h) within

/-- The data line has moved while the clock is high: a stop if it rose, a start if it fell, which is
a repeated one after the first bit of a byte, and a fault before them after any other bit. -/
theorem notes_follow_checkStartStop (protocol : Protocol) (suits : view.Suits .checkStartStop) :
    ∃ rest, Within [.timing] rest ∧ (protocol.follow view .checkStartStop).notes =
      (if protocol.shifter.bits = 1 then []
        else [.fault (if view.data.level then .stopMidByte else .startMidByte)]) ++
      .event (if view.data.level then .stopBit
        else if protocol.shifter.bits = 1 then .repeatedStart else .startBit) :: rest := by
  have forces : (protocol.enter view .checkStartStop).forced? = _ := forced?_enter_checkStartStop
  have fits := (suits_forced suits forces).fits
  have condition : Phase.condition?
      (if view.data.level then .stopped
        else if protocol.shifter.bits = 1 then .repeatStart else .starting) =
      some (if view.data.level then .stopBit
        else if protocol.shifter.bits = 1 then .repeatedStart else .startBit) := by
    split
    · rfl
    · split <;> rfl
  obtain ⟨rest, same, within⟩ :=
    notes_of_condition (protocol.enter view .checkStartStop).protocol condition fits
  refine ⟨rest, within, ?_⟩
  rw [follow_of_forced forces]
  dsimp only
  rw [same, notes_enter_of_fits suits.fits, arrive_checkStartStop]

theorem notes_follow_illegal (legal : protocol.phase ≠ .illegal) :
    (protocol.follow view .illegal).notes = [.violation (.illegalPhase protocol.phase)] :=
  if_neg legal

variable {before : EdgeDetector} {bits : Nat}

theorem framed_sampleBit {rest : List Note} (rose : Bool) (within : Within [.timing] rest) :
    Phase.Framed bits rose
      (told ((if bits = 1 then [] else [.fault (if rose then .stopMidByte else .startMidByte)]) ++
        .event (if rose then .stopBit
          else if bits = 1 then .repeatedStart else .startBit) :: rest)) .sampleBit := by
  by_cases first : bits = 1
  · rw [if_pos first, List.nil_append]
    refine ⟨countP_told_event ?_ within, fun later => absurd first later⟩
    rw [if_pos first]
    cases rose <;> rfl
  · rw [if_neg first, if_neg first]
    constructor
    · rw [List.singleton_append]
      change (Finding.violation _ :: told _).countP _ = 1
      rw [List.countP_cons_of_neg (by simp [Finding.shows])]
      refine countP_told_event ?_ within
      cases rose <;> rfl
    · intro _
      refine ⟨told rest, ?_⟩
      cases rose <;> rfl

theorem framed_of_dataEdge (lasts : protocol.phase.Lasts before)
    (moved : before.Moved view.detector .data) (high : view.detector.clock.level = true)
    (suits : view.Suits (protocol.successor view.detector .data))
    (counted : protocol.phase = .sampleBit → protocol.shifter.bits = bits)
    (extent : protocol.Extent stretches view .data left notes phases error?) :
    protocol.phase.Framed bits view.data.level (told notes) := by
  have kept : view.detector.clock.level = before.clock.level := moved.kept .clock (by simp)
  have clock := lasts.clock
  rw [← kept, high] at clock
  by_cases illegal : protocol.phase = .illegal
  case pos =>
    have target := successor_of_illegal illegal view.detector
    rw [high, if_pos rfl] at target
    have told := told_of_dataEdge high suits extent
    rw [target] at told suits
    rw [told, illegal]
    cases rose : view.detector.data.level <;> rw [rose] at suits
    · exact countP_follow_of_condition rfl suits.fits
    · exact countP_follow_of_condition rfl suits.fits
  case neg =>
    have target : protocol.successor view.detector .data = protocol.phase.next .data :=
      successor_of_legal illegal
    have told := told_of_dataEdge high suits extent
    rw [target] at told suits
    cases phase : protocol.phase with
    | illegal => exact absurd phase illegal
    | checkStartStop => exact absurd phase lasts.rests.1
    | sampleAck => exact absurd phase lasts.rests.2
    | driveBit | driveAck | ackSent =>
      rw [phase] at clock
      exact absurd (clock false rfl) (by decide)
    | stopped =>
      rw [phase] at told suits
      rw [told]
      exact countP_follow_of_condition rfl suits.fits
    | sampleBit =>
      rw [phase] at told suits
      obtain ⟨rest, within, same⟩ := notes_follow_checkStartStop protocol suits
      rw [told]
      change Phase.Framed bits _ (Note.told (protocol.follow view .checkStartStop).notes) _
      rw [same, counted phase]
      exact framed_sampleBit _ within
    | starting | repeatStart | byteDone =>
      rw [phase] at told
      rw [told]
      change Phase.Framed bits _ (Note.told (protocol.follow view .illegal).notes) _
      rw [notes_follow_illegal illegal, phase]
      exact ⟨List.mem_singleton_self _, rfl⟩
    | acked | nacked =>
      rw [phase] at told
      rw [told]
      exact nofun

variable {edge : Edge}

theorem dataEdge_of_told (lasts : protocol.phase.Lasts before)
    (moved : before.Moved view.detector edge.line)
    (extent : protocol.Extent stretches view edge left notes phases error?)
    (mem : .event event ∈ told notes) (framing : event.isFraming = true) :
    edge.line = .data ∧ view.detector.clock.level = true ∧
      view.detector.data.level = decide (event = .stopBit) := by
  have reached := reached_successor lasts moved
  have spoken : ∀ kbps, event ≠ .speed kbps := by
    rintro kbps rfl
    cases framing
  rcases mem_phaseTalk_of_extent extent (mem_talk mem spoken) with
    ⟨-, talk⟩ | ⟨forced, next, -, talk⟩
  · obtain ⟨clock, -, data⟩ := Phase.atRest_of_condition (condition_of_phaseTalk talk framing)
    obtain ⟨line, level⟩ := reached.data _ ((Phase.expected_data _).trans data)
    exact ⟨line, reached.clock true clock, level⟩
  · obtain ⟨-, clock, data⟩ := Phase.atRest_of_condition (condition_of_phaseTalk talk framing)
    have same := view.detector_held edge stretches
    rw [← same] at reached ⊢
    unfold landing at next
    rw [← same] at next
    obtain ⟨lasts, looks⟩ := lasts_of_forced reached.clock next
    refine ⟨reached.checks (looks ?_), lasts.clock true clock, lasts.data _ data⟩
    rw [data]
    rfl

theorem successor_ne_repeatStart (detector : EdgeDetector) (line : Line) :
    protocol.successor detector line ≠ .repeatStart := by
  unfold successor
  split
  · split <;> exact nofun
  · cases protocol.phase <;> cases line <;> exact nofun

theorem sampleBit_of_checkStartStop {detector : EdgeDetector} {line : Line}
    (h : protocol.successor detector line = .checkStartStop) :
    protocol.phase = .sampleBit ∧ line = .data := by
  unfold successor at h
  split at h
  · split at h <;> cases h
  · revert h
    cases protocol.phase <;> cases line <;> decide

theorem firstBit_of_repeatedStart
    (extent : protocol.Extent stretches view edge left notes phases error?)
    (mem : .event .repeatedStart ∈ told notes) :
    protocol.phase = .sampleBit ∧ edge.line = .data ∧ view.data.level = false ∧
      protocol.shifter.bits = 1 := by
  rcases mem_phaseTalk_of_extent extent (mem_talk mem nofun) with
    ⟨-, talk⟩ | ⟨forced, next, -, talk⟩
  · have condition := condition_of_phaseTalk talk rfl
    cases target : protocol.successor view.detector edge.line <;> rw [target] at condition <;>
      cases condition
    exact absurd target (successor_ne_repeatStart _ _)
  · have repeated : forced = .repeatStart := by
      have condition := condition_of_phaseTalk talk rfl
      cases forced <;> first | rfl | cases condition
    rw [repeated] at next
    rcases forced_cases next with ⟨-, -, same⟩ | ⟨target, same⟩ | ⟨-, -, same⟩ | ⟨-, same⟩
    · cases same
    · obtain ⟨phase, line⟩ := sampleBit_of_checkStartStop target
      rw [View.data, view.detector_held, shifter_measured] at same
      refine ⟨phase, line, ?_⟩
      cases fell : view.detector.data.level with
      | true =>
        rw [fell] at same
        cases same
      | false =>
        refine ⟨fell, ?_⟩
        rw [fell] at same
        by_contra later
        rw [if_neg Bool.false_ne_true, if_neg later] at same
        cases same
    · cases same
    · split at same <;> cases same

theorem repeatedStart_of_firstBit (lasts : protocol.phase.Lasts before)
    (moved : before.Moved view.detector .data) (phase : protocol.phase = .sampleBit)
    (suits : view.Suits (protocol.successor view.detector .data)) (fell : view.data.level = false)
    (first : protocol.shifter.bits = 1)
    (extent : protocol.Extent stretches view .data left notes phases error?) :
    .event .repeatedStart ∈ told notes := by
  have high : view.detector.clock.level = true :=
    (moved.kept .clock (by simp)).trans (lasts.clock true (by rw [phase]; rfl))
  have target : protocol.successor view.detector .data = .checkStartStop := by
    rw [successor_of_legal (by simp [phase]), phase]
    rfl
  have same := told_of_dataEdge high suits extent
  rw [target] at suits same
  obtain ⟨rest, -, follows⟩ := notes_follow_checkStartStop protocol suits
  rw [same, follows, fell, first]
  exact List.mem_cons_self

end Protocol

namespace Checker

variable {β : Type} [LineBus β]

theorem bits_of_sampleBit {checker ready before : Checker β} {n : Nat} (made : Made checker)
    (idle : checker.startUp = .ok () ready) (run : ready.turns n = .ok before)
    (phase : before.protocol.phase = .sampleBit) :
    before.protocol.shifter.bits = (gathered ready n).length := by
  have gathers := gathers_turns made idle run
  rw [phase] at gathers
  exact gathers.1

/-- The three conditions are recognised in every run, where they are and nowhere else. Each is told
of at an edge of the data line while the clock is high, a stop where the line rose and a start of
either kind where it fell; what comes of each such edge is what the phase it comes in makes of it;
and a start is a repeated one just if the line fell after the first bit of a byte. -/
theorem conditions_of_dataEdges {checker ready before : Checker β} {n : Nat} (made : Made checker)
    (idle : checker.startUp = .ok () ready) (run : ready.turns n = .ok before) :
    (∀ event, .event event ∈ before.reported → event.isFraming = true →
      ∃ change committed, before.probe.Commits change committed ∧ change.line = .data ∧
        committed.detector.clock.level = true ∧
        committed.detector.data.level = decide (event = .stopBit)) ∧
    (∀ change committed, before.probe.Commits change committed → change.line = .data →
      committed.detector.clock.level = true →
      before.protocol.phase.Framed (gathered ready n).length committed.detector.data.level
        before.reported) ∧
    (.event .repeatedStart ∈ before.reported ↔
      ∃ change committed, before.probe.Commits change committed ∧ change.line = .data ∧
        committed.detector.data.level = false ∧ before.protocol.phase = .sampleBit ∧
        (gathered ready n).length = 1) := by
  have lasts := lasts_turns idle run
  have answers : ∀ event, .event event ∈ before.reported →
      ∃ change committed, before.probe.Commits change committed := by
    intro event told
    rcases before.commits_or_silent with seen | ⟨silent, -⟩
    · exact seen
    · rw [reported_of_silent silent] at told
      cases told
  refine ⟨?_, ?_, ?_⟩
  · intro event told framing
    obtain ⟨change, committed, commits⟩ := answers event told
    obtain ⟨notes, error?, extent, same, -⟩ := extent_of_commits commits
    rw [same] at told
    obtain ⟨line, clock, data⟩ :=
      Protocol.dataEdge_of_told lasts (moved_of_commits commits) extent told framing
    refine ⟨change, committed, commits, line, ?_, ?_⟩ <;> rw [commits.after]
    · exact clock
    · exact data
  · rintro ⟨edge, sight⟩ committed commits line high
    obtain ⟨notes, error?, extent, same, -⟩ := extent_of_commits commits
    cases edge <;> cases line
    rw [commits.after] at high ⊢
    rw [same]
    exact Protocol.framed_of_dataEdge lasts (moved_of_commits commits) high
      (suits_of_commits lasts commits) (bits_of_sampleBit made idle run) extent
  · constructor
    · intro told
      obtain ⟨change, committed, commits⟩ := answers _ told
      obtain ⟨notes, error?, extent, same, -⟩ := extent_of_commits commits
      rw [same] at told
      obtain ⟨phase, line, fell, first⟩ := Protocol.firstBit_of_repeatedStart extent told
      refine ⟨change, committed, commits, line, ?_, phase, ?_⟩
      · rw [commits.after]
        exact fell
      · rw [← bits_of_sampleBit made idle run phase]
        exact first
    · rintro ⟨⟨edge, sight⟩, committed, commits, line, fell, phase, first⟩
      obtain ⟨notes, error?, extent, same, -⟩ := extent_of_commits commits
      cases edge <;> cases line
      rw [commits.after] at fell
      rw [same]
      exact Protocol.repeatedStart_of_firstBit lasts (moved_of_commits commits) phase
        (suits_of_commits lasts commits) fell
        ((bits_of_sampleBit made idle run phase).trans first) extent

/-- A start, one bit, and the data line falls again. -/
theorem repeatedStart_of_one_bit :
    ∃ checker ready before : Checker Replay,
      ofConfig { clock := 0, data := 1 }
        (.ofTrace 0 1 [⟨200, 1, some false⟩, ⟨300, 0, some false⟩, ⟨350, 1, none⟩, ⟨400, 0, none⟩,
          ⟨450, 1, some false⟩]) = .ok checker ∧
      checker.startUp = .ok () ready ∧ ready.turns 9 = .ok before ∧
      .event .repeatedStart ∈ before.reported ∧ before.protocol.phase = .sampleBit ∧
      (gathered ready 9).length = 1 := by
  let bus : Replay := .ofTrace 0 1 [⟨200, 1, some false⟩, ⟨300, 0, some false⟩, ⟨350, 1, none⟩,
    ⟨400, 0, none⟩, ⟨450, 1, some false⟩]
  have told : ((ofConfig { clock := 0, data := 1 } bus).toOption.bind
      fun checker => checker.startUp.verdict.toOption.bind
      fun ready => (ready.turns 9).toOption.map fun before => before.reported.head?) =
        some (some (.event .repeatedStart)) := by decide +kernel
  obtain ⟨checker, made, told⟩ := Option.bind_eq_some_iff.mp told
  obtain ⟨ready, idle, told⟩ := Option.bind_eq_some_iff.mp told
  obtain ⟨before, run, told⟩ := Option.map_eq_some_iff.mp told
  have made := eq_ok_of_toOption made
  have idle := Outcome.eq_ok_of_verdict (eq_ok_of_toOption idle)
  have run := eq_ok_of_toOption run
  have told := List.mem_of_head? told
  obtain ⟨-, -, -, -, -, phase, first⟩ :=
    (conditions_of_dataEdges (.fresh made) idle run).2.2.mp told
  exact ⟨checker, ready, before, made, idle, run, told, phase, first⟩

end Checker
end TwoWire
