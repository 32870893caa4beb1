import TwoWire.Proofs.Moments

/-! The intervals that the answer to an edge finds fault with; nothing else is measured
(`timings_answer`). -/

namespace TwoWire

namespace TimingParam

def check (limits : Limits) (param : TimingParam) (interval : Int) : List (TimingParam × Int) :=
  if (param.bound limits).allows interval then [] else [(param, interval)]

def since (limits : Limits) (param : TimingParam) (start? : Option Nat) (stop : Nat) :
    List (TimingParam × Int) :=
  match start? with
  | none => []
  | some start => param.check limits ((stop : Int) - start)

end TimingParam

namespace Finding

def timing? : Finding → Option (TimingParam × Int)
  | .violation (.timing param interval) => some (param, interval)
  | _ => none

/-- The intervals complained about among findings, in order. -/
def timings (findings : List Finding) : List (TimingParam × Int) := findings.filterMap timing?

def condition? : Finding → Option Event
  | .event told => if told.isFraming then some told else none
  | .violation _ => none

def conditions (findings : List Finding) : List Event := findings.filterMap condition?

end Finding

namespace Note

def timings (notes : List Note) : List (TimingParam × Int) := Finding.timings (findings notes)

def conditions (notes : List Note) : List Event := Finding.conditions (findings notes)

@[simp] theorem timings_nil : timings [] = [] := rfl

@[simp] theorem timings_append (first second : List Note) :
    timings (first ++ second) = timings first ++ timings second := by
  unfold timings Finding.timings
  rw [findings_append, List.filterMap_append]

@[simp] theorem timings_event (event : Event) (notes : List Note) :
    timings (.event event :: notes) = timings notes := rfl

theorem conditions_append (first second : List Note) :
    conditions (first ++ second) = conditions first ++ conditions second := by
  unfold conditions Finding.conditions
  rw [findings_append, List.filterMap_append]

theorem conditions_eq_talk (notes : List Note) :
    conditions notes = (talk notes).filter Event.isFraming := by
  unfold conditions Finding.conditions talk
  rw [List.filter_filterMap]
  congr 1
  funext finding
  cases finding with
  | violation => rfl
  | event told => cases told <;> rfl

variable {classes : List ViolationClass} {notes : List Note} {protocol : Protocol}
  {speed : SpeedClass} {start? : Option Nat} {stop : Nat}

theorem timings_of_within (within : Within classes notes) (apart : .timing ∉ classes) :
    timings notes = [] := by
  refine List.filterMap_eq_nil_iff.mpr fun finding mem => ?_
  obtain ⟨broken, rfl, kind⟩ := within finding (mem_findings.mp mem)
  cases broken with
  | timing param interval => exact absurd kind apart
  | _ => rfl

theorem conditions_of_within (within : Within classes notes) : conditions notes = [] := by
  refine List.filterMap_eq_nil_iff.mpr fun finding mem => ?_
  obtain ⟨broken, same, -⟩ := within finding (mem_findings.mp mem)
  rw [same]
  rfl

theorem timings_measured {judge : Int → Option Violation}
    {verdict : Int → List (TimingParam × Int)}
    (judges : ∀ interval, timings ((judge interval).toList.map violation) = verdict interval)
    {start : Nat} (known : start < Time.half) (early : stop < Time.half) :
    timings (measure judge (some start) stop) = verdict ((stop : Int) - start) := by
  unfold measure
  dsimp only
  rw [Time.elapsed_of_lt known early]
  exact judges _

theorem timings_judge (class_ : protocol.speed = some speed) (param : TimingParam)
    (interval : Int) :
    timings ((protocol.judge param interval).toList.map violation) =
      param.check speed.limits interval := by
  unfold Protocol.judge Violation.ofInterval? TimingParam.check
  rw [class_]
  dsimp only
  split <;> rfl

theorem timings_measure (class_ : protocol.speed = some speed) (param : TimingParam)
    (known : ∀ time, start? = some time → time < Time.half) (early : stop < Time.half) :
    timings (measure (protocol.judge param) start? stop) =
      param.since speed.limits start? stop := by
  cases start? with
  | none => rfl
  | some start => exact timings_measured (timings_judge class_ param) (known start rfl) early

theorem timings_measureBetween (class_ : protocol.speed = some speed) (param : TimingParam)
    {stop? : Option Nat} (known : ∀ time, start? = some time → time < Time.half)
    (now : stop? = some stop) (early : stop < Time.half) :
    timings (measureBetween (protocol.judge param) start? stop?) =
      param.since speed.limits start? stop := by
  rw [now]
  exact timings_measure class_ param known early

end Note

/-- What is complained about at a start or a stop, by the instants that are remembered of the
lines. -/
def View.conditionTimings (view : View) (limits : Limits) : Event → List (TimingParam × Int)
  | .startBit =>
    TimingParam.startSetup.since limits view.clock.changedAt view.now ++
      TimingParam.busFree.since limits view.data.previousChange view.now
  | .repeatedStart =>
    TimingParam.repeatedStartSetup.since limits view.clock.changedAt view.now ++
      TimingParam.busFree.since limits view.data.previousChange view.now
  | .stopBit => TimingParam.stopSetup.since limits view.clock.changedAt view.now
  | _ => []

/-- The two views differ at most in how the lines are driven. -/
structure View.Alike (view other : View) : Prop where
  detector : other.detector = view.detector
  now : other.now = view.now

namespace View.Alike

variable {view middle other : View}

theorem trans (first : view.Alike middle) (second : middle.Alike other) : view.Alike other :=
  ⟨second.detector.trans first.detector, second.now.trans first.now⟩

theorem dated (alike : view.Alike other) (dated : view.Dated) : other.Dated where
  past := by
    rw [alike.detector, alike.now]
    exact dated.past
  early := by
    rw [alike.now]
    exact dated.early

theorem conditionTimings (alike : view.Alike other) :
    other.conditionTimings = view.conditionTimings := by
  unfold View.conditionTimings View.clock View.data
  rw [alike.detector, alike.now]

end View.Alike

theorem View.alike_held (view : View) (edge : Edge) (stretches : Bool) :
    view.Alike (view.held edge stretches) :=
  ⟨view.detector_held edge stretches, congrArg Sight.now (view.sight_held edge stretches)⟩

theorem View.alike_driven (view : View) (drive? : Option Bool) : view.Alike (view.driven drive?) := by
  cases drive? <;> exact ⟨rfl, rfl⟩

namespace Protocol

open Note

theorem speed_onByteDone (protocol : Protocol) (notes : List Note) :
    (protocol.onByteDone notes).protocol.speed = protocol.speed := by
  unfold onByteDone
  split
  · unfold byteReceived command
    dsimp only
    split
    · split <;> rfl
    · rfl
  · rfl

theorem speed_arrive (protocol : Protocol) (view : View) :
    (protocol.arrive view).protocol.speed = protocol.speed := by
  unfold arrive
  split
  case h_4 =>
    unfold onSampleBit
    dsimp only
    split
    · exact speed_onByteDone ..
    · rfl
  case h_5 =>
    unfold onCheckStartStop
    dsimp only
    split <;> rfl
  case h_6 =>
    unfold onDriveAck
    split <;> rfl
  case h_7 =>
    unfold onSampleAck endByte
    dsimp only
    split
    · rfl
    · unfold peerAnswered
      split <;> rfl
  all_goals rfl

theorem speed_follow (protocol : Protocol) (view : View) (phase : Phase) :
    (protocol.follow view phase).protocol.speed = protocol.speed := by
  have entered (protocol : Protocol) (view : View) (phase : Phase) :
      (protocol.enter view phase).protocol.speed = protocol.speed := speed_arrive _ view
  cases forces : (protocol.enter view phase).forced? with
  | none => rw [follow_of_settled forces, entered]
  | some forced =>
    rw [follow_of_forced forces]
    exact (entered _ _ _).trans (entered _ _ _)

theorem speed_answer (protocol : Protocol) (stretches : Bool) (view : View) (edge : Edge) :
    (protocol.answer stretches view edge).protocol.speed = protocol.speed := by
  obtain ⟨meter, measured⟩ := protocol.measured_eq view edge
  refine (speed_follow _ _ _).trans ?_
  rw [measured]

/-- What is complained about in the two phases that a byte goes through bit by bit. -/
def bitTimings (protocol : Protocol) (view : View) (limits : Limits) :
    Phase → List (TimingParam × Int)
  | .driveBit =>
    if protocol.phase = .starting ∨ protocol.phase = .repeatStart then
      TimingParam.startHold.since limits view.data.changedAt view.now
    else []
  | .sampleBit =>
    if protocol.shifter.isSinking then
      TimingParam.dataSetup.since limits view.data.changedAt view.now
    else []
  | _ => []

variable {protocol : Protocol} {view : View} {speed : SpeedClass} {phase : Phase}
  {stretches : Bool} {edge : Edge}

theorem timings_speedNotes (protocol : Protocol) : Note.timings protocol.speedNotes = [] := by
  unfold speedNotes
  split
  · rfl
  · rw [timings_event]
    split
    · rfl
    · cases Throughput.verdict? _ _ <;> rfl

theorem timings_onByteDone (protocol : Protocol) :
    Note.timings (protocol.onByteDone []).notes = [] := by
  unfold onByteDone
  split
  · unfold receivedNotes
    rw [List.nil_append, List.cons_append, timings_event, timings_append, timings_speedNotes]
    split <;> rfl
  · rw [List.nil_append, timings_event, timings_speedNotes]

theorem timings_condition (class_ : protocol.speed = some speed) (dated : view.Dated)
    (now : view.data.changedAt = some view.now) {event : Event} (h : phase.condition? = some event) :
    Note.timings (({ protocol with previous := protocol.phase, phase } : Protocol).arrive
      view).notes = view.conditionTimings speed.limits event := by
  have start (other : Protocol) (same : other.speed = some speed) (event : Event)
      (setup : TimingParam) : Note.timings (other.onStart view event setup).notes =
        setup.since speed.limits view.clock.changedAt view.now ++
          TimingParam.busFree.since speed.limits view.data.previousChange view.now := by
    unfold onStart
    dsimp only
    rw [List.cons_append, timings_event, timings_append,
      timings_measureBetween same _ dated.clock.1 now dated.early,
      timings_measure same _ dated.data.2 dated.early]
  cases phase <;> cases h
  case stopped =>
    unfold arrive onStopped
    dsimp only
    rw [timings_event]
    exact timings_measureBetween class_ _ dated.clock.1 now dated.early
  case starting => exact start _ class_ _ _
  case repeatStart => exact start _ class_ _ _

theorem timings_enter (class_ : protocol.speed = some speed) (dated : view.Dated)
    (now : phase.condition?.isSome → view.data.changedAt = some view.now) :
    Note.timings (protocol.enter view phase).notes =
      protocol.bitTimings view speed.limits phase ++
        phase.condition?.toList.flatMap (view.conditionTimings speed.limits) := by
  have levels (line : Line) : Note.timings (mismatch phase view line) = [] :=
    timings_of_within (within_mismatch phase view line) (by decide)
  unfold enter
  dsimp only
  rw [timings_append, timings_append, levels, levels, List.nil_append, List.nil_append]
  cases phase with
  | stopped | starting | repeatStart =>
    rw [timings_condition class_ dated (now rfl) rfl]
    exact (List.append_nil _).symm
  | driveBit =>
    unfold arrive onDriveBit followsStart
    dsimp only
    unfold bitTimings
    dsimp only
    simp only [Bool.or_eq_true, decide_eq_true_eq]
    refine Eq.trans ?_ (List.append_nil _).symm
    split
    · exact timings_measure class_ _ dated.data.1 dated.early
    · rfl
  | sampleBit =>
    have setup : Note.timings (protocol.setupNotes view) =
        protocol.bitTimings view speed.limits .sampleBit := by
      unfold setupNotes bitTimings
      dsimp only
      split
      · exact timings_measure class_ _ dated.data.1 dated.early
      · rfl
    have byte : Note.timings (if (protocol.shifter.clock (view.level .data)).isComplete then
        ((protocol.sampled (view.level .data)).onByteDone []).notes else []) = [] := by
      split
      · exact timings_onByteDone _
      · rfl
    rw [arrive_sampleBit, timings_append, timings_append, setup, byte, List.append_nil]
    congr 1
    split <;> rfl
  | checkStartStop =>
    rw [arrive_checkStartStop]
    split <;> rfl
  | driveAck =>
    unfold arrive onDriveAck
    dsimp only
    split <;> rfl
  | sampleAck =>
    unfold arrive onSampleAck ackNotes
    dsimp only
    split
    · split <;> rfl
    · split <;> rfl
  | illegal =>
    unfold arrive onIllegal
    dsimp only
    split <;> rfl
  | byteDone | ackSent | acked | nacked => rfl

theorem conditions_enter (protocol : Protocol) (view : View) (phase : Phase) :
    Note.conditions (protocol.enter view phase).notes = phase.condition?.toList := by
  rw [Note.conditions_eq_talk, talk_enter]
  cases h : phase.condition? with
  | some event =>
    cases phase <;> cases h <;> rfl
  | none =>
    refine List.filter_eq_nil_iff.mpr fun event mem framing => ?_
    cases h.symm.trans (condition_of_phaseTalk mem framing)

def edgeTimings (view : View) (edge : Edge) (limits : Limits) : List (TimingParam × Int) :=
  match edge.line with
  | .clock =>
    (if view.clock.level then TimingParam.clockLow else .clockHigh).since limits
      view.clock.previousChange view.now
  | .data =>
    if view.clock.level then []
    else TimingParam.dataValid.since limits view.clock.changedAt view.now

theorem timings_edgeNotes (class_ : protocol.speed = some speed) (dated : view.Dated) :
    Note.timings (protocol.edgeNotes view edge) = edgeTimings view edge speed.limits := by
  unfold edgeNotes edgeTimings
  cases edge.line with
  | clock => exact timings_measure class_ _ dated.clock.2 dated.early
  | data =>
    dsimp only
    split
    · rfl
    · cases known : view.clock.changedAt with
      | none => rfl
      | some fall =>
        have past : fall ≤ view.now := dated.past.clock.changed fall known
        unfold Note.measure
        dsimp only
        rw [Time.elapsed_of_lt (dated.clock.1 fall known) dated.early]
        unfold judged Violation.ofDataValid?
        dsimp only
        rw [if_neg (by omega)]
        exact timings_judge class_ _ _

theorem timings_simultaneousNotes (edge : Edge) :
    Note.timings (Checker.simultaneousNotes edge) = [] :=
  timings_of_within (within_simultaneousNotes edge) (by decide)

theorem phase_answer (protocol : Protocol) (stretches : Bool) (view : View) (edge : Edge) :
    (protocol.answer stretches view edge).protocol.phase =
      (protocol.landing stretches view edge).forced?.getD
        (protocol.successor view.detector edge.line) := by
  have same := (protocol.measured view edge).phase_follow (view.held edge stretches)
    (protocol.successor view.detector edge.line)
  exact same

/-- A phase that forces another one is neither a start nor a stop, and what it forces is no phase of
a bit. -/
theorem condition_of_forced {forced : Phase}
    (h : (protocol.enter view phase).forced? = some forced) :
    phase.condition? = none ∧ forced ≠ .driveBit ∧ forced ≠ .sampleBit := by
  obtain ⟨rested, still⟩ := rests_of_forced h
  refine ⟨?_, fun same => still (.inl same), forced_ne_sampleBit h⟩
  rcases forced_cases h with ⟨rfl, -⟩ | ⟨rfl, -⟩ | ⟨rfl, -⟩ | ⟨rfl, -⟩ <;> rfl

theorem data_of_condition (protocol : Protocol) (stretches : Bool) (view : View) (edge : Edge)
    (h : (protocol.answer stretches view edge).protocol.phase.condition?.isSome) :
    edge.line = .data := by
  rw [phase_answer] at h
  cases forces : (protocol.landing stretches view edge).forced? with
  | some forced =>
    rcases forced_cases forces with ⟨-, -, rfl⟩ | ⟨target, -⟩ | ⟨-, -, rfl⟩ | ⟨-, rfl⟩
    · rw [forces] at h
      cases h
    · exact (sampleBit_of_checkStartStop target).2
    · rw [forces] at h
      cases h
    · rw [forces] at h
      revert h
      rw [Option.getD_some]
      split <;> exact nofun
  | none =>
    rw [forces, Option.getD_none] at h
    by_contra other
    have clock : edge.line = .clock := by
      cases line : edge.line with
      | clock => rfl
      | data => exact absurd line other
    have target : protocol.successor view.detector edge.line = protocol.phase.next .clock := by
      unfold successor
      rw [if_neg fun all => other all.2.1, clock]
    rw [target] at h
    cases phase : protocol.phase <;> rw [phase] at h <;> cases h

theorem conditions_answer (protocol : Protocol) (stretches : Bool) (view : View) (edge : Edge) :
    Note.conditions (protocol.answer stretches view edge).notes =
      (protocol.answer stretches view edge).protocol.phase.condition?.toList := by
  have landed : Note.conditions (protocol.landing stretches view edge).notes =
      (protocol.successor view.detector edge.line).condition?.toList := conditions_enter ..
  rw [notes_answer, conditions_append, conditions_append, conditions_append, landed,
    conditions_of_within (within_edgeNotes _ _ _),
    conditions_of_within (within_simultaneousNotes _), List.nil_append, List.nil_append,
    phase_answer]
  unfold forcedNotes
  dsimp only
  cases forces : (protocol.landing stretches view edge).forced? with
  | none => exact List.append_nil _
  | some forced =>
    dsimp only
    rw [(condition_of_forced forces).1, conditions_enter]
    rfl

theorem timings_landing (class_ : protocol.speed = some speed) (dated : view.Dated)
    (now : (protocol.successor view.detector edge.line).condition?.isSome →
      view.data.changedAt = some view.now) :
    Note.timings (protocol.landing stretches view edge).notes =
      protocol.bitTimings view speed.limits (protocol.successor view.detector edge.line) ++
        (protocol.successor view.detector edge.line).condition?.toList.flatMap
          (view.conditionTimings speed.limits) := by
  obtain ⟨meter, measured⟩ := protocol.measured_eq view edge
  have alike := view.alike_held edge stretches
  have bits (phase : Phase) : (protocol.measured view edge).bitTimings
      (view.held edge stretches) speed.limits phase =
        protocol.bitTimings view speed.limits phase := by
    unfold bitTimings View.data
    rw [alike.detector, alike.now, measured]
  unfold landing
  rw [timings_enter _ (alike.dated dated), bits, alike.conditionTimings]
  · rw [View.data, alike.detector, alike.now]
    exact now
  · rw [measured]
    exact class_

theorem timings_forcedNotes (class_ : protocol.speed = some speed) (dated : view.Dated)
    {forced : Phase} (forces : (protocol.landing stretches view edge).forced? = some forced)
    (now : forced.condition?.isSome → view.data.changedAt = some view.now) :
    Note.timings (protocol.forcedNotes stretches view edge) =
      forced.condition?.toList.flatMap (view.conditionTimings speed.limits) := by
  obtain ⟨-, driving, sampling⟩ := condition_of_forced forces
  obtain ⟨meter, measured⟩ := protocol.measured_eq view edge
  have alike := (view.alike_held edge stretches).trans
    (View.alike_driven _ (protocol.landing stretches view edge).drive?)
  have same : (protocol.landing stretches view edge).protocol.speed = some speed := by
    refine (speed_arrive _ _).trans ?_
    rw [measured]
    exact class_
  have bits : (protocol.landing stretches view edge).protocol.bitTimings
      ((view.held edge stretches).driven (protocol.landing stretches view edge).drive?)
        speed.limits forced = [] := by
    cases forced with
    | driveBit => exact absurd rfl driving
    | sampleBit => exact absurd rfl sampling
    | _ => rfl
  unfold forcedNotes
  dsimp only
  rw [forces]
  dsimp only
  rw [timings_enter same (alike.dated dated), bits, alike.conditionTimings, List.nil_append]
  rw [View.data, alike.detector, alike.now]
  exact now

/-- All that is complained about at an edge: the edge itself, the bit that it begins or samples and
the start or the stop that it is. -/
theorem timings_answer (stretches : Bool) (class_ : protocol.speed = some speed)
    (dated : view.Dated) (now : edge.line = .data → view.data.changedAt = some view.now) :
    Note.timings (protocol.answer stretches view edge).notes =
      edgeTimings view edge speed.limits ++
        protocol.bitTimings view speed.limits (protocol.successor view.detector edge.line) ++
        (protocol.answer stretches view edge).protocol.phase.condition?.toList.flatMap
          (view.conditionTimings speed.limits) := by
  have moved (h : (protocol.answer stretches view edge).protocol.phase.condition?.isSome) :
      view.data.changedAt = some view.now := now (data_of_condition _ _ _ _ h)
  rw [phase_answer] at moved ⊢
  rw [notes_answer, timings_append, timings_append, timings_append, timings_edgeNotes class_ dated,
    timings_simultaneousNotes, List.append_nil, List.append_assoc, List.append_assoc]
  congr 1
  cases forces : (protocol.landing stretches view edge).forced? with
  | none =>
    rw [forces] at moved
    have silent : protocol.forcedNotes stretches view edge = [] := by
      unfold forcedNotes
      dsimp only
      rw [forces]
    rw [timings_landing class_ dated moved, silent, timings_nil, List.append_nil, Option.getD_none]
  | some forced =>
    rw [forces] at moved
    have plain : (protocol.successor view.detector edge.line).condition? = none :=
      (condition_of_forced forces).1
    rw [timings_landing class_ dated, timings_forcedNotes class_ dated forces moved, plain,
      Option.toList_none, List.flatMap_nil, List.append_nil, Option.getD_some]
    rw [plain]
    exact fun some => absurd some Bool.false_ne_true

end Protocol
end TwoWire
