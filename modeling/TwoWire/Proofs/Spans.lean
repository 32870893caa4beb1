import TwoWire.Proofs.Excursion
import TwoWire.Proofs.Stamped
import TwoWire.Proofs.Timed
import TwoWire.Proofs.Unjudged

/-! What is complained about an interval is the time between two edges, the later of which is the
one that the complaint comes of (`spans_of_recounts`). -/

namespace TwoWire

def Phase.params : Phase → List TimingParam
  | .stopped => [.stopSetup]
  | .starting => [.startSetup, .busFree]
  | .driveBit => [.startHold]
  | .sampleBit => [.dataSetup]
  | .repeatStart => [.repeatedStartSetup, .busFree]
  | _ => []

namespace Note

/-- What is complained about are some intervals only, and none without a speed class. -/
def Judges (speed : Option SpeedClass) (params : List TimingParam) (notes : List Note) : Prop :=
  ∀ broken ∈ timings notes, broken.1 ∈ params ∧ speed ≠ none

variable {speed : Option SpeedClass} {params more : List TimingParam} {first second : List Note}
  {judge : Int → Option Violation}

theorem judges_of_timings {notes : List Note} (none : timings notes = []) :
    Judges speed params notes := by
  intro broken mem
  rw [none] at mem
  cases mem

theorem Judges.append (left : Judges speed params first) (right : Judges speed params second) :
    Judges speed params (first ++ second) := by
  intro broken mem
  rw [timings_append] at mem
  rcases List.mem_append.mp mem with mem | mem
  · exact left broken mem
  · exact right broken mem

theorem Judges.mono (judges : Judges speed params first) (subset : params ⊆ more) :
    Judges speed more first :=
  fun broken mem => ⟨subset (judges broken mem).1, (judges broken mem).2⟩

theorem Judges.timings_eq_nil (judges : Judges speed params first) (class_ : speed = none) :
    timings first = [] :=
  List.eq_nil_iff_forall_not_mem.mpr fun broken mem => (judges broken mem).2 class_

theorem judges_judged
    (verdicts : ∀ interval broken, judge interval = some broken →
      Judges speed params [violation broken])
    (elapsed : Except Overflow Int) : Judges speed params (judged judge elapsed) := by
  cases elapsed with
  | error kind => exact judges_of_timings rfl
  | ok interval =>
    unfold judged
    dsimp only
    cases verdict : judge interval with
    | none => exact judges_of_timings rfl
    | some broken => exact verdicts interval broken verdict

theorem judges_measure
    (verdicts : ∀ interval broken, judge interval = some broken →
      Judges speed params [violation broken])
    (start? : Option Nat) (stop : Nat) : Judges speed params (measure judge start? stop) := by
  cases start? with
  | none => exact judges_of_timings rfl
  | some start => exact judges_judged verdicts (Time.elapsed start stop)

end Note

namespace Protocol

open Note

variable {protocol : Protocol} {view : View} {stretches : Bool} {edge : Edge}

theorem judges_ofInterval? {speed : Option SpeedClass} {param : TimingParam} {interval : Int}
    {broken : Violation} (judged : Violation.ofInterval? speed param interval = some broken) :
    Judges speed [param] [violation broken] := by
  intro told mem
  cases Violation.eq_of_ofInterval? judged
  cases List.mem_singleton.mp mem
  refine ⟨List.mem_singleton_self _, fun none => ?_⟩
  rw [none] at judged
  cases judged

theorem judges_since (protocol : Protocol) (param : TimingParam) (start? : Option Nat)
    (stop : Nat) : Judges protocol.speed [param] (measure (protocol.judge param) start? stop) :=
  judges_measure (fun _ _ => judges_ofInterval?) start? stop

theorem judges_between (protocol : Protocol) (param : TimingParam) (start? stop? : Option Nat) :
    Judges protocol.speed [param] (measureBetween (protocol.judge param) start? stop?) := by
  cases stop? with
  | none => exact judges_of_timings rfl
  | some stop => exact protocol.judges_since param start? stop

theorem judges_onStart (protocol : Protocol) (view : View) (event : Event) (setup : TimingParam) :
    Judges protocol.speed [setup, .busFree] (protocol.onStart view event setup).notes := by
  unfold onStart
  rw [List.cons_append]
  have setups : Judges protocol.speed [setup, .busFree] (measureBetween (protocol.judge setup)
      view.clock.changedAt view.data.changedAt) := (protocol.judges_between _ _ _).mono (by simp)
  exact setups.append ((protocol.judges_since _ _ _).mono (by simp))

theorem judges_enter (protocol : Protocol) (view : View) (phase : Phase) :
    Judges protocol.speed phase.params (protocol.enter view phase).notes := by
  have levels (line : Line) : Judges protocol.speed phase.params (mismatch phase view line) :=
    judges_of_timings (timings_of_within (within_mismatch phase view line) (by decide))
  unfold enter
  dsimp only
  refine ((levels .clock).append (levels .data)).append ?_
  cases phase with
  | stopped => exact judges_between _ _ _ _
  | starting | repeatStart => exact judges_onStart _ _ _ _
  | driveBit =>
    unfold arrive onDriveBit
    dsimp only
    split
    · exact judges_since _ _ _ _
    · exact judges_of_timings rfl
  | sampleBit =>
    rw [arrive_sampleBit]
    have setup : Judges protocol.speed [.dataSetup] (protocol.setupNotes view) := by
      unfold setupNotes
      split
      · exact judges_since _ _ _ _
      · exact judges_of_timings rfl
    refine (setup.append (judges_of_timings ?_)).append (judges_of_timings ?_)
    · split <;> rfl
    · split
      · exact timings_onByteDone _
      · rfl
  | checkStartStop =>
    rw [arrive_checkStartStop]
    split <;> exact judges_of_timings rfl
  | driveAck =>
    unfold arrive onDriveAck
    dsimp only
    split <;> exact judges_of_timings rfl
  | sampleAck =>
    unfold arrive onSampleAck ackNotes
    dsimp only
    split <;> split <;> exact judges_of_timings rfl
  | illegal =>
    unfold arrive onIllegal
    dsimp only
    split <;> exact judges_of_timings rfl
  | byteDone | ackSent | acked | nacked => exact judges_of_timings rfl

theorem judges_edgeNotes (protocol : Protocol) (view : View) (edge : Edge) :
    Judges protocol.speed [.clockLow, .clockHigh, .dataValid] (protocol.edgeNotes view edge) := by
  unfold edgeNotes
  split
  · refine (protocol.judges_since _ _ _).mono ?_
    split <;> simp
  · split
    · exact judges_of_timings rfl
    · refine judges_measure (fun interval broken judged => ?_) _ _
      unfold Violation.ofDataValid? at judged
      split at judged
      · cases judged
      · exact (judges_ofInterval? judged).mono (by simp)

theorem timings_answer_of_no_class (class_ : protocol.speed = none) :
    Note.timings (protocol.answer stretches view edge).notes = [] := by
  obtain ⟨meter, measured⟩ := protocol.measured_eq view edge
  have measured : (protocol.measured view edge).speed = none := by
    rw [measured]
    exact class_
  have landed : (protocol.landing stretches view edge).protocol.speed = none :=
    (speed_arrive _ _).trans measured
  have forced : Note.timings (protocol.forcedNotes stretches view edge) = [] := by
    unfold forcedNotes
    dsimp only
    split
    · rfl
    · exact (judges_enter _ _ _).timings_eq_nil landed
  rw [notes_answer, timings_append, timings_append, timings_append, forced,
    (protocol.judges_edgeNotes view edge).timings_eq_nil class_, timings_simultaneousNotes]
  unfold landing
  rw [(judges_enter _ _ _).timings_eq_nil measured]
  rfl

end Protocol

namespace TimingParam

variable {limits : Limits} {param : TimingParam} {interval : Int} {broken : TimingParam × Int}

theorem interval_of_mem_check (mem : broken ∈ param.check limits interval) :
    broken.2 = interval := by
  unfold check at mem
  split at mem
  · cases mem
  · rw [List.mem_singleton.mp mem]

end TimingParam

namespace Moment

/-- An interval that goes from one of these edges to an instant. -/
def Spans (early : List Moment) (stop : Nat) (interval : Int) : Prop :=
  ∃ start ∈ early, interval = (stop : Int) - start.edge.time

variable {limits : Limits} {early : List Moment} {moment : Moment} {broken : TimingParam × Int}

theorem mem_of_last? {line : Line} {last : Transition} (known : last? line early = some last) :
    ∃ start ∈ early, start.edge = last := by
  have mem := (List.mem_filter.mp (List.mem_of_getLast? known)).1
  obtain ⟨start, mem, same⟩ := List.mem_map.mp mem
  exact ⟨start, mem, same⟩

theorem spans_of_mem_check {param : TimingParam} {start : Moment} {stop : Nat}
    (known : start ∈ early)
    (mem : broken ∈ param.check limits ((stop : Int) - start.edge.time)) :
    Spans early stop broken.2 :=
  ⟨start, known, TimingParam.interval_of_mem_check mem⟩

theorem spans_of_mem_since {param : TimingParam} {line : Line} {stop : Nat}
    (mem : broken ∈ param.since limits ((last? line early).map Transition.time) stop) :
    Spans early stop broken.2 := by
  cases last : last? line early with
  | none =>
    rw [last] at mem
    cases mem
  | some edge =>
    obtain ⟨start, known, rfl⟩ := mem_of_last? last
    rw [last] at mem
    exact spans_of_mem_check known mem

theorem spans_of_mem_timings (mem : broken ∈ moment.edge.timings limits (early.map edge)) :
    Spans early moment.edge.time broken.2 := by
  unfold Transition.timings at mem
  cases last : Transition.last? .clock (early.map edge) with
  | none =>
    rw [last] at mem
    cases mem
  | some last' =>
    obtain ⟨start, known, rfl⟩ := mem_of_last? last
    rw [last] at mem
    dsimp only at mem
    split at mem
    · exact spans_of_mem_check known mem
    · unfold Transition.validTimings at mem
      split at mem
      · cases mem
      · exact spans_of_mem_check known mem

theorem spans_of_mem_stepTimings (mem : broken ∈ moment.stepTimings limits early) :
    Spans early moment.edge.time broken.2 := by
  unfold stepTimings at mem
  rcases List.mem_append.mp mem with mem | mem
  · rcases List.mem_append.mp mem with mem | mem
    · unfold holdTimings at mem
      split at mem
      · cases mem
      case h_2 start last =>
        split at mem
        · exact spans_of_mem_check (List.mem_of_getLast? last) mem
        · cases mem
    · unfold bitTimings at mem
      split at mem
      · exact spans_of_mem_since mem
      · cases mem
  · obtain ⟨event, -, mem⟩ := List.mem_flatMap.mp mem
    unfold conditionTimings at mem
    split at mem
    · exact (List.mem_append.mp mem).elim spans_of_mem_since spans_of_mem_since
    · exact (List.mem_append.mp mem).elim spans_of_mem_since spans_of_mem_since
    · exact spans_of_mem_since mem
    · cases mem

end Moment

namespace Checker

variable {β : Type} [LineBus β] {checker : Checker β} {config : Config} {bus : β}
  {moments early late : List Moment} {moment : Moment}

theorem timings_of_no_class (plain : LineBus.Plain β) (forward : LineBus.Forward β)
    (made : ofConfig config bus = .ok checker) (class_ : config.speedClass? = none)
    (measurable : checker.run.2.now < Time.half) (recounts : checker.Recounts moments)
    (split : moments = early ++ moment :: late) : moment.timings = [] := by
  obtain ⟨ready, n, before, idle, run, -, seen⟩ := turn_of_recounts recounts split
  obtain ⟨_, shown, same⟩ := Option.map_eq_some_iff.mp seen
  obtain ⟨change, committed, commits, rfl⟩ := commits_of_edge? shown
  have past := (ordered_edges forward run).2
  have dated := dated_of_commits commits (recalls_turns made idle run) past
    (Nat.lt_of_le_of_lt (now_of_run forward idle run) measurable)
  have told := (reported_of_plain plain (lasts_turns idle run) commits dated).1
  rw [← same]
  unfold Moment.timings
  dsimp only
  rw [told]
  exact Protocol.timings_answer_of_no_class ((speed_turns made idle run).trans class_)

/-- Every interval that is complained about is the time between two edges, the later of which is the
one that the complaint comes of. -/
theorem spans_of_recounts (plain : LineBus.Plain β) (forward : LineBus.Forward β)
    (made : ofConfig config bus = .ok checker) (measurable : checker.run.2.now < Time.half)
    (recounts : checker.Recounts moments) (split : moments = early ++ moment :: late)
    {broken : TimingParam × Int} (mem : broken ∈ moment.timings) :
    ∃ start ∈ early, start.edge.time ≤ moment.edge.time ∧
      broken.2 = (moment.edge.time : Int) - start.edge.time := by
  have spans : Moment.Spans early moment.edge.time broken.2 := by
    cases class_ : config.speedClass? with
    | none =>
      rw [timings_of_no_class plain forward made class_ measurable recounts split] at mem
      cases mem
    | some speed =>
      rw [whole_of_recounts plain forward made class_ measurable recounts split] at mem
      rcases List.mem_append.mp mem with mem | mem
      · exact Moment.spans_of_mem_timings mem
      · exact Moment.spans_of_mem_stepTimings mem
  obtain ⟨start, known, interval⟩ := spans
  have ordered := ordered_of_recounts forward recounts
  rw [split, List.map_append, List.map_cons, List.pairwise_append] at ordered
  exact ⟨start, known,
    ordered.2.2 _ (List.mem_map_of_mem known) _ List.mem_cons_self, interval⟩

end Checker
end TwoWire
