import TwoWire.Proofs.Rerun
import TwoWire.Proofs.Spans
import TwoWire.Proofs.Wording

/-! Records told apart by their texts. A phase complains of its own intervals, so violations that
runs make and that share a text differ in the numbers of a speed at most (`text_faithful`). -/

namespace TwoWire

/-- A phase complains of the intervals judged as it is entered, and any phase of those judged by an
edge itself. -/
def Phase.MayTell (phase : Phase) (finding : Finding) : Prop :=
  ∀ param interval, finding.timing? = some (param, interval) →
    param ∈ phase.params ∨ param ∈ [.clockLow, .clockHigh, .dataValid]

theorem Phase.eq_of_setup_mem : ∀ phase ∈ all,
    (.startSetup ∈ phase.params → phase = .starting) ∧
      (.repeatedStartSetup ∈ phase.params → phase = .repeatStart) := by
  decide

theorem Note.mem_timings {notes : List Note} {finding : Finding} {broken : TimingParam × Int}
    (mem : .found finding ∈ notes) (times : finding.timing? = some broken) :
    broken ∈ timings notes :=
  List.mem_filterMap.mpr ⟨finding, mem_findings.mpr mem, times⟩

namespace Checker

variable {β : Type} [LineBus β] {tells : Phase → Finding → Prop}

theorem allows_mayTell : Allows Phase.MayTell where
  enter protocol view phase _ mem _ _ times :=
    .inl (protocol.judges_enter view phase _ (Note.mem_timings mem times)).1
  edge protocol view edge _ _ mem _ _ times :=
    .inr (protocol.judges_edgeNotes view edge _ (Note.mem_timings mem times)).1
  both edge _ _ mem _ _ times := by
    have timed := Note.mem_timings mem times
    rw [Protocol.timings_simultaneousNotes] at timed
    cases timed

section

variable (allows : Allows tells)
include allows

theorem adds_turned (before : Checker β) :
    Journal.Adds (fun record => tells record.phase record.finding) before.probe.journal
      before.turned.probe.journal := by
  rcases before.commits_or_silent with ⟨change, committed, commits⟩ | ⟨silent, -⟩
  · have start : Journal.Adds (fun record => tells record.phase record.finding)
        before.probe.journal committed.journal := by
      rw [commits.after]
      exact Journal.adds_of_silent (Journal.silent_cons rfl rfl _)
    have react := (writes_react allows ({ before with probe := committed } : Checker β) change).adds
    rw [turned_of_commits commits]
    exact start.trans (react.mono fun _ both => both.2)
  · exact Journal.adds_of_silent silent

theorem adds_run (checker : Checker β) :
    Journal.Adds (fun record => tells record.phase record.finding) checker.probe.journal
      checker.run.2.probe.journal := by
  have silent := checker.silent_startUp
  have noted (last : Checker β) (error : BusError) :
      Journal.Adds (fun record => tells record.phase record.finding) last.probe.journal
        (last.note (.ended error last.now)).probe.journal :=
    Journal.adds_of_silent (Journal.silent_cons rfl rfl _)
  cases idle : checker.startUp with
  | fail error stopped =>
    rw [idle] at silent
    unfold run
    rw [idle]
    exact (Journal.adds_of_silent silent).trans (noted stopped error)
  | ok _ ready =>
    rw [idle] at silent
    obtain ⟨n, last, run, ended⟩ := exists_turns ready
    have turns := turns_induct
      (motive := fun checker => Journal.Adds (fun record => tells record.phase record.finding)
        ready.probe.journal checker.probe.journal)
      (.refl _) (fun turned adds => adds.trans (turned_of_turn turned ▸ adds_turned allows _)) run
    rw [run_of_startUp idle, ← turned_of_ended ended]
    exact (((Journal.adds_of_silent silent).trans turns).trans (adds_turned allows last)).trans
      (noted _ _)

theorem tells_of_made {checker : Checker β} (made : Made checker) :
    ∀ record ∈ Journal.pushed checker.probe.journal, tells record.phase record.finding := by
  induction made with
  | fresh made =>
    rw [new_of_ofConfig made]
    exact nofun
  | @again checker _ ih =>
    obtain ⟨entries, same, tells⟩ := adds_run allows checker
    intro record mem
    unfold Journal.pushed at mem
    rw [same, List.filterMap_append] at mem
    exact (List.mem_append.mp mem).elim (tells record) (ih record)

end

theorem phase_of_setup {checker : Checker β} (made : Made checker) {record : Record}
    (mem : record ∈ Journal.pushed checker.probe.journal) (interval : Int) :
    (record.finding = .violation (.timing .startSetup interval) → record.phase = .starting) ∧
    (record.finding = .violation (.timing .repeatedStartSetup interval) →
      record.phase = .repeatStart) := by
  have may := tells_of_made allows_mayTell made record mem
  obtain ⟨start, again⟩ := Phase.eq_of_setup_mem _ record.phase.mem_all
  refine ⟨fun told => start ?_, fun told => again ?_⟩
  · exact (may .startSetup interval (by rw [told]; rfl)).resolve_right (by decide)
  · exact (may .repeatedStartSetup interval (by rw [told]; rfl)).resolve_right (by decide)

end Checker

namespace Record

variable {β γ : Type} [LineBus β] [LineBus γ] {checker : Checker β} {other : Checker γ}

/-- Texts tell events apart, and they tell violations apart by time, phase and what is told of them.
No event is told as a violation. Of the violations that are told alike, a run makes those of a start
and of a repeated start in phases of their own; so where runs tell of violations in the same text,
only the numbers of a speed may differ. -/
theorem text_faithful (made : checker.Made) (made' : other.Made) :
    (∀ event event' : Event, event.text = event'.text → event = event') ∧
    (∀ time time' phase phase' violation violation',
      text ⟨time, phase, .violation violation⟩ = text ⟨time', phase', .violation violation'⟩ ↔
        time = time' ∧ phase = phase' ∧ violation.Alike violation') ∧
    (∀ time time' phase phase' event violation,
      text ⟨time, phase, .event event⟩ ≠ text ⟨time', phase', .violation violation⟩) ∧
    (∀ record ∈ Journal.pushed checker.probe.journal, ∀ interval,
      (record.finding = .violation (.timing .startSetup interval) → record.phase = .starting) ∧
      (record.finding = .violation (.timing .repeatedStartSetup interval) →
        record.phase = .repeatStart)) ∧
    ∀ record ∈ Journal.pushed checker.probe.journal,
      ∀ record' ∈ Journal.pushed other.probe.journal, ∀ violation violation',
        record.finding = .violation violation → record'.finding = .violation violation' →
        record.text = record'.text →
        record.time = record'.time ∧ record.phase = record'.phase ∧
          (violation = violation' ∨ ∃ verdict measured expected measured' expected',
            violation = .speed verdict measured expected ∧
              violation' = .speed verdict measured' expected') := by
  refine ⟨fun _ _ same => Event.text_injective same, fun _ _ _ _ _ _ => text_violation_eq_iff,
    fun _ _ _ _ event _ same => ?_, fun record mem => Checker.phase_of_setup made mem, ?_⟩
  · rw [text_violation] at same
    exact event.text_ne_error _ same
  · rintro ⟨time, phase, -⟩ mem ⟨time', phase', -⟩ mem' violation violation' rfl rfl same
    obtain ⟨times, phases, alike⟩ := text_violation_eq_iff.mp same
    refine ⟨times, phases, ?_⟩
    cases alike with
    | same => exact .inl rfl
    | repeated interval =>
      have start := (Checker.phase_of_setup made mem interval).1 rfl
      have again := (Checker.phase_of_setup made' mem' interval).2 rfl
      cases start.symm.trans (phases.trans again)
    | first interval =>
      have again := (Checker.phase_of_setup made mem interval).2 rfl
      have start := (Checker.phase_of_setup made' mem' interval).1 rfl
      cases again.symm.trans (phases.trans start)
    | speed verdict measured expected measured' expected' =>
      exact .inr ⟨verdict, measured, expected, measured', expected', rfl, rfl⟩

/-- A byte at a hundred kilobits where fifty were expected, and where sixty were. The two complaints
differ, and nobody can tell from their texts. -/
theorem text_faithful_of_fast_byte :
    let bus := (Replay.ofTrace 0 1 (⟨20000, 1, some false⟩ :: (List.range 9).flatMap fun pulse =>
      [⟨30000 + 10000 * pulse, 0, some false⟩, ⟨35000 + 10000 * pulse, 0, none⟩])).withCycle 20
    let record (expected : Nat) : Record :=
      ⟨105000, .sampleBit, .violation (.speed .tooFast 100 expected)⟩
    ∃ checker other : Checker Replay,
      Checker.ofConfig { clock := 0, data := 1, expectedSpeed := some 50 } bus = .ok checker ∧
      Checker.ofConfig { clock := 0, data := 1, expectedSpeed := some 60 } bus = .ok other ∧
      record 50 ∈ Journal.pushed checker.run.2.probe.journal ∧
      record 60 ∈ Journal.pushed other.run.2.probe.journal ∧
      record 50 ≠ record 60 ∧ (record 50).text = (record 60).text ∧
      ∀ told ∈ Journal.pushed other.run.2.probe.journal, ∀ violation,
        told.finding = .violation violation → (record 50).text = told.text →
        told.time = 105000 ∧ ∃ measured expected, violation = .speed .tooFast measured expected := by
  intro bus record
  have seen : ((Checker.ofConfig { clock := 0, data := 1, expectedSpeed := some 50 }
      bus).toOption.bind fun checker => (checker.end? 100).map fun stop =>
        decide (record 50 ∈ Journal.pushed stop.2.probe.journal)) = some true := by decide +kernel
  have seen' : ((Checker.ofConfig { clock := 0, data := 1, expectedSpeed := some 60 }
      bus).toOption.bind fun checker => (checker.end? 100).map fun stop =>
        decide (record 60 ∈ Journal.pushed stop.2.probe.journal)) = some true := by decide +kernel
  obtain ⟨checker, made, told⟩ := Checker.exists_run seen
  obtain ⟨other, made', told'⟩ := Checker.exists_run seen'
  have told := of_decide_eq_true told
  obtain ⟨-, alike, -, -, tell⟩ := text_faithful (.again (.fresh made)) (.again (.fresh made'))
  refine ⟨checker, other, made, made', told, of_decide_eq_true told', by decide,
    (alike ..).mpr ⟨rfl, rfl, .speed ..⟩, fun record' mem violation finding same => ?_⟩
  obtain ⟨time, -, differ⟩ := tell _ told record' mem _ violation rfl finding same
  refine ⟨time.symm, ?_⟩
  rcases differ with rfl | ⟨verdict, measured, expected, measured', expected', is, rfl⟩
  · exact ⟨100, 50, rfl⟩
  · cases is
    exact ⟨measured', expected', rfl⟩

end Record
end TwoWire
