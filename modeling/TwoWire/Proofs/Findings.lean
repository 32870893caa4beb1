import TwoWire.Checker.Run

/-! What a run has reported and which phases it has entered, oldest first. Reporting stops at the
first interval that cannot be measured. -/

namespace TwoWire

def Entry.target? : Entry → Option Phase
  | entered _ target _ => some target
  | _ => none

namespace Journal

/-- Oldest first. -/
def findings (journal : Journal) : List Finding := (pushed journal).reverse.map Record.finding

def phases (journal : Journal) : List Phase := (journal.filterMap Entry.target?).reverse

theorem findings_cons_recorded (record : Record) (journal : Journal) :
    findings (.recorded record :: journal) = findings journal ++ [record.finding] := by
  simp [findings, pushed, Entry.record?]

theorem findings_cons_of_none {entry : Entry} (h : entry.record? = none) (journal : Journal) :
    findings (entry :: journal) = findings journal := by
  simp [findings, pushed, h]

theorem phases_cons_entered (source target : Phase) (time : Nat) (journal : Journal) :
    phases (.entered source target time :: journal) = phases journal ++ [target] := by
  simp [phases, Entry.target?]

/-- What has been written down is neither a record nor the entry into a phase. -/
def Silent (before after : Journal) : Prop :=
  ∃ entries, after = entries ++ before ∧
    ∀ entry ∈ entries, entry.record? = none ∧ entry.target? = none

theorem silent_cons {entry : Entry} (record : entry.record? = none) (target : entry.target? = none)
    (journal : Journal) : Silent journal (entry :: journal) :=
  ⟨[entry], rfl, by simp [record, target]⟩

variable {before after : Journal}

theorem findings_of_silent (h : Silent before after) : findings after = findings before := by
  obtain ⟨entries, rfl, silent⟩ := h
  have nothing : entries.filterMap Entry.record? = [] :=
    List.filterMap_eq_nil_iff.mpr fun entry mem => (silent entry mem).1
  simp [findings, pushed, nothing]

theorem phases_of_silent (h : Silent before after) : phases after = phases before := by
  obtain ⟨entries, rfl, silent⟩ := h
  have nothing : entries.filterMap Entry.target? = [] :=
    List.filterMap_eq_nil_iff.mpr fun entry mem => (silent entry mem).2
  simp [phases, nothing]

end Journal

namespace Note

def finding? : Note → Option Finding
  | found finding => some finding
  | overflow _ => none

def findings (notes : List Note) : List Finding := notes.filterMap finding?

/-- The findings up to the first interval that cannot be measured. -/
def told : List Note → List Finding
  | [] => []
  | found finding :: rest => finding :: told rest
  | overflow _ :: _ => []

def Sound (notes : List Note) : Prop := ∀ note ∈ notes, ∃ finding, note = found finding

@[simp] theorem findings_nil : findings [] = [] := rfl

@[simp] theorem findings_append (first second : List Note) :
    findings (first ++ second) = findings first ++ findings second :=
  List.filterMap_append

@[simp] theorem findings_found (finding : Finding) (notes : List Note) :
    findings (found finding :: notes) = finding :: findings notes := rfl

theorem sound_nil : Sound [] := fun _ h => nomatch h

theorem sound_append {first second : List Note} (left : Sound first) (right : Sound second) :
    Sound (first ++ second) := by
  intro note h
  rcases List.mem_append.mp h with h | h
  · exact left note h
  · exact right note h

theorem sound_of_append {first second : List Note} (h : Sound (first ++ second)) :
    Sound first ∧ Sound second :=
  ⟨fun note mem => h note (List.mem_append_left _ mem),
    fun note mem => h note (List.mem_append_right _ mem)⟩

theorem sound_cons {finding : Finding} {notes : List Note} (rest : Sound notes) :
    Sound (found finding :: notes) := by
  intro note h
  rcases List.mem_cons.mp h with rfl | h
  · exact ⟨finding, rfl⟩
  · exact rest note h

theorem sound_map_violation (violations : List Violation) :
    Sound (violations.map violation) := by
  intro note h
  obtain ⟨broken, -, rfl⟩ := List.mem_map.mp h
  exact ⟨.violation broken, rfl⟩

theorem told_of_sound {notes : List Note} (sound : Sound notes) : told notes = findings notes := by
  induction notes with
  | nil => rfl
  | cons note rest ih =>
    obtain ⟨finding, rfl⟩ := sound note List.mem_cons_self
    exact congrArg (finding :: ·) (ih fun other mem => sound other (List.mem_cons_of_mem _ mem))

theorem told_append_of_sound {first : List Note} (sound : Sound first) (second : List Note) :
    told (first ++ second) = findings first ++ told second := by
  induction first with
  | nil => rfl
  | cons note rest ih =>
    obtain ⟨finding, rfl⟩ := sound note List.mem_cons_self
    exact congrArg (finding :: ·) (ih fun other mem => sound other (List.mem_cons_of_mem _ mem))

theorem told_append_of_not_sound {first : List Note} (h : ¬Sound first) (second : List Note) :
    told (first ++ second) = told first := by
  induction first with
  | nil => exact absurd sound_nil h
  | cons note rest ih =>
    cases note with
    | overflow kind => rfl
    | found finding => exact congrArg (finding :: ·) (ih fun sound => h (sound_cons sound))

theorem mem_of_mem_told {notes : List Note} {finding : Finding} (h : finding ∈ told notes) :
    found finding ∈ notes := by
  induction notes with
  | nil => cases h
  | cons note rest ih =>
    cases note with
    | overflow kind => cases h
    | found first =>
      rcases List.mem_cons.mp h with rfl | h
      · exact List.mem_cons_self
      · exact List.mem_cons_of_mem _ (ih h)

end Note

namespace Probe

variable {β : Type}

def findings (probe : Probe β) : List Finding := probe.journal.findings

def Silent (before after : Probe β) : Prop := Journal.Silent before.journal after.journal

theorem Silent.refl (probe : Probe β) : Silent probe probe := ⟨[], rfl, nofun⟩

theorem Silent.trans {a b c : Probe β} (first : Silent a b) (second : Silent b c) : Silent a c := by
  obtain ⟨early, before, silent⟩ := first
  obtain ⟨late, after, silent'⟩ := second
  refine ⟨late ++ early, by rw [after, before, List.append_assoc], ?_⟩
  intro entry mem
  rcases List.mem_append.mp mem with mem | mem
  · exact silent' entry mem
  · exact silent entry mem

theorem Silent.findings {before after : Probe β} (h : Silent before after) :
    after.findings = before.findings :=
  Journal.findings_of_silent h

theorem silent_andThen {probe : Probe β} {outcome : Outcome (Probe β) α}
    {next : α → Probe β → Outcome (Probe β) γ} (first : Silent probe outcome.state)
    (second : ∀ value middle, Silent middle (next value middle).state) :
    Silent probe (outcome.andThen next).state := by
  cases outcome with
  | fail error middle => exact first
  | ok value middle => exact first.trans (second value middle)

variable [LineBus β]

theorem silent_called (probe : Probe β) (entry : Entry) (record : entry.record? = none)
    (target : entry.target? = none) (bus : β) : Silent probe (probe.called entry bus) := by
  refine Silent.trans (b := probe.note entry) (Journal.silent_cons record target _) ?_
  refine ⟨_, rfl, ?_⟩
  intro moved mem
  obtain ⟨transition, -, rfl⟩ := List.mem_map.mp (List.mem_reverse.mp mem)
  exact ⟨rfl, rfl⟩

theorem silent_wait (probe : Probe β) (kind : WaitKind) :
    Silent probe (probe.wait kind).state := by
  unfold wait
  rw [Outcome.state_mapState]
  exact silent_called probe (.waited kind) rfl rfl _

theorem silent_drive (probe : Probe β) (line : Line) (level : Bool) :
    Silent probe (probe.drive line level).state := by
  unfold drive
  rw [Outcome.state_mapState]
  exact silent_called { probe with lines := probe.lines.setWeak line level } (.drove line level) rfl
    rfl _

theorem silent_refreshLine (probe : Probe β) (line : Line) :
    Silent probe (probe.refreshLine line).state := by
  unfold refreshLine
  split
  · exact .refl probe
  · exact .refl probe
  · exact silent_drive ..

theorem silent_refresh (probe : Probe β) : Silent probe probe.refresh.state :=
  silent_andThen (probe.silent_refreshLine .clock) fun _ middle => middle.silent_refreshLine .data

theorem silent_releaseWhenDue (probe : Probe β) : Silent probe probe.releaseWhenDue.state := by
  unfold releaseWhenDue
  split
  case isFalse => exact .refl probe
  case isTrue =>
    exact silent_andThen (probe.silent_drive .clock true) fun _ free =>
      Journal.silent_cons rfl rfl free.journal

theorem silent_pause (probe : Probe β) : Silent probe probe.pause.state := by
  unfold pause
  dsimp only
  apply silent_andThen _ fun _ woken => woken.silent_refresh
  split
  case isFalse => exact silent_wait ..
  case isTrue =>
    exact silent_andThen (probe.silent_wait .cycle) fun _ woken => woken.silent_releaseWhenDue

theorem silent_awaitIdle (probe : Probe β) : Silent probe probe.awaitIdle.state := by
  have wake : ∀ probe : Probe β,
      Silent probe ((probe.wait .change).andThen fun _ probe => probe.refresh).state :=
    fun probe => silent_andThen (probe.silent_wait .change) fun _ woken => woken.silent_refresh
  fun_induction awaitIdle probe with
  | case1 => exact .refl _
  | case2 => exact .refl _
  | case3 probe sight look busy error woken waited =>
    have woke := wake probe
    rw [waited] at woke
    exact woke
  | case4 probe sight look busy _ woken waited ih =>
    have woke := wake probe
    rw [waited] at woke
    exact woke.trans ih

theorem silent_settle (probe : Probe β) (time : Nat) : Silent probe (probe.settle time).state :=
  silent_andThen (probe.silent_drive .clock true) fun _ middle =>
    silent_andThen (middle.silent_drive .data true) fun _ free =>
      silent_andThen (free.silent_wait (.instant time)) fun _ late => late.silent_awaitIdle

end Probe

namespace Checker

variable {β : Type}

def findings (checker : Checker β) : List Finding := checker.probe.journal.findings

def phases (checker : Checker β) : List Phase := checker.probe.journal.phases

variable [LineBus β]

theorem told_report (checker : Checker β) (notes : List Note) :
    (checker.report notes).state.findings = checker.findings ++ Note.told notes := by
  induction notes generalizing checker with
  | nil => exact (List.append_nil _).symm
  | cons note rest ih =>
    cases note with
    | overflow => exact (List.append_nil _).symm
    | found finding =>
      have first :
          (checker.note (.recorded ⟨checker.now, checker.protocol.phase, finding⟩)).findings =
            checker.findings ++ [finding] := Journal.findings_cons_recorded ..
      have told := ih (checker.note (.recorded ⟨checker.now, checker.protocol.phase, finding⟩))
      rw [first, List.append_assoc] at told
      exact told

theorem phases_report (checker : Checker β) (notes : List Note) :
    (checker.report notes).state.phases = checker.phases := by
  induction notes generalizing checker with
  | nil => rfl
  | cons note rest ih =>
    cases note with
    | overflow => rfl
    | found finding =>
      exact ih (checker.note (.recorded ⟨checker.now, checker.protocol.phase, finding⟩))

theorem sound_of_report {before after : Checker β} {notes : List Note}
    (h : before.report notes = .ok () after) : Note.Sound notes := by
  induction notes generalizing before with
  | nil => exact Note.sound_nil
  | cons note rest ih =>
    cases note with
    | overflow => cases h
    | found finding =>
      exact Note.sound_cons
        (@ih (before.note (.recorded ⟨before.now, before.protocol.phase, finding⟩)) h)

theorem report_of_sound (checker : Checker β) {notes : List Note} (sound : Note.Sound notes) :
    ∃ after, checker.report notes = .ok () after := by
  induction notes generalizing checker with
  | nil => exact ⟨checker, rfl⟩
  | cons note rest ih =>
    obtain ⟨finding, rfl⟩ := sound note List.mem_cons_self
    exact ih (checker.note (.recorded ⟨checker.now, checker.protocol.phase, finding⟩))
      fun other h => sound other (List.mem_cons_of_mem _ h)

theorem findings_report {before after : Checker β} {notes : List Note}
    (h : before.report notes = .ok () after) :
    after.findings = before.findings ++ Note.findings notes := by
  have told := before.told_report notes
  rw [h, Note.told_of_sound (sound_of_report h)] at told
  exact told

theorem silent_drive (checker : Checker β) (line : Line) (level : Bool) :
    checker.probe.Silent (checker.drive line level).state.probe := by
  unfold drive
  rw [Outcome.state_mapState]
  exact checker.probe.silent_drive line level

theorem silent_driveData (checker : Checker β) (drive? : Option Bool) :
    checker.probe.Silent (checker.driveData drive?).state.probe := by
  cases drive? with
  | none => exact .refl _
  | some level => exact checker.silent_drive .data level

theorem silent_clockEdge (checker : Checker β) (change : Change) :
    checker.probe.Silent (checker.clockEdge change).state.probe := by
  unfold clockEdge
  split
  case isFalse => exact .refl _
  case isTrue =>
    unfold clockFell
    dsimp only
    split
    case isFalse => exact ⟨[], rfl, nofun⟩
    case isTrue =>
      generalize begun : ({ checker with
        protocol := { checker.protocol with meter := checker.protocol.meter.clockFell change.time }
        probe := { checker.probe with stretch := checker.probe.stretch.begin change.time } } :
          Checker β) = held
      have start : checker.probe.Silent held.probe := by
        rw [← begun]
        exact ⟨[], rfl, nofun⟩
      have driven := start.trans (held.silent_drive .clock false)
      cases low : held.drive .clock false with
      | fail error last =>
        rw [low] at driven
        exact driven
      | ok _ last =>
        rw [low] at driven
        exact driven.trans (Journal.silent_cons rfl rfl last.probe.journal)

theorem told_enter (checker : Checker β) (sight : Sight) (phase : Phase) :
    (checker.enter sight phase).state.findings = checker.findings ++
        Note.told (checker.protocol.enter (checker.view sight) phase).notes ∧
      (checker.enter sight phase).state.phases = checker.phases ++ [phase] := by
  unfold enter
  dsimp only
  generalize checker.protocol.enter (checker.view sight) phase = arrival
  generalize noted : ({ checker.note (.entered checker.protocol.phase phase checker.now) with
    protocol := arrival.protocol } : Checker β) = here
  have start : here.findings = checker.findings := by
    rw [← noted]
    exact Journal.findings_cons_of_none rfl _
  have entered : here.phases = checker.phases ++ [phase] := by
    rw [← noted]
    exact Journal.phases_cons_entered ..
  have told := here.told_report arrival.notes
  have phases := here.phases_report arrival.notes
  rw [start] at told
  rw [entered] at phases
  cases reported : here.report arrival.notes with
  | fail error last =>
    rw [reported] at told phases
    exact ⟨told, phases⟩
  | ok _ last =>
    rw [reported] at told phases
    have driven := last.silent_driveData arrival.drive?
    rw [Outcome.andThen_ok]
    cases drove : last.driveData arrival.drive? <;> rw [drove] at driven <;>
      exact ⟨driven.findings.trans told, (Journal.phases_of_silent driven).trans phases⟩

theorem sound_of_enter {before after : Checker β} {sight : Sight} {phase : Phase}
    {forced? : Option Phase} (h : before.enter sight phase = .ok forced? after) :
    Note.Sound (before.protocol.enter (before.view sight) phase).notes := by
  unfold enter at h
  obtain ⟨_, _, reported, -⟩ := Outcome.of_andThen h
  exact sound_of_report reported

theorem findings_enter {before after : Checker β} {sight : Sight} {phase : Phase}
    {forced? : Option Phase} (h : before.enter sight phase = .ok forced? after) :
    after.findings = before.findings ++
      Note.findings (before.protocol.enter (before.view sight) phase).notes := by
  have told := (before.told_enter sight phase).1
  rw [h, Note.told_of_sound (sound_of_enter h)] at told
  exact told

end Checker
end TwoWire
