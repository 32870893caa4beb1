import TwoWire.Proofs.Moments

/-! When records are made: those of a turn at the time of the edge that it answers, and no others.
So the records of a run carry the times of its edges (`stamps_of_recounts`). -/

namespace TwoWire

def Record.stamp (record : Record) : Nat × Finding := (record.time, record.finding)

namespace Journal

def stamps (journal : Journal) : List (Nat × Finding) := (pushed journal).reverse.map Record.stamp

theorem stamps_of_silent {before after : Journal} (silent : Silent before after) :
    stamps after = stamps before := by
  obtain ⟨entries, rfl, silent⟩ := silent
  have nothing : entries.filterMap Entry.record? = [] :=
    List.filterMap_eq_nil_iff.mpr fun entry mem => (silent entry mem).1
  simp [stamps, pushed, nothing]

def Adds (kind : Record → Prop) (before after : Journal) : Prop :=
  ∃ entries, after = entries ++ before ∧ ∀ record ∈ pushed entries, kind record

def Stamped (time : Nat) (before after : Journal) : Prop :=
  ∃ entries, after = entries ++ before ∧ ∀ record ∈ pushed entries, record.time = time

variable {kind other : Record → Prop} {time : Nat} {before after : Journal}

theorem Adds.refl (journal : Journal) : Adds kind journal journal := ⟨[], rfl, nofun⟩

theorem Adds.trans {a b c : Journal} (first : Adds kind a b) (second : Adds kind b c) :
    Adds kind a c := by
  obtain ⟨early, rfl, same⟩ := first
  obtain ⟨late, rfl, same'⟩ := second
  refine ⟨late ++ early, (List.append_assoc ..).symm, fun record mem => ?_⟩
  unfold pushed at mem
  rw [List.filterMap_append] at mem
  rcases List.mem_append.mp mem with mem | mem
  · exact same' record mem
  · exact same record mem

theorem Adds.mono (adds : Adds kind before after) (all : ∀ record, kind record → other record) :
    Adds other before after := by
  obtain ⟨entries, same, every⟩ := adds
  exact ⟨entries, same, fun record mem => all record (every record mem)⟩

theorem adds_of_silent (silent : Silent before after) : Adds kind before after := by
  obtain ⟨entries, same, silent⟩ := silent
  refine ⟨entries, same, fun record mem => ?_⟩
  obtain ⟨entry, mem, recorded⟩ := List.mem_filterMap.mp mem
  rw [(silent entry mem).1] at recorded
  cases recorded

theorem adds_record {record : Record} (is : kind record) (journal : Journal) :
    Adds kind journal (.recorded record :: journal) := by
  refine ⟨[.recorded record], rfl, fun other mem => ?_⟩
  rw [List.mem_singleton.mp (show other ∈ [record] from mem)]
  exact is

theorem adds_entered (source target : Phase) (instant : Nat) (journal : Journal) :
    Adds kind journal (.entered source target instant :: journal) :=
  ⟨[.entered source target instant], rfl, nofun⟩

theorem stamps_of_stamped {told : List Finding} (stamped : Stamped time before after)
    (findings_eq : findings after = findings before ++ told) :
    stamps after = stamps before ++ told.map (time, ·) := by
  obtain ⟨entries, rfl, same⟩ := stamped
  have pushes : (pushed (entries ++ before)).reverse =
      (pushed before).reverse ++ (pushed entries).reverse := by
    unfold pushed
    rw [List.filterMap_append, List.reverse_append]
  unfold findings at findings_eq
  rw [pushes, List.map_append, List.append_cancel_left_eq] at findings_eq
  unfold stamps
  rw [pushes, List.map_append, ← findings_eq, List.map_map]
  congr 1
  refine List.map_congr_left fun record mem => ?_
  exact Prod.ext (same record (List.mem_reverse.mp mem)) rfl

end Journal

def Moment.stamps (moment : Moment) : List (Nat × Finding) :=
  moment.told.map (moment.edge.time, ·)

theorem Moment.sorted_stamps {moments : List Moment}
    (ordered : (moments.map edge).Pairwise (·.time ≤ ·.time)) :
    (moments.flatMap stamps).Pairwise (·.1 ≤ ·.1) := by
  rw [List.pairwise_map] at ordered
  rw [List.pairwise_flatMap]
  have time_of_mem {moment : Moment} {stamp : Nat × Finding} (mem : stamp ∈ moment.stamps) :
      stamp.1 = moment.edge.time := by
    obtain ⟨finding, -, rfl⟩ := List.mem_map.mp mem
    rfl
  refine ⟨fun moment _ => ?_, ordered.imp fun {early late} earlier stamp mem stamp' mem' => ?_⟩
  · exact List.pairwise_map.mpr (List.pairwise_of_forall fun _ _ => Nat.le_refl _)
  · rw [time_of_mem mem, time_of_mem mem']
    exact earlier

namespace Checker

variable {β : Type}

/-- Still at `time`, with all that has been recorded since recorded at that time and told in a phase
that may tell it. -/
structure Writes (tells : Phase → Finding → Prop) (time : Nat) [LineBus β]
    (first after : Checker β) : Prop where
  now : after.now = time
  adds : Journal.Adds (fun record => record.time = time ∧ tells record.phase record.finding)
    first.probe.journal after.probe.journal

structure Dates (time : Nat) [LineBus β] (first after : Checker β) : Prop where
  now : after.now = time
  stamped : Journal.Stamped time first.probe.journal after.probe.journal

/-- A phase may tell what is found as it is entered, and any phase what an edge itself shows. -/
structure Allows (tells : Phase → Finding → Prop) : Prop where
  enter (protocol : Protocol) (view : View) (phase : Phase) (finding : Finding) :
    .found finding ∈ (protocol.enter view phase).notes → tells phase finding
  edge (protocol : Protocol) (view : View) (edge : Edge) (phase : Phase) (finding : Finding) :
    .found finding ∈ protocol.edgeNotes view edge → tells phase finding
  both (edge : Edge) (phase : Phase) (finding : Finding) :
    .found finding ∈ simultaneousNotes edge → tells phase finding

variable [LineBus β] {tells : Phase → Finding → Prop} {time : Nat} {first : Checker β}

theorem Writes.refl (checker : Checker β) : Writes tells checker.now checker checker :=
  ⟨rfl, .refl _⟩

theorem Writes.trans {a b c : Checker β} (early : Writes tells time a b)
    (late : Writes tells b.now b c) : Writes tells time a c := by
  obtain ⟨rfl, adds⟩ := early
  exact ⟨late.now, adds.trans late.adds⟩

theorem Writes.of_silent {after : Checker β} (now : after.now = first.now)
    (silent : first.probe.Silent after.probe) : Writes tells first.now first after :=
  ⟨now, Journal.adds_of_silent silent⟩

theorem writes_andThen {outcome : Outcome (Checker β) α}
    {next : α → Checker β → Outcome (Checker β) γ} (start : Writes tells time first outcome.state)
    (further : ∀ value middle, Writes tells middle.now middle (next value middle).state) :
    Writes tells time first (outcome.andThen next).state :=
  Outcome.state_andThen (motive := Writes tells time first) start
    fun value middle early => early.trans (further value middle)

theorem writes_report (checker : Checker β) {notes : List Note}
    (may : ∀ finding, .found finding ∈ notes → tells checker.protocol.phase finding) :
    Writes tells checker.now checker (checker.report notes).state := by
  induction notes generalizing checker with
  | nil => exact .refl checker
  | cons note rest ih =>
    cases note with
    | overflow => exact .refl checker
    | found finding =>
      have first : Writes tells checker.now checker
          (checker.note (.recorded ⟨checker.now, checker.protocol.phase, finding⟩)) :=
        ⟨rfl, Journal.adds_record ⟨rfl, may finding List.mem_cons_self⟩ _⟩
      exact first.trans (ih _ fun finding mem => may finding (List.mem_cons_of_mem _ mem))

section

variable (allows : Allows tells)
include allows

theorem writes_enter (checker : Checker β) (sight : Sight) (phase : Phase) :
    Writes tells checker.now checker (checker.enter sight phase).state := by
  unfold enter
  dsimp only
  have may := allows.enter checker.protocol (checker.view sight) phase
  have entered := checker.protocol.phase_enter (checker.view sight) phase
  generalize checker.protocol.enter (checker.view sight) phase = arrival at may entered ⊢
  have noted : Writes tells checker.now checker
      { checker.note (.entered checker.protocol.phase phase checker.now) with
        protocol := arrival.protocol } :=
    ⟨rfl, Journal.adds_entered _ _ _ _⟩
  refine writes_andThen (noted.trans (writes_report _ fun finding mem => ?_)) fun _ told => ?_
  · exact entered.symm ▸ may finding mem
  · exact writes_andThen (.of_silent (told.now_driveData _) (told.silent_driveData _))
      fun _ driven => .refl driven

theorem writes_follow (checker : Checker β) (sight : Sight) (phase : Phase) :
    Writes tells checker.now checker (checker.follow sight phase).state := by
  refine writes_andThen (writes_enter allows checker sight phase) fun forced? middle => ?_
  cases forced? with
  | none => exact .refl middle
  | some forced =>
    exact writes_andThen (writes_enter allows middle sight forced) fun _ last => .refl last

theorem writes_react (checker : Checker β) (change : Change) :
    Writes tells checker.now checker (checker.react change).state := by
  refine writes_andThen (checker.writes_report (allows.edge _ _ _ _)) fun _ judged => ?_
  refine writes_andThen (.of_silent (judged.now_clockEdge change) (judged.silent_clockEdge change))
    fun _ clocked => ?_
  exact writes_andThen (clocked.writes_report (allows.both _ _)) fun _ told =>
    writes_follow allows told _ _

end

theorem Dates.trans {a b c : Checker β} (early : Dates time a b) (late : Dates b.now b c) :
    Dates time a c := by
  obtain ⟨rfl, stamped⟩ := early
  have both : Journal.Adds (·.time = b.now) _ _ := Journal.Adds.trans stamped late.stamped
  exact ⟨late.now, both⟩

theorem dates_react (checker : Checker β) (change : Change) :
    Dates checker.now checker (checker.react change).state := by
  have anything : Allows fun _ _ => True :=
    ⟨fun _ _ _ _ _ => trivial, fun _ _ _ _ _ _ => trivial, fun _ _ _ _ => trivial⟩
  obtain ⟨now, adds⟩ := writes_react anything checker change
  exact ⟨now, adds.mono fun _ both => both.1⟩

def stamps (checker : Checker β) : List (Nat × Finding) := checker.probe.journal.stamps

variable {checker ready before : Checker β} {n : Nat}

theorem stamps_turned (before : Checker β) :
    before.turned.stamps = before.stamps ++ before.moment?.toList.flatMap Moment.stamps := by
  by_cases seen : ∃ change committed, before.probe.Commits change committed
  · obtain ⟨change, committed, commits⟩ := seen
    have dates : Dates before.now before ({ before with probe := committed } : Checker β) := by
      rw [commits.after]
      exact ⟨rfl, Journal.adds_of_silent (Journal.silent_cons rfl rfl _)⟩
    have dates := dates.trans (dates_react _ change)
    rw [← turned_of_commits commits] at dates
    have shown : before.moment? = some _ := congrArg (Option.map _) (edge?_of_commits commits)
    rw [shown, Option.toList_some, List.flatMap_singleton]
    refine (Journal.stamps_of_stamped dates.stamped before.findings_turned).trans ?_
    unfold Moment.stamps
    rw [show change.time = before.now from Probe.now_of_look commits.look]
    rfl
  · obtain ⟨silent, -⟩ := before.commits_or_silent.resolve_left seen
    have unseen : before.moment? = none := congrArg (Option.map _) (edge?_eq_none seen)
    rw [unseen]
    exact (Journal.stamps_of_silent silent).trans (List.append_nil _).symm

theorem stamps_of_moments (run : ready.turns n = .ok before) :
    before.turned.stamps = ready.stamps ++ (ready.moments (n + 1)).flatMap Moment.stamps := by
  induction n generalizing before with
  | zero =>
    rw [moments_succ run]
    cases run
    exact ready.stamps_turned
  | succ n ih =>
    obtain ⟨early, first, turned⟩ := exists_of_turns_succ run
    have told := ih first
    rw [turned_of_turn turned] at told
    rw [moments_succ run, List.flatMap_append, ← List.append_assoc, ← told]
    exact before.stamps_turned

variable {moments : List Moment} {config : Config} {bus : β}

theorem stamps_of_recounts (made : ofConfig config bus = .ok checker)
    (recounts : checker.Recounts moments) :
    checker.run.2.stamps = moments.flatMap Moment.stamps := by
  have fresh : checker.stamps = [] := by
    unfold stamps
    rw [new_of_ofConfig made]
    rfl
  have silent := checker.silent_startUp
  have noted (last : Checker β) (error : BusError) :
      (last.note (.ended error last.now)).stamps = last.stamps :=
    Journal.stamps_of_silent (Journal.silent_cons rfl rfl _)
  cases recounts with
  | restless idle =>
    rw [idle] at silent
    unfold run
    rw [idle]
    exact (noted _ _).trans ((Journal.stamps_of_silent silent).trans fresh)
  | @watched ready last stopped n error idle run ended =>
    rw [idle] at silent
    have start : ready.stamps = checker.stamps := Journal.stamps_of_silent silent
    have watched := (watched_of_ended run ended).2
    rw [run_of_startUp idle]
    refine (noted _ _).trans ?_
    rw [watched, stamps_of_moments run, start, fresh, List.nil_append]

theorem ordered_of_recounts (forward : LineBus.Forward β) (recounts : checker.Recounts moments) :
    (moments.map Moment.edge).Pairwise (·.time ≤ ·.time) := by
  cases recounts with
  | restless => exact .nil
  | @watched ready last stopped n error idle run ended =>
    obtain ⟨ordered, past⟩ := ordered_edges forward run
    change (ready.edges (n + 1)).Pairwise _
    rw [edges_succ run, List.pairwise_append]
    have now (edge : Transition) (mem : edge ∈ last.edge?.toList) : edge.time = last.now :=
      time_of_edge? (Option.mem_toList.mp mem)
    refine ⟨ordered, ?_, fun edge mem new fresh => (now new fresh) ▸ past edge mem⟩
    cases last.edge? with
    | none => exact .nil
    | some edge => exact List.pairwise_singleton _ _

end Checker
end TwoWire
