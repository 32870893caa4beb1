import TwoWire.Proofs.CutShort
import TwoWire.Proofs.Forgets
import TwoWire.Proofs.Stretched

/-! Wait calls that are answered without the bus: the run is the same without those after the first
(`harmless_wakeups`), unless a stretch begins at the last instant there is. -/

namespace TwoWire

/-- The run can do without a wake-up: its lines are driven as it remembers, and no stretch ends. -/
structure Probe.MayDoze {β : Type} [LineBus β] (probe : Probe β) : Prop where
  agrees : probe.Agrees
  keeps : LineBus.KeepsDrives probe.bus
  early : probe.stretch.isDue probe.now = false

namespace Faulty

open Probe (Beside)

variable {β : Type} [LineBus β] {forget : β → β} {first : Probe (Faulty β)} {second : Probe β}

/-- The bus with the wait calls of these numbers answered without it. -/
def dozing (bus : β) (positions : List Nat) : Faulty β :=
  { bus, faults := positions.map fun n => ⟨.wait, n, none⟩ }

/-- Wait calls other than the first are answered without the bus, next to the bus itself. -/
structure Dozes (forget : β → β) (faulty : Faulty β) (journal : Journal) (bus : β)
    (journal' : Journal) : Prop where
  bus : forget faulty.bus = forget bus
  faults : ∀ fault ∈ faulty.faults, fault.sort = .wait ∧ fault.number ≠ 1 ∧ fault.error = none
  waits : faulty.waits = journal.wakeups
  told : journal'.told = journal.told

omit [LineBus β] in
theorem Dozes.fault? {faulty : Faulty β} {journal journal' : Journal} {bus : β}
    (dozes : Dozes forget faulty journal bus journal') {sort : CallSort} {number : Nat}
    {fault : Fault} (chosen : faulty.fault? sort number = some fault) :
    sort = .wait ∧ number ≠ 1 ∧ fault.error = none := by
  obtain ⟨waits, late, answered⟩ := dozes.faults fault (List.mem_of_find?_eq_some chosen)
  have found := List.find?_some chosen
  simp only [Bool.and_eq_true, decide_eq_true_eq] at found
  exact ⟨found.1 ▸ waits, found.2 ▸ late, answered⟩

theorem dozes_called (beside : first.Beside (Dozes forget) second) {entry : Entry}
    (untold : entry.isTold = false) {faulty : Faulty β} (faults : faulty.faults = first.bus.faults)
    (waits : faulty.waits = first.bus.waits + if entry.isWait then 1 else 0) {bus : β}
    {journal : Journal} (same : forget faulty.bus = forget bus)
    (told : journal.told = second.journal.told) :
    Dozes forget faulty (first.called entry faulty).journal bus journal := by
  refine ⟨same, fun fault mem => beside.bond.faults fault (faults ▸ mem), ?_, ?_⟩
  · rw [waits, beside.bond.waits]
    exact (first.wakeups_called entry faulty).symm
  · rw [told, first.told_called untold]
    exact beside.bond.told

theorem both_called (beside : first.Beside (Dozes forget) second) {entry : Entry}
    (untold : entry.isTold = false) {faulty : Faulty β} (faults : faulty.faults = first.bus.faults)
    (waits : faulty.waits = first.bus.waits + if entry.isWait then 1 else 0) {bus : β}
    (same : forget faulty.bus = forget bus) :
    (first.called entry faulty).Beside (Dozes forget) (second.called entry bus) :=
  ⟨dozes_called beside untold faults waits same (second.told_called untold bus), beside.lines,
    beside.detector, beside.stretch⟩

theorem first_called (beside : first.Beside (Dozes forget) second) {entry : Entry}
    (untold : entry.isTold = false) {faulty : Faulty β} (faults : faulty.faults = first.bus.faults)
    (waits : faulty.waits = first.bus.waits + if entry.isWait then 1 else 0)
    (same : forget faulty.bus = forget first.bus.bus) :
    (first.called entry faulty).Beside (Dozes forget) second :=
  ⟨dozes_called beside untold faults waits (same.trans beside.bond.bus) rfl, beside.lines,
    beside.detector, beside.stretch⟩

theorem Dozes.drive {faulty : Faulty β} {journal journal' : Journal} {bus : β}
    (dozes : Dozes forget faulty journal bus journal') (id : LineId) (level : Bool) :
    LineBus.drive faulty id level = (LineBus.drive faulty.bus id level).mapState
      fun bus => { faulty with drives := faulty.drives + 1, bus } := by
  change faulty.drive id level = _
  unfold Faulty.drive
  dsimp only
  split
  case h_1 fault chosen => cases (dozes.fault? chosen).1
  case h_2 => rfl

theorem drive_dozes (forgets : LineBus.Forgets forget)
    (beside : first.Beside (Dozes forget) second) (line : Line) (level : Bool) :
    Probe.Abreast (Dozes forget) (fun _ _ _ => False) (first.drive line level)
      (second.drive line level) := by
  have set : Beside (Dozes forget) { first with lines := first.lines.setWeak line level }
      { second with lines := first.lines.setWeak line level } :=
    ⟨beside.bond, rfl, beside.detector, beside.stretch⟩
  have reached := forgets.drive_abreast beside.bond.bus
    ((first.lines.setWeak line level).id line) level
  unfold Probe.drive
  dsimp only
  rw [beside.lines, beside.bond.drive]
  generalize LineBus.drive first.bus.bus _ level = outcome at reached
  generalize LineBus.drive second.bus _ level = other at reached
  cases reached with
  | ok same => exact .ok (both_called set rfl (by rfl) (by rfl) same)
  | fail same => exact .fail (both_called set rfl (by rfl) (by rfl) same)
  | cut broken => exact broken.elim

theorem wait_dozes (forgets : LineBus.Forgets forget)
    (beside : first.Beside (Dozes forget) second) (kind : WaitKind) :
    (first.wakeups ≠ 0 ∧ ∃ woken, first.wait kind = .ok () woken ∧
        woken.Beside (Dozes forget) second) ∨
      Probe.Abreast (Dozes forget) (fun _ _ _ => False) (first.wait kind) (second.wait kind) := by
  have reached := forgets.wait_abreast beside.bond.bus kind
  have number : first.bus.waits = first.wakeups := beside.bond.waits
  have waited : LineBus.wait first.bus kind = first.bus.wait kind := rfl
  unfold Probe.wait
  rw [waited]
  unfold Faulty.wait
  dsimp only
  split
  case h_1 fault chosen =>
    obtain ⟨-, late, answered⟩ := beside.bond.fault? chosen
    unfold answer
    rw [answered]
    exact .inl ⟨by omega, _, rfl, first_called beside rfl rfl rfl rfl⟩
  case h_2 =>
    refine .inr ?_
    generalize LineBus.wait first.bus.bus kind = outcome at reached
    generalize LineBus.wait second.bus kind = other at reached
    cases reached with
    | ok same => exact .ok (both_called beside rfl (by rfl) (by rfl) same)
    | fail same => exact .fail (both_called beside rfl (by rfl) (by rfl) same)
    | cut broken => exact broken.elim

theorem linked_dozes (forgets : LineBus.Forgets forget) :
    Linked (Dozes forget) (fun _ _ _ => False) where
  now bond := forgets.same_now bond.bus
  peer bond id := congrArg (Option.map Pin.peer) (forgets.same_pin? bond.bus id)
  note {_ journal _ journal' entry} told bond := by
    refine ⟨bond.bus, bond.faults, bond.waits.trans ?_, ?_⟩
    · refine (List.countP_cons_of_neg ?_).symm
      cases entry <;> first | exact Bool.false_ne_true | cases told
    · rw [Journal.told_cons_of_told told, Journal.told_cons_of_told told, bond.told]
  drive line level beside := drive_dozes forgets beside line level
  goes _ broken := broken

theorem again_dozes (forgets : LineBus.Forgets forget) (agrees : second.Agrees)
    (beside : first.Beside (Dozes forget) second) (line : Line) :
    ∃ after, first.drive line (first.lines.weak line) = .ok () after ∧
      after.Beside (Dozes forget) second := by
  have weak : LineBus.weak? first.bus.bus (first.lines.id line) = some (first.lines.weak line) := by
    have weak := agrees.weak line
    unfold LineBus.weak? at weak ⊢
    rw [beside.lines, forgets.same_pin? beside.bond.bus] at weak
    exact weak
  obtain ⟨after, driven, same⟩ := forgets.again weak
  unfold Probe.drive
  dsimp only
  rw [Lines.setWeak_weak, beside.bond.drive, driven]
  exact ⟨_, rfl, first_called beside rfl rfl rfl same⟩

theorem stutters_dozes (forgets : LineBus.Forgets forget) :
    Stutters (Dozes forget) (fun _ _ _ => False) Probe.MayDoze
      fun first second => first.Beside (Dozes forget) second ∧ second.MayDoze where
  toLinked := linked_dozes forgets
  kept doze free paused :=
    ⟨Probe.agrees_of_acts (Probe.acts_pause paused) doze.keeps doze.agrees,
      doze.keeps.later (Probe.called_of_acts (Probe.acts_pause paused)),
      ClockStretch.isDue_of_not_pending (Probe.free_of_pause free paused) _⟩
  rests waits := waits.2
  begins beside doze := ⟨beside, doze⟩
  alike waits := Probe.alike_of_linked (linked_dozes forgets) waits.1
  wakes {first second} waits := by
    obtain ⟨beside, doze⟩ := waits
    rcases wait_dozes forgets beside (if first.stretch.isPending then .cycle else .change) with
      ⟨-, woken, waited, beside'⟩ | abreast
    · obtain ⟨after, paused, beside⟩ := (linked_dozes forgets).pause_for_nothing
        (fun beside => again_dozes forgets doze.agrees beside) doze.agrees doze.early waited
        beside'
      exact .inl ⟨after, paused, beside, doze⟩
    · exact .inr ((linked_dozes forgets).pause beside.stretch abreast)

end Faulty
def Entry.stretchBegan? : Entry → Option Nat
  | stretchBegan time => some time
  | _ => none

namespace Journal

def stretches (journal : Journal) : List Nat := journal.filterMap Entry.stretchBegan?

/-- Every stretch began before the last instant. -/
def BeginsInTime (journal : Journal) : Prop := ∀ time ∈ journal.stretches, time + 1 < Time.limit

theorem mem_stretches {journal : Journal} {time : Nat} (mem : .stretchBegan time ∈ journal) :
    time ∈ journal.stretches :=
  List.mem_filterMap.mpr ⟨_, mem, rfl⟩

theorem BeginsInTime.suffix {journal later : Journal} (inTime : later.BeginsInTime)
    (grows : journal <:+ later) : journal.BeginsInTime :=
  fun time mem => inTime time ((grows.filterMap Entry.stretchBegan?).subset mem)

end Journal

theorem ClockStretch.isDue_begin {stretch : ClockStretch} {time : Nat}
    (inTime : stretch.isEnabled = true → time + 1 < Time.limit)
    (early : stretch.isDue time = false) : (stretch.begin time).isDue time = false := by
  unfold begin
  split
  case isTrue enabled =>
    have range := inTime enabled
    have lasts := of_decide_eq_true enabled
    unfold isDue Time.saturate
    rw [Option.any_some, decide_eq_false_iff_not]
    omega
  case isFalse => exact early

namespace Checker

section Early

variable {β : Type} [LineBus β]

theorem began_of_react {before after : Checker β} {change : Change} (fell : Fell before change)
    (enabled : before.probe.stretch.isEnabled = true) (react : before.react change = .ok () after) :
    .stretchBegan change.time ∈ after.probe.journal := by
  unfold Checker.react at react
  obtain ⟨_, judged, judging, react⟩ := Outcome.of_andThen react
  obtain ⟨_, clocked, clocking, react⟩ := Outcome.of_andThen react
  obtain ⟨_, told, telling, follow⟩ := Outcome.of_andThen react
  have same := report_ok judging
  have fell' : Fell judged change := by
    rw [same]
    exact fell
  have enabled' : (judged.probe.stretch.begin change.time).isEnabled = true := by
    unfold ClockStretch.isEnabled
    rw [ClockStretch.duration_begin, same]
    exact enabled
  unfold clockEdge at clocking
  rw [if_pos (show _ ∧ _ from fell')] at clocking
  unfold clockFell at clocking
  dsimp only at clocking
  rw [if_pos enabled'] at clocking
  obtain ⟨_, low, -, noted⟩ := Outcome.of_andThen clocking
  cases noted
  have telling' := (low.note (.stretchBegan change.time)).grows_report
    (simultaneousNotes change.edge)
  rw [telling] at telling'
  have following := told.grows_follow change.sight
    (told.protocol.successor told.probe.detector change.line)
  rw [follow] at following
  exact following.subset (telling'.subset List.mem_cons_self)

theorem early_turn {before next : Checker β} (turned : before.turn = .ok next)
    (inTime : next.probe.journal.BeginsInTime)
    (early : before.probe.stretch.isDue before.now = false) :
    next.probe.stretch.isDue next.now = false := by
  rcases react_or_pause turned with ⟨change, committed, commits, react⟩ | ⟨-, woken, paused, rfl⟩
  · have now : next.now = before.now :=
      (reacted react).still.now.trans (congrArg LineBus.now (by rw [commits.after]; rfl))
    have stretch : committed.stretch = before.probe.stretch := by rw [commits.after]; rfl
    have time : change.time = before.now := Probe.now_of_look commits.look
    rw [now]
    by_cases fell : Fell { before with probe := committed } change
    · have begun := stretch_of_fell fell react
      dsimp only at begun
      rw [begun, stretch, time]
      refine ClockStretch.isDue_begin (fun enabled => ?_) early
      rw [← stretch] at enabled
      exact time ▸ inTime _ (Journal.mem_stretches (began_of_react fell enabled react))
    · have kept := (reacted react).stretch fell
      dsimp only at kept
      rw [kept, stretch]
      exact early
  · cases Probe.wakes_of_pause paused with
    | change free _ _ =>
      exact ClockStretch.isDue_of_not_pending (Probe.free_of_pause free paused) _
    | held _ _ early refreshed =>
      change woken.stretch.isDue woken.now = false
      rw [refreshed.stretch, refreshed.still.now]
      exact early
    | released _ _ _ _ refreshed _ =>
      change woken.stretch.isDue woken.now = false
      rw [refreshed.stretch]
      rfl

theorem early_turns {checker ready between : Checker β} {n : Nat}
    (free : checker.probe.stretch.isPending = false) (idle : checker.startUp = .ok () ready)
    (run : ready.turns n = .ok between) (inTime : checker.run.2.probe.journal.BeginsInTime) :
    between.probe.stretch.isDue between.now = false := by
  have late : between.probe.journal.BeginsInTime := by
    rw [run_of_startUp idle, watch_turns run] at inTime
    exact inTime.suffix (between.grows_watch.trans (List.suffix_cons _ _))
  revert late
  refine turns_induct (motive := fun between => between.probe.journal.BeginsInTime →
    between.probe.stretch.isDue between.now = false) (fun _ => ?_)
    (fun {before next} turned early late => ?_) run
  · have released := checker.released_startUp.1
    rw [idle, Outcome.state_ok] at released
    rw [← released] at free
    exact ClockStretch.isDue_of_not_pending free _
  · refine early_turn turned late (early (late.suffix ?_))
    obtain ⟨outcome, same, grows⟩ := before.exists_turn
    rw [turned] at same
    rw [Outcome.eq_ok_of_verdict same.symm] at grows
    exact grows

theorem mayDoze_turns {config : Config} {bus : β} {checker ready between : Checker β} {n : Nat}
    (made : ofConfig config bus = .ok checker) (keeps : LineBus.KeepsDrives bus)
    (idle : checker.startUp = .ok () ready) (run : ready.turns n = .ok between)
    (inTime : checker.run.2.probe.journal.BeginsInTime) : Probe.MayDoze between.probe := by
  have configured := configured_of_ofConfig made
  have keeps := configured.bus.symm ▸ keeps
  obtain ⟨told, entered, passes⟩ := passes_of_turns run
  refine ⟨agrees_of_passes configured.distinct idle passes keeps, ?_, ?_⟩
  · exact keeps.later (Probe.called_of_acts ((acts_startUp idle).trans (acts_of_passes passes)))
  · refine early_turns ?_ idle run inTime
    rw [new_of_ofConfig made]
    rfl

theorem mayDoze_letGo {config : Config} {bus : β} {checker : Checker β} {late : Probe β} {time : Nat}
    (made : ofConfig config bus = .ok checker) (keeps : LineBus.KeepsDrives bus)
    (free : checker.start.letGo time = .ok () late) : Probe.MayDoze late := by
  have configured := configured_of_ofConfig made
  have keeps : LineBus.KeepsDrives checker.start.bus := configured.bus.symm ▸ keeps
  have starts := Probe.starts_letGo free
  have stretch := checker.start.stretch_letGo time
  rw [free, Outcome.state_ok] at stretch
  have distinct : checker.start.lines.clock ≠ checker.start.lines.data := configured.distinct
  refine ⟨Probe.agrees_of_starts distinct keeps starts,
    keeps.later (Probe.called_of_acts (Probe.acts_of_starts starts)), ?_⟩
  refine ClockStretch.isDue_of_not_pending ?_ _
  rw [stretch, start_of_made made]
  rfl

end Early

/-- Runs that differ in the calls they make, and in nothing else that the bus shows. -/
structure SameButCalls {β : Type} (forget : β → β) (plain : BusError × Checker β)
    (faulty : BusError × Checker (Faulty β)) : Prop extends SameTold faulty plain where
  bus : forget faulty.2.probe.bus.bus = forget plain.2.probe.bus

theorem same_but_calls {β : Type} [LineBus β] {forget : β → β}
    (forgets : LineBus.Forgets forget) {config : Config} {bus : β} {positions : List Nat}
    (keeps : LineBus.KeepsDrives bus) (later : 1 ∉ positions) {plain : Checker β}
    {faulty : Checker (Faulty β)} (made : ofConfig config bus = .ok plain)
    (made' : ofConfig config (Faulty.dozing bus positions) = .ok faulty)
    (inTime : plain.run.2.probe.journal.BeginsInTime) :
    SameButCalls forget plain.run faulty.run := by
  have stutters := Faulty.stutters_dozes forgets
  have start : faulty.start.Beside (Faulty.Dozes forget) plain.start := by
    refine beside_of_made made' made ⟨rfl, fun fault mem => ?_, rfl, rfl⟩
    obtain ⟨n, among, rfl⟩ := List.mem_map.mp mem
    refine ⟨rfl, ?_, rfl⟩
    rintro rfl
    exact later among
  have fresh : faulty.start.wakeups = 0 := by
    rw [start_of_made made']
    rfl
  have settles : Probe.Abreast (Faulty.Dozes forget) (fun _ _ _ => False)
      (faulty.start.letGo config.settleTime) (plain.start.letGo config.settleTime) := by
    refine stutters.letGo start fun early early' beside same => ?_
    rcases Faulty.wait_dozes forgets beside (.instant config.settleTime) with ⟨woken, -⟩ | abreast
    · exact absurd (same.trans fresh) woken
    · exact abreast
  have stop := stutters.stop_of_made made' made settles (fun late free => ?rests)
    fun ready n between idle run => mayDoze_turns made keeps idle run inTime
  case rests => exact mayDoze_letGo made keeps free
  obtain ⟨error, beside⟩ := run_of_stop stutters.toLinked stop
  exact ⟨sameTold_of_beside error beside beside.probe.bond.told, beside.probe.bond.bus⟩

/-- A run does not show wake-ups for nothing after its first wait, however many there are and
whenever they come, as long as no stretch begins at the last instant. -/
theorem harmless_wakeups (config : Config) {positions : List Nat} (later : 1 ∉ positions) :
    (∀ (clock data : LineId) (cycle : Nat) (trace : List PeerDrive) (plain : Checker Replay)
      (faulty : Checker (Faulty Replay)),
      ofConfig config ((Replay.ofTrace clock data trace).withCycle cycle) = .ok plain →
      ofConfig config (Faulty.dozing ((Replay.ofTrace clock data trace).withCycle cycle)
        positions) = .ok faulty →
      plain.run.2.probe.journal.BeginsInTime →
        SameButCalls Replay.unlogged plain.run faulty.run) ∧
    ∀ (clock data : LineId) (cycle : Nat) (program : List Step) (bus : Simulation)
      (plain : Checker Simulation) (faulty : Checker (Faulty Simulation)),
      Simulation.ofProgram clock data program = .ok bus →
      ofConfig config (bus.withCycle cycle) = .ok plain →
      ofConfig config (Faulty.dozing (bus.withCycle cycle) positions) = .ok faulty →
      plain.run.2.probe.journal.BeginsInTime → SameButCalls id plain.run faulty.run :=
  ⟨fun _ _ _ _ _ _ made made' => same_but_calls Replay.forgets (Replay.keepsDrives _) later made
    made', fun _ _ _ _ _ _ _ _ made made' => same_but_calls Simulation.forgets
    (Simulation.keepsDrives _) later made made'⟩

/-- The clock falls at the last instant and is held low. Whoever goes on for a cycle from there goes
beyond the range of time; whoever is woken for nothing lets the clock go and waits for a change. -/
theorem stretch_at_last_instant :
    let bus := Replay.ofTrace 0 1 [⟨200, 1, some false⟩, ⟨Time.limit - 1, 0, some false⟩]
    let config : Config := { clock := 0, data := 1, clockStretch := 10 }
    ∃ (plain : Checker Replay) (faulty : Checker (Faulty Replay)),
      ofConfig config bus = .ok plain ∧
      ofConfig config (Faulty.dozing bus [4]) = .ok faulty ∧
      plain.run.1 = .overflow .add ∧ faulty.run.1 = .closed := by
  intro bus config
  have found : ((ofConfig config bus).toOption.bind fun plain => (plain.end? 30).map
      fun stop => stop.1) = some (.overflow .add) := by decide +kernel
  have found' : ((ofConfig config (Faulty.dozing bus [4])).toOption.bind fun faulty =>
      (faulty.end? 30).map fun stop => stop.1) = some .closed := by decide +kernel
  obtain ⟨plain, made, error⟩ := exists_run found
  obtain ⟨faulty, made', error'⟩ := exists_run found'
  exact ⟨plain, faulty, made, made', error, error'⟩

/-- A stretched clock, with wake-ups for nothing before and during the stretches. -/
theorem harmless_while_stretching :
    let bus := (Replay.ofTrace 0 1
      [⟨200, 1, some false⟩, ⟨300, 0, some false⟩, ⟨400, 0, none⟩, ⟨500, 0, some false⟩]).withCycle 10
    let config : Config := { clock := 0, data := 1, clockStretch := 50 }
    ∃ (plain : Checker Replay) (faulty : Checker (Faulty Replay)),
      ofConfig config bus = .ok plain ∧
      ofConfig config (Faulty.dozing bus [2, 4, 6, 7, 20]) = .ok faulty ∧
      plain.run.2.probe.journal.stretches = [500, 300] ∧
      SameButCalls Replay.unlogged plain.run faulty.run := by
  intro bus config
  have found : ((ofConfig config bus).toOption.bind fun plain => (plain.end? 40).map
      fun stop => stop.2.probe.journal.stretches) = some [500, 300] := by decide +kernel
  obtain ⟨plain, made, stretches⟩ := exists_run found
  obtain ⟨faulty, made'⟩ : ∃ faulty,
      ofConfig config (Faulty.dozing bus [2, 4, 6, 7, 20]) = .ok faulty := ⟨_, rfl⟩
  refine ⟨plain, faulty, made, made', stretches, ?_⟩
  refine (harmless_wakeups config (by decide)).1 _ _ _ _ _ _ made made' fun time mem => ?_
  rw [stretches] at mem
  revert time
  decide

end Checker
end TwoWire
