import TwoWire.Proofs.Endings

/-! Two runs on buses of any kinds, of which the first may be cut short. But for that, whatever is
done between two waits goes alike on both sides as soon as drives do (`react_abreast`). -/

namespace TwoWire

theorem Journal.suffix_of_silent {before after : Journal} (silent : Silent before after) :
    before <:+ after := by
  obtain ⟨entries, rfl, -⟩ := silent
  exact List.suffix_append entries before

namespace Outcome

/-- Two operations end alike, or the first is cut short while the second goes on. -/
inductive Abreast (alike : σ → τ → Prop) (cut : BusError → σ → τ → Prop) :
    Outcome σ α → Outcome τ α → Prop
  | ok {value : α} {state : σ} {other : τ} (h : alike state other) :
    Abreast alike cut (.ok value state) (.ok value other)
  | fail {error : BusError} {state : σ} {other : τ} (h : alike state other) :
    Abreast alike cut (.fail error state) (.fail error other)
  | cut {error : BusError} {state : σ} {second : Outcome τ α} (h : cut error state second.state) :
    Abreast alike cut (.fail error state) second

variable {alike : σ → τ → Prop} {cut : BusError → σ → τ → Prop}

theorem Abreast.andThen {first : Outcome σ α} {second : Outcome τ α}
    {next : α → σ → Outcome σ γ} {next' : α → τ → Outcome τ γ}
    (abreast : Abreast alike cut first second)
    (onward : ∀ value state other, alike state other →
      Abreast alike cut (next value state) (next' value other))
    (goes : ∀ error state value other, cut error state other →
      cut error state (next' value other).state) :
    Abreast alike cut (first.andThen next) (second.andThen next') := by
  cases abreast with
  | ok h => exact onward _ _ _ h
  | fail h => exact .fail h
  | cut h =>
    cases second with
    | ok value other => exact .cut (goes _ _ _ _ h)
    | fail reason other => exact .cut h

theorem Abreast.mapState {first : Outcome σ α} {second : Outcome τ α} {whole : υ → ω → Prop}
    {cut' : BusError → υ → ω → Prop} {f : σ → υ} {g : τ → ω}
    (abreast : Abreast alike cut first second)
    (h : ∀ state other, alike state other → whole (f state) (g other))
    (h' : ∀ error state other, cut error state other → cut' error (f state) (g other)) :
    Abreast whole cut' (first.mapState f) (second.mapState g) := by
  cases abreast with
  | ok related => exact .ok (h _ _ related)
  | fail related => exact .fail (h _ _ related)
  | cut broken =>
    refine .cut ?_
    rw [state_mapState]
    exact h' _ _ _ broken

end Outcome

namespace Checker

variable {β : Type} [LineBus β]

omit [LineBus β] in
theorem grows_andThen {first : Checker β} {outcome : Outcome (Checker β) α}
    {next : α → Checker β → Outcome (Checker β) γ}
    (start : first.probe.journal <:+ outcome.state.probe.journal)
    (further : ∀ value middle, middle.probe.journal <:+ (next value middle).state.probe.journal) :
    first.probe.journal <:+ (outcome.andThen next).state.probe.journal :=
  Outcome.state_andThen (motive := fun after => first.probe.journal <:+ after.probe.journal) start
    fun value middle early => early.trans (further value middle)

theorem grows_report (checker : Checker β) (notes : List Note) :
    checker.probe.journal <:+ (checker.report notes).state.probe.journal := by
  induction notes generalizing checker with
  | nil => exact List.suffix_refl _
  | cons note rest ih =>
    cases note with
    | overflow => exact List.suffix_refl _
    | found finding =>
      have told := ih (checker.note (.recorded ⟨checker.now, checker.protocol.phase, finding⟩))
      exact (List.suffix_cons _ _).trans told

theorem grows_enter (checker : Checker β) (sight : Sight) (phase : Phase) :
    checker.probe.journal <:+ (checker.enter sight phase).state.probe.journal := by
  unfold enter
  dsimp only
  generalize checker.protocol.enter (checker.view sight) phase = arrival
  have told := grows_report ({ checker.note
    (.entered checker.protocol.phase phase checker.now) with
      protocol := arrival.protocol } : Checker β) arrival.notes
  refine grows_andThen ((List.suffix_cons _ _).trans told) fun _ told => ?_
  exact grows_andThen (Journal.suffix_of_silent (told.silent_driveData _))
    fun _ _ => List.suffix_refl _

theorem grows_follow (checker : Checker β) (sight : Sight) (phase : Phase) :
    checker.probe.journal <:+ (checker.follow sight phase).state.probe.journal := by
  refine grows_andThen (checker.grows_enter sight phase) fun forced? middle => ?_
  cases forced? with
  | none => exact List.suffix_refl _
  | some forced => exact grows_andThen (middle.grows_enter sight forced) fun _ _ => List.suffix_refl _

theorem grows_react (checker : Checker β) (change : Change) :
    checker.probe.journal <:+ (checker.react change).state.probe.journal := by
  refine grows_andThen (checker.grows_report _) fun _ judged => ?_
  refine grows_andThen (Journal.suffix_of_silent (judged.silent_clockEdge change)) fun _ clocked => ?_
  exact grows_andThen (clocked.grows_report _) fun _ told => told.grows_follow _ _

theorem exists_turn (checker : Checker β) :
    ∃ outcome : Outcome (Checker β) Unit, checker.turn = outcome.verdict ∧
      checker.probe.journal <:+ outcome.state.probe.journal := by
  cases look : checker.probe.look with
  | error error => exact ⟨.fail error checker, turn_of_missing look, List.suffix_refl _⟩
  | ok sight =>
    cases seen : checker.probe.detector.edge? checker.probe.lines sight with
    | some edge =>
      have reacted := grows_react
        ({ checker with probe := checker.probe.commit sight edge } : Checker β) ⟨edge, sight⟩
      exact ⟨_, turn_of_edge look seen, (List.suffix_cons _ _).trans reacted⟩
    | none =>
      refine ⟨_, turn_of_pause look seen, ?_⟩
      rw [Outcome.state_mapState]
      exact Journal.suffix_of_silent checker.probe.silent_pause

theorem grows_watch (checker : Checker β) :
    checker.probe.journal <:+ checker.watch.2.probe.journal := by
  induction checker using turn_induct with
  | further checker ih =>
    obtain ⟨outcome, turned, grows⟩ := checker.exists_turn
    rw [watch_turn, turned]
    cases outcome with
    | ok _ next => exact grows.trans (ih next turned)
    | fail error stopped => exact grows

def stop (checker : Checker β) : BusError × Checker β :=
  match checker.startUp with
  | .fail error stopped => (error, stopped)
  | .ok _ ready => ready.watch

theorem run_eq_stop (checker : Checker β) :
    checker.run =
      (checker.stop.1, checker.stop.2.note (.ended checker.stop.1 checker.stop.2.now)) := by
  unfold run stop
  cases checker.startUp <;> rfl

end Checker

/-- What two buses and the journals of the runs on them have in common. -/
abbrev Bond (β γ : Type) := β → Journal → γ → Journal → Prop

/-- Why a run is cut short, with its journal and the journal of the run that goes on. -/
abbrev Break := BusError → Journal → Journal → Prop

/-- What is told of a run: neither its calls nor what moves on the lines. -/
def Entry.isTold : Entry → Bool
  | waited _ | drove .. | moved _ => false
  | _ => true

def Journal.told (journal : Journal) : Journal := journal.filter Entry.isTold

namespace Journal

theorem told_cons_of_told {entry : Entry} (told : entry.isTold = true) (journal : Journal) :
    Journal.told (entry :: journal) = entry :: journal.told :=
  List.filter_cons_of_pos told

theorem pushed_told (journal : Journal) : journal.told.pushed = journal.pushed := by
  unfold told pushed
  rw [List.filterMap_filter]
  refine List.filterMap_congr fun entry _ => ?_
  cases entry <;> rfl

end Journal

namespace Probe

theorem told_called {β : Type} [LineBus β] (probe : Probe β) {entry : Entry}
    (untold : entry.isTold = false) (bus : β) :
    (probe.called entry bus).journal.told = probe.journal.told := by
  unfold called Journal.told
  dsimp only
  rw [List.filter_append, List.filter_cons_of_neg (by simp [untold])]
  refine (congrArg (· ++ _) (List.filter_eq_nil_iff.mpr fun moved mem => ?_)).trans
    (List.nil_append _)
  obtain ⟨transition, -, rfl⟩ := List.mem_map.mp (List.mem_reverse.mp mem)
  exact Bool.false_ne_true

theorem journal_called_of_unmoved {β : Type} [LineBus β] {probe : Probe β} {bus : β}
    (unmoved : LineBus.moves bus = LineBus.moves probe.bus) (entry : Entry) :
    (probe.called entry bus).journal = entry :: probe.journal := by
  unfold called
  simp [unmoved]

variable {β γ : Type}

structure Beside (bond : Bond β γ) (first : Probe β) (second : Probe γ) : Prop where
  bond : bond first.bus first.journal second.bus second.journal
  lines : second.lines = first.lines
  detector : second.detector = first.detector
  stretch : second.stretch = first.stretch

abbrev Abreast (bond : Bond β γ) (cut : Break) :
    Outcome (Probe β) α → Outcome (Probe γ) α → Prop :=
  Outcome.Abreast (Beside bond) fun error first second => cut error first.journal second.journal

end Probe

structure Linked {β γ : Type} [LineBus β] [LineBus γ] (bond : Bond β γ) (cut : Break) : Prop where
  now {bus : β} {journal : Journal} {bus' : γ} {journal' : Journal} :
    bond bus journal bus' journal' → LineBus.now bus' = LineBus.now bus
  peer {bus : β} {journal : Journal} {bus' : γ} {journal' : Journal} :
    bond bus journal bus' journal' → ∀ id, LineBus.peer? bus' id = LineBus.peer? bus id
  note {bus : β} {journal : Journal} {bus' : γ} {journal' : Journal} {entry : Entry} :
    entry.isTold = true → bond bus journal bus' journal' →
      bond bus (entry :: journal) bus' (entry :: journal')
  drive {first : Probe β} {second : Probe γ} (line : Line) (level : Bool) :
    first.Beside bond second →
      Probe.Abreast bond cut (first.drive line level) (second.drive line level)
  goes {error : BusError} {journal journal' later : Journal} :
    journal' <:+ later → cut error journal journal' → cut error journal later

namespace Linked

variable {β γ : Type} [LineBus β] [LineBus γ] {bond : Bond β γ} {cut : Break}

section Probe

open Probe (Beside)

variable {first : Probe β} {second : Probe γ}

theorem noted (linked : Linked bond cut) (beside : Beside bond first second) {entry : Entry}
    (told : entry.isTold = true) : Beside bond (first.note entry) (second.note entry) :=
  ⟨linked.note told beside.bond, beside.lines, beside.detector, beside.stretch⟩

theorem same_now (linked : Linked bond cut) (beside : Beside bond first second) :
    second.now = first.now :=
  linked.now beside.bond

theorem look (linked : Linked bond cut) (beside : Beside bond first second) :
    second.look = first.look := by
  unfold Probe.look Lines.look
  rw [beside.lines, linked.peer beside.bond, linked.peer beside.bond, linked.now beside.bond]

theorem commit (linked : Linked bond cut) (beside : Beside bond first second) (sight : Sight)
    (edge : Edge) : Beside bond (first.commit sight edge) (second.commit sight edge) := by
  have detector : second.detector.commit second.lines sight edge.line =
      first.detector.commit first.lines sight edge.line := by
    rw [beside.lines, beside.detector]
  exact ⟨linked.note rfl beside.bond, beside.lines, detector, beside.stretch⟩

theorem andThen (linked : Linked bond cut) {outcome : Outcome (Probe β) α}
    {other : Outcome (Probe γ) α} {next : α → Probe β → Outcome (Probe β) δ}
    {next' : α → Probe γ → Outcome (Probe γ) δ}
    (abreast : Probe.Abreast bond cut outcome other)
    (onward : ∀ value first second, Beside bond first second →
      Probe.Abreast bond cut (next value first) (next' value second))
    (grows : ∀ value second, Probe.Silent second (next' value second).state) :
    Probe.Abreast bond cut (outcome.andThen next) (other.andThen next') :=
  Outcome.Abreast.andThen abreast onward fun _ _ value second =>
    linked.goes (Journal.suffix_of_silent (grows value second))

theorem refreshLine (linked : Linked bond cut) (beside : Beside bond first second) (line : Line) :
    Probe.Abreast bond cut (first.refreshLine line) (second.refreshLine line) := by
  have driven : LineBus.isDriven second.bus (second.lines.id line) =
      LineBus.isDriven first.bus (first.lines.id line) := by
    have peer := linked.peer beside.bond (first.lines.id line)
    unfold LineBus.peer? at peer
    unfold LineBus.isDriven
    rw [beside.lines]
    revert peer
    cases LineBus.pin? second.bus (first.lines.id line) <;>
      cases LineBus.pin? first.bus (first.lines.id line) <;> simp [Pin.isDriven]
    intro same
    rw [same]
  unfold Probe.refreshLine
  rw [driven]
  split
  · exact .fail beside
  · exact .ok beside
  · rw [beside.lines]
    exact linked.drive line _ beside

theorem refresh (linked : Linked bond cut) (beside : Beside bond first second) :
    Probe.Abreast bond cut first.refresh second.refresh :=
  linked.andThen (linked.refreshLine beside .clock)
    (fun _ _ _ beside => linked.refreshLine beside .data)
    fun _ second => second.silent_refreshLine .data

theorem releaseWhenDue (linked : Linked bond cut) (beside : Beside bond first second) :
    Probe.Abreast bond cut first.releaseWhenDue second.releaseWhenDue := by
  unfold Probe.releaseWhenDue
  rw [beside.stretch, linked.same_now beside]
  split
  case isFalse => exact .ok beside
  case isTrue =>
    refine linked.andThen (linked.drive .clock true beside) (fun _ free free' beside => ?_)
      fun _ _ => Journal.silent_cons rfl rfl _
    rw [linked.same_now beside, beside.stretch]
    have released : Beside bond { free with stretch := free.stretch.release }
        { free' with stretch := free.stretch.release } :=
      ⟨beside.bond, beside.lines, beside.detector, rfl⟩
    exact .ok (linked.noted released rfl)

theorem pause (linked : Linked bond cut) (same : second.stretch = first.stretch)
    (waited : Probe.Abreast bond cut
      (first.wait (if first.stretch.isPending then .cycle else .change))
      (second.wait (if first.stretch.isPending then .cycle else .change))) :
    Probe.Abreast bond cut first.pause second.pause := by
  unfold Probe.pause
  dsimp only
  refine linked.andThen ?_ (fun _ _ _ beside => linked.refresh beside)
    fun _ second => second.silent_refresh
  rw [same]
  split
  case isFalse free =>
    rw [if_neg free] at waited
    exact waited
  case isTrue pending =>
    rw [if_pos pending] at waited
    exact linked.andThen waited (fun _ _ _ beside => linked.releaseWhenDue beside)
      fun _ second => second.silent_releaseWhenDue

end Probe

end Linked

namespace Checker

variable {β γ : Type}

structure Beside (bond : Bond β γ) (first : Checker β) (second : Checker γ) : Prop where
  probe : first.probe.Beside bond second.probe
  config : second.config = first.config
  protocol : second.protocol = first.protocol

abbrev Abreast (bond : Bond β γ) (cut : Break) :
    Outcome (Checker β) α → Outcome (Checker γ) α → Prop :=
  Outcome.Abreast (Beside bond) fun error first second =>
    cut error first.probe.journal second.probe.journal

variable [LineBus β] [LineBus γ] {bond : Bond β γ} {cut : Break} {first : Checker β}
  {second : Checker γ}

omit [LineBus β] [LineBus γ] in
theorem abreast_mapState {outcome : Outcome (Probe β) α} {other : Outcome (Probe γ) α}
    (config : second.config = first.config) (protocol : second.protocol = first.protocol)
    (abreast : Probe.Abreast bond cut outcome other) :
    Abreast bond cut (outcome.mapState fun probe => { first with probe })
      (other.mapState fun probe => { second with probe }) :=
  Outcome.Abreast.mapState abreast (fun _ _ probe => ⟨probe, config, protocol⟩) fun _ _ _ => id

theorem abreast_andThen (linked : Linked bond cut) {outcome : Outcome (Checker β) α}
    {other : Outcome (Checker γ) α} {next : α → Checker β → Outcome (Checker β) δ}
    {next' : α → Checker γ → Outcome (Checker γ) δ} (abreast : Abreast bond cut outcome other)
    (onward : ∀ value first second, Beside bond first second →
      Abreast bond cut (next value first) (next' value second))
    (grows : ∀ value second,
      second.probe.journal <:+ (next' value second).state.probe.journal) :
    Abreast bond cut (outcome.andThen next) (other.andThen next') :=
  Outcome.Abreast.andThen abreast onward fun _ _ value second => linked.goes (grows value second)

omit [LineBus β] [LineBus γ] in
theorem Beside.view (beside : Beside bond first second) (sight : Sight) :
    second.view sight = first.view sight := by
  unfold Checker.view
  rw [beside.probe.lines, beside.probe.detector]

theorem Beside.noted (linked : Linked bond cut) (beside : Beside bond first second)
    {entry : Entry} (told : entry.isTold = true) :
    Beside bond (first.note entry) (second.note entry) :=
  ⟨linked.noted beside.probe told, beside.config, beside.protocol⟩

theorem report_abreast (linked : Linked bond cut) (beside : Beside bond first second)
    (notes : List Note) : Abreast bond cut (first.report notes) (second.report notes) := by
  induction notes generalizing first second with
  | nil => exact .ok beside
  | cons note rest ih =>
    cases note with
    | overflow kind => exact .fail beside
    | found finding =>
      have now : second.now = first.now := linked.same_now beside.probe
      unfold report
      rw [now, beside.protocol]
      exact ih (beside.noted linked rfl)

theorem drive_abreast (linked : Linked bond cut) (beside : Beside bond first second) (line : Line)
    (level : Bool) : Abreast bond cut (first.drive line level) (second.drive line level) :=
  abreast_mapState beside.config beside.protocol (linked.drive line level beside.probe)

theorem driveData_abreast (linked : Linked bond cut) (beside : Beside bond first second)
    (drive? : Option Bool) :
    Abreast bond cut (first.driveData drive?) (second.driveData drive?) := by
  cases drive? with
  | none => exact .ok beside
  | some level => exact drive_abreast linked beside .data level

theorem enter_abreast (linked : Linked bond cut) (beside : Beside bond first second)
    (sight : Sight) (phase : Phase) :
    Abreast bond cut (first.enter sight phase) (second.enter sight phase) := by
  have now : second.now = first.now := linked.same_now beside.probe
  unfold enter
  dsimp only
  rw [beside.protocol, beside.view, now]
  generalize first.protocol.enter (first.view sight) phase = arrival
  have arrived : Beside bond
      { first.note (.entered first.protocol.phase phase first.now) with
        protocol := arrival.protocol }
      { second.note (.entered first.protocol.phase phase first.now) with
        protocol := arrival.protocol } :=
    ⟨linked.noted beside.probe rfl, beside.config, rfl⟩
  refine abreast_andThen linked (report_abreast linked arrived arrival.notes)
    (fun _ told told' beside => ?_) fun _ told => ?_
  · refine abreast_andThen linked (driveData_abreast linked beside arrival.drive?)
      (fun _ _ _ beside => .ok beside) fun _ _ => List.suffix_refl _
  · exact grows_andThen (Journal.suffix_of_silent (told.silent_driveData _))
      fun _ _ => List.suffix_refl _

theorem follow_abreast (linked : Linked bond cut) (beside : Beside bond first second)
    (sight : Sight) (phase : Phase) :
    Abreast bond cut (first.follow sight phase) (second.follow sight phase) := by
  refine abreast_andThen linked (enter_abreast linked beside sight phase)
    (fun forced? middle middle' beside => ?_) fun forced? middle => ?_
  · cases forced? with
    | none => exact .ok beside
    | some forced =>
      exact abreast_andThen linked (enter_abreast linked beside sight forced)
        (fun _ _ _ beside => .ok beside) fun _ _ => List.suffix_refl _
  · cases forced? with
    | none => exact List.suffix_refl _
    | some forced =>
      exact grows_andThen (middle.grows_enter sight forced) fun _ _ => List.suffix_refl _

theorem clockEdge_abreast (linked : Linked bond cut) (beside : Beside bond first second)
    (change : Change) : Abreast bond cut (first.clockEdge change) (second.clockEdge change) := by
  unfold clockEdge
  rw [beside.probe.detector]
  split
  case isFalse => exact .ok beside
  case isTrue =>
    unfold clockFell
    dsimp only
    rw [beside.probe.stretch, beside.protocol]
    have begun : Beside bond
        { first with
          protocol := { first.protocol with meter := first.protocol.meter.clockFell change.time }
          probe := { first.probe with stretch := first.probe.stretch.begin change.time } }
        { second with
          protocol := { first.protocol with meter := first.protocol.meter.clockFell change.time }
          probe := { second.probe with stretch := first.probe.stretch.begin change.time } } :=
      ⟨⟨beside.probe.bond, beside.probe.lines, beside.probe.detector, rfl⟩, beside.config, rfl⟩
    split
    case isFalse => exact .ok begun
    case isTrue =>
      exact abreast_andThen linked (drive_abreast linked begun .clock false)
        (fun _ _ _ beside => .ok (beside.noted linked rfl)) fun _ _ => List.suffix_cons ..

theorem react_abreast (linked : Linked bond cut) (beside : Beside bond first second)
    (change : Change) : Abreast bond cut (first.react change) (second.react change) := by
  unfold react
  rw [beside.protocol, beside.view]
  refine abreast_andThen linked (report_abreast linked beside _) (fun _ judged judged' beside => ?_)
    fun _ judged => ?_
  · refine abreast_andThen linked (clockEdge_abreast linked beside change)
      (fun _ clocked clocked' beside => ?_) fun _ clocked => ?_
    · refine abreast_andThen linked (report_abreast linked beside _) (fun _ told told' beside => ?_)
        fun _ told => told.grows_follow _ _
      rw [beside.protocol, beside.probe.detector]
      exact follow_abreast linked beside _ _
    · exact grows_andThen (clocked.grows_report _) fun _ told => told.grows_follow _ _
  · refine grows_andThen (Journal.suffix_of_silent (judged.silent_clockEdge change))
      fun _ clocked => ?_
    exact grows_andThen (clocked.grows_report _) fun _ told => told.grows_follow _ _

end Checker
end TwoWire
