import TwoWire.Proofs.Abreast

/-! A run told again by its journal: the calls written down, made again one after the other, lead to
the bus and to our side of the lines as the run leaves them (`retraced_run`). -/

namespace TwoWire

namespace Probe

variable {β : Type} [LineBus β] {first middle last : Probe β}

/-- The probe after the call that an entry tells of, if it tells of one. -/
def ask (probe : Probe β) : Entry → Probe β
  | .drove line level => (probe.drive line level).state
  | .waited kind => (probe.wait kind).state
  | _ => probe

/-- The probe after the calls of a journal, the oldest first. -/
def retrace (first : Probe β) (asked : Journal) : Probe β :=
  asked.foldr (fun entry probe => probe.ask entry) first

theorem retrace_append (first : Probe β) (late early : Journal) :
    first.retrace (late ++ early) = (first.retrace early).retrace late :=
  List.foldr_append

structure SameSide (first second : Probe β) : Prop where
  bus : second.bus = first.bus
  lines : second.lines = first.lines

omit [LineBus β] in
theorem SameSide.trans (one : SameSide first middle) (two : SameSide middle last) :
    SameSide first last :=
  ⟨two.bus.trans one.bus, two.lines.trans one.lines⟩

theorem bus_drive (probe : Probe β) (line : Line) (level : Bool) :
    (probe.drive line level).state.bus =
      (LineBus.drive probe.bus (probe.lines.id line) level).state := by
  unfold drive
  rw [Outcome.state_mapState, ← Lines.id_setWeak probe.lines line level line]
  rfl

theorem bus_wait (probe : Probe β) (kind : WaitKind) :
    (probe.wait kind).state.bus = (LineBus.wait probe.bus kind).state := by
  unfold wait
  rw [Outcome.state_mapState]
  rfl

theorem lines_wait (probe : Probe β) (kind : WaitKind) :
    (probe.wait kind).state.lines = probe.lines := by
  unfold wait
  rw [Outcome.state_mapState]
  rfl

theorem SameSide.ask (same : SameSide first last) (entry : Entry) :
    SameSide (first.ask entry) (last.ask entry) := by
  obtain ⟨bus, lines⟩ := same
  cases entry with
  | drove line level =>
    constructor
    · change (last.drive line level).state.bus = (first.drive line level).state.bus
      rw [bus_drive, bus_drive, bus, lines]
    · change (last.drive line level).state.lines = (first.drive line level).state.lines
      rw [lines_drive, lines_drive, lines]
  | waited kind =>
    constructor
    · change (last.wait kind).state.bus = (first.wait kind).state.bus
      rw [bus_wait, bus_wait, bus]
    · change (last.wait kind).state.lines = (first.wait kind).state.lines
      rw [lines_wait, lines_wait, lines]
  | _ => exact ⟨bus, lines⟩

theorem SameSide.retrace (same : SameSide first last) (asked : Journal) :
    SameSide (first.retrace asked) (last.retrace asked) := by
  induction asked with
  | nil => exact same
  | cons entry past ih => exact ih.ask entry

/-- What has been written down since tells how the bus and our side of the lines came to be. -/
structure Retraces (first : Probe β) (asked : Journal) (last : Probe β) : Prop where
  journal : last.journal = asked ++ first.journal
  side : SameSide (first.retrace asked) last

def Retraced (first last : Probe β) : Prop := ∃ asked, first.Retraces asked last

theorem Retraced.trans (one : Retraced first middle) (two : Retraced middle last) :
    Retraced first last := by
  obtain ⟨early, journal, side⟩ := one
  obtain ⟨late, journal', side'⟩ := two
  refine ⟨late ++ early, ?_, ?_⟩
  · rw [journal', journal, List.append_assoc]
  · rw [retrace_append]
    exact (side.retrace late).trans side'

theorem retraced_aside (bus : last.bus = first.bus) (lines : last.lines = first.lines)
    (journal : last.journal = first.journal) : Retraced first last :=
  ⟨[], journal, bus, lines⟩

theorem Retraced.refl (probe : Probe β) : Retraced probe probe := retraced_aside rfl rfl rfl

theorem retraced_note (probe : Probe β) {entry : Entry}
    (silent : probe.ask entry = probe) : Retraced probe (probe.note entry) := by
  refine ⟨[entry], rfl, ?_⟩
  change SameSide (probe.ask entry) (probe.note entry)
  rw [silent]
  exact ⟨rfl, rfl⟩

theorem retraced_called {probe asking : Probe β} (journal : asking.journal = probe.journal)
    (entry : Entry) (bus : β) (reached : SameSide (probe.ask entry) (asking.called entry bus)) :
    Retraced probe (asking.called entry bus) := by
  let moves := (LineBus.moves bus).extract (LineBus.moves asking.bus).size (LineBus.moves bus).size
  refine ⟨(moves.toList.map Entry.moved).reverse ++ [entry], ?_, ?_⟩
  · rw [← List.append_cons, ← journal]
    rfl
  · have moved : (probe.ask entry).retrace (moves.toList.map Entry.moved).reverse =
        probe.ask entry := by
      rw [← List.map_reverse]
      induction moves.toList.reverse with
      | nil => rfl
      | cons move rest ih => exact ih
    rw [retrace_append]
    exact moved.symm ▸ reached

theorem retraced_drive (probe : Probe β) (line : Line) (level : Bool) :
    Retraced probe (probe.drive line level).state := by
  have reached : SameSide (probe.ask (.drove line level)) (probe.drive line level).state :=
    ⟨rfl, rfl⟩
  have journal : ({ probe with lines := probe.lines.setWeak line level } : Probe β).journal =
      probe.journal := rfl
  unfold drive at reached ⊢
  rw [Outcome.state_mapState] at reached ⊢
  exact retraced_called journal (.drove line level) _ reached

theorem retraced_wait (probe : Probe β) (kind : WaitKind) :
    Retraced probe (probe.wait kind).state := by
  have reached : SameSide (probe.ask (.waited kind)) (probe.wait kind).state := ⟨rfl, rfl⟩
  unfold wait at reached ⊢
  rw [Outcome.state_mapState] at reached ⊢
  exact retraced_called rfl _ _ reached

theorem retraced_andThen {outcome : Outcome (Probe β) α}
    {next : α → Probe β → Outcome (Probe β) γ} (start : Retraced first outcome.state)
    (further : ∀ value middle, Retraced middle (next value middle).state) :
    Retraced first (outcome.andThen next).state :=
  Outcome.state_andThen (motive := Retraced first) start
    fun value middle early => early.trans (further value middle)

theorem retraced_refreshLine (probe : Probe β) (line : Line) :
    Retraced probe (probe.refreshLine line).state := by
  unfold refreshLine
  split
  · exact .refl probe
  · exact .refl probe
  · exact probe.retraced_drive line _

theorem retraced_refresh (probe : Probe β) : Retraced probe probe.refresh.state :=
  retraced_andThen (probe.retraced_refreshLine .clock) fun _ clock =>
    clock.retraced_refreshLine .data

theorem retraced_releaseWhenDue (probe : Probe β) :
    Retraced probe probe.releaseWhenDue.state := by
  unfold releaseWhenDue
  split
  · refine retraced_andThen (probe.retraced_drive .clock true) fun _ free => ?_
    have released : Retraced free { free with stretch := free.stretch.release } :=
      retraced_aside rfl rfl rfl
    exact released.trans (retraced_note _ rfl)
  · exact .refl probe

theorem retraced_wake (probe : Probe β) (kind : WaitKind) :
    Retraced probe ((probe.wait kind).andThen fun _ probe => probe.refresh).state :=
  retraced_andThen (probe.retraced_wait kind) fun _ woken => woken.retraced_refresh

/-- What a run waits for an edge with, before it refreshes the lines. -/
def wakeUp (probe : Probe β) : Outcome (Probe β) Unit :=
  if probe.stretch.isPending then
    (probe.wait .cycle).andThen fun _ probe => probe.releaseWhenDue
  else probe.wait .change

theorem pause_eq_wakeUp (probe : Probe β) :
    probe.pause = probe.wakeUp.andThen fun _ probe => probe.refresh := rfl

theorem retraced_wakeUp (probe : Probe β) : Retraced probe probe.wakeUp.state := by
  unfold wakeUp
  split
  · exact retraced_andThen (probe.retraced_wait .cycle) fun _ late => late.retraced_releaseWhenDue
  · exact probe.retraced_wait .change

theorem retraced_pause (probe : Probe β) : Retraced probe probe.pause.state := by
  rw [pause_eq_wakeUp]
  exact retraced_andThen probe.retraced_wakeUp fun _ woken => woken.retraced_refresh

theorem retraced_awaitIdle (probe : Probe β) : Retraced probe probe.awaitIdle.state := by
  fun_induction awaitIdle probe with
  | case1 probe => exact .refl probe
  | case2 probe => exact retraced_aside rfl rfl rfl
  | case3 probe sight look busy error woken failed =>
    have wake := probe.retraced_wake .change
    rwa [failed] at wake
  | case4 probe sight look busy _ woken waited ih =>
    have wake := probe.retraced_wake .change
    rw [waited] at wake
    exact wake.trans ih

theorem retraced_settle (probe : Probe β) (time : Nat) :
    Retraced probe (probe.settle time).state := by
  refine retraced_andThen (probe.retraced_drive .clock true) fun _ clock => ?_
  refine retraced_andThen (clock.retraced_drive .data true) fun _ data => ?_
  exact retraced_andThen (data.retraced_wait _) fun _ late => late.retraced_awaitIdle

theorem retraced_of_starts (starts : Starts first last) : Retraced first last := by
  induction starts with
  | @free clock data clockFree dataFree =>
    have one := first.retraced_drive .clock true
    have two := clock.retraced_drive .data true
    rw [clockFree] at one
    rw [dataFree] at two
    exact one.trans two
  | @settled before after time _ waited ih =>
    have wait := before.retraced_wait (.instant time)
    rw [waited] at wait
    exact ih.trans wait
  | @woken before after _ waited ih =>
    have wake := before.retraced_wake .change
    rw [waited] at wake
    exact ih.trans wake

end Probe

namespace Checker

variable {β : Type} [LineBus β]

open Probe (Retraced)

theorem retraced_andThen {first : Checker β} {outcome : Outcome (Checker β) α}
    {next : α → Checker β → Outcome (Checker β) γ}
    (start : Retraced first.probe outcome.state.probe)
    (further : ∀ value middle, Retraced middle.probe (next value middle).state.probe) :
    Retraced first.probe (outcome.andThen next).state.probe :=
  Outcome.state_andThen (motive := fun after => Retraced first.probe after.probe) start
    fun value middle early => early.trans (further value middle)

theorem retraced_report (checker : Checker β) (notes : List Note) :
    Retraced checker.probe (checker.report notes).state.probe := by
  induction notes generalizing checker with
  | nil => exact .refl _
  | cons note rest ih =>
    cases note with
    | overflow => exact .refl _
    | found finding =>
      have told := ih (checker.note (.recorded ⟨checker.now, checker.protocol.phase, finding⟩))
      exact (Probe.retraced_note checker.probe rfl).trans told

theorem retraced_drive (checker : Checker β) (line : Line) (level : Bool) :
    Retraced checker.probe (checker.drive line level).state.probe := by
  unfold drive
  rw [Outcome.state_mapState]
  exact checker.probe.retraced_drive line level

theorem retraced_driveData (checker : Checker β) (drive? : Option Bool) :
    Retraced checker.probe (checker.driveData drive?).state.probe := by
  cases drive? with
  | none => exact .refl _
  | some level => exact checker.retraced_drive .data level

theorem retraced_enter (checker : Checker β) (sight : Sight) (phase : Phase) :
    Retraced checker.probe (checker.enter sight phase).state.probe := by
  unfold enter
  dsimp only
  generalize checker.protocol.enter (checker.view sight) phase = arrival
  have noted : Retraced checker.probe
      (checker.probe.note (.entered checker.protocol.phase phase checker.now)) :=
    checker.probe.retraced_note rfl
  have told := retraced_report ({ checker.note
    (.entered checker.protocol.phase phase checker.now) with
      protocol := arrival.protocol } : Checker β) arrival.notes
  refine retraced_andThen (noted.trans told) fun _ told => ?_
  exact retraced_andThen (told.retraced_driveData _) fun _ _ => .refl _

theorem retraced_follow (checker : Checker β) (sight : Sight) (phase : Phase) :
    Retraced checker.probe (checker.follow sight phase).state.probe := by
  refine retraced_andThen (checker.retraced_enter sight phase) fun forced? middle => ?_
  cases forced? with
  | none => exact .refl _
  | some forced => exact retraced_andThen (middle.retraced_enter sight forced) fun _ _ => .refl _

theorem retraced_clockEdge (checker : Checker β) (change : Change) :
    Retraced checker.probe (checker.clockEdge change).state.probe := by
  unfold clockEdge
  split
  case isFalse => exact .refl _
  case isTrue =>
    unfold clockFell
    dsimp only
    generalize begun : ({ checker with
      protocol := { checker.protocol with meter := checker.protocol.meter.clockFell change.time }
      probe := { checker.probe with stretch := checker.probe.stretch.begin change.time } } :
        Checker β) = measured
    have start : Retraced checker.probe measured.probe := by
      rw [← begun]
      exact Probe.retraced_aside rfl rfl rfl
    split
    case isFalse => exact start
    case isTrue =>
      refine retraced_andThen (start.trans (measured.retraced_drive .clock false)) fun _ low => ?_
      exact low.probe.retraced_note rfl

theorem retraced_react (checker : Checker β) (change : Change) :
    Retraced checker.probe (checker.react change).state.probe := by
  refine retraced_andThen (checker.retraced_report _) fun _ judged => ?_
  refine retraced_andThen (judged.retraced_clockEdge change) fun _ clocked => ?_
  exact retraced_andThen (clocked.retraced_report _) fun _ told => told.retraced_follow _ _

theorem exists_retraced_turn (checker : Checker β) :
    ∃ outcome : Outcome (Checker β) Unit, checker.turn = outcome.verdict ∧
      Retraced checker.probe outcome.state.probe := by
  cases look : checker.probe.look with
  | error error => exact ⟨.fail error checker, turn_of_missing look, .refl _⟩
  | ok sight =>
    cases seen : checker.probe.detector.edge? checker.probe.lines sight with
    | some edge =>
      have committed : Retraced checker.probe (checker.probe.commit sight edge) := by
        refine Retraced.trans ?_ (Probe.retraced_note _ rfl)
        exact Probe.retraced_aside rfl rfl rfl
      have reacted := retraced_react
        ({ checker with probe := checker.probe.commit sight edge } : Checker β) ⟨edge, sight⟩
      exact ⟨_, turn_of_edge look seen, committed.trans reacted⟩
    | none =>
      refine ⟨_, turn_of_pause look seen, ?_⟩
      rw [Outcome.state_mapState]
      exact checker.probe.retraced_pause

theorem retraced_turns {ready between : Checker β} {n : Nat} (run : ready.turns n = .ok between) :
    Retraced ready.probe between.probe := by
  refine turns_induct (motive := fun between => Retraced ready.probe between.probe) (.refl _)
    (fun {before next} turned early => ?_) run
  obtain ⟨outcome, same, retraced⟩ := before.exists_retraced_turn
  have through : outcome = .ok () next := Outcome.eq_ok_of_verdict (same.symm.trans turned)
  rw [through] at retraced
  exact early.trans retraced

theorem retraced_watch (checker : Checker β) :
    Retraced checker.probe checker.watch.2.probe := by
  induction checker using turn_induct with
  | further checker ih =>
    obtain ⟨outcome, turned, retraced⟩ := checker.exists_retraced_turn
    rw [watch_turn, turned]
    cases outcome with
    | ok _ next => exact retraced.trans (ih next turned)
    | fail error stopped => exact retraced

theorem retraced_startUp (checker : Checker β) :
    Retraced checker.probe checker.startUp.state.probe := by
  unfold startUp
  refine retraced_andThen ?_ fun _ _ => Probe.retraced_aside rfl rfl rfl
  rw [Outcome.state_mapState]
  have noted : Retraced checker.probe (checker.probe.note (.started checker.config)) :=
    checker.probe.retraced_note rfl
  exact noted.trans (Probe.retraced_settle _ _)

/-- The calls of a whole run, made again, lead to the bus and to our side of the lines as the run
leaves them. -/
theorem retraced_run (checker : Checker β) : Retraced checker.probe checker.run.2.probe := by
  have started := checker.retraced_startUp
  rw [run_eq_stop]
  refine Retraced.trans ?_ (Probe.retraced_note _ rfl)
  unfold stop
  cases idle : checker.startUp with
  | fail error stopped => rwa [idle] at started
  | ok _ ready =>
    rw [idle] at started
    exact started.trans ready.retraced_watch

def afterRuns : Nat → Checker β → Checker β
  | 0, checker => checker
  | n + 1, checker => (afterRuns n checker).run.2

theorem retraced_afterRuns (checker : Checker β) (n : Nat) :
    Retraced checker.probe (checker.afterRuns n).probe := by
  induction n with
  | zero => exact .refl _
  | succ n ih => exact ih.trans (checker.afterRuns n).retraced_run

end Checker
end TwoWire
