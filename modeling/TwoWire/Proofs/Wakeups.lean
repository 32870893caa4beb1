import TwoWire.Proofs.Endings
import TwoWire.Proofs.Forward
import TwoWire.Proofs.Steady

/-! How often a run is woken. Each turn that waits takes something from an allowance that no answer
to an edge adds to (`wakeups_of_run`). -/

namespace TwoWire

def Entry.isWait : Entry → Bool
  | .waited _ => true
  | _ => false

/-- How often the bus has been waited for, with or without success. -/
def Journal.wakeups (journal : Journal) : Nat := journal.countP Entry.isWait

/-- Waiting for an instant adds nothing to what the bus has left to do. -/
def LineBus.Frugal (β : Type) [LineBus β] : Prop :=
  ∀ {bus after : β} {time : Nat}, LineBus.wait bus (.instant time) = .ok () after →
    LineBus.work after ≤ LineBus.work bus

namespace ClockStretch

theorem duration_begin (stretch : ClockStretch) (time : Nat) :
    (stretch.begin time).duration = stretch.duration := by
  unfold begin
  split <;> rfl

theorem remaining_begin_le (stretch : ClockStretch) (time : Nat) :
    (stretch.begin time).remaining time ≤ stretch.remaining time + stretch.duration + 1 := by
  unfold begin
  split
  · have saturated : Time.saturate (time + stretch.duration) ≤ time + stretch.duration :=
      Nat.min_le_left ..
    unfold remaining
    dsimp only
    omega
  · omega

theorem remaining_anti (stretch : ClockStretch) {early late : Nat} (later : early ≤ late) :
    stretch.remaining late ≤ stretch.remaining early := by
  unfold remaining
  split
  · exact Nat.le_refl _
  · omega

end ClockStretch

namespace Probe

variable {β : Type}

def wakeups (probe : Probe β) : Nat := probe.journal.wakeups

/-- What reporting and driving leave as they were. -/
structure Prompt (before after : Probe β) : Prop where
  stretch : after.stretch = before.stretch
  wakeups : after.wakeups = before.wakeups

theorem Prompt.trans {a b c : Probe β} (first : Prompt a b) (second : Prompt b c) : Prompt a c where
  stretch := second.stretch.trans first.stretch
  wakeups := second.wakeups.trans first.wakeups

theorem prompt_note (probe : Probe β) (entry : Entry) (prompt : entry.isWait = false) :
    Prompt probe (probe.note entry) where
  stretch := rfl
  wakeups := List.countP_cons_of_neg (by rw [prompt]; exact Bool.false_ne_true)

theorem prompt_andThen {first : Probe β} {outcome : Outcome (Probe β) α}
    {next : α → Probe β → Outcome (Probe β) γ} (start : Prompt first outcome.state)
    (further : ∀ value middle, Prompt middle (next value middle).state) :
    Prompt first (outcome.andThen next).state :=
  Outcome.state_andThen (motive := Prompt first) start
    fun value middle early => early.trans (further value middle)

variable [LineBus β]

theorem countP_called (probe : Probe β) {p : Entry → Bool}
    (unmoved : ∀ transition, p (.moved transition) = false) (entry : Entry) (bus : β) :
    (probe.called entry bus).journal.countP p =
      probe.journal.countP p + if p entry then 1 else 0 := by
  have moves (fresh : List Transition) : (fresh.map Entry.moved).reverse.countP p = 0 := by
    rw [List.countP_eq_zero]
    intro moved mem
    obtain ⟨transition, -, rfl⟩ := List.mem_map.mp (List.mem_reverse.mp mem)
    simp [unmoved]
  change List.countP p (_ ++ entry :: probe.journal) = _
  rw [List.countP_append, moves, List.countP_cons, Nat.zero_add]

theorem wakeups_called (probe : Probe β) (entry : Entry) (bus : β) :
    (probe.called entry bus).wakeups = probe.wakeups + if entry.isWait then 1 else 0 :=
  probe.countP_called (fun _ => rfl) entry bus

theorem prompt_drive (probe : Probe β) (line : Line) (level : Bool) :
    Prompt probe (probe.drive line level).state where
  stretch := probe.stretch_drive line level
  wakeups := by
    unfold drive
    rw [Outcome.state_mapState]
    exact wakeups_called { probe with lines := probe.lines.setWeak line level } _ _

theorem prompt_refreshLine (probe : Probe β) (line : Line) :
    Prompt probe (probe.refreshLine line).state := by
  unfold refreshLine
  split
  · exact ⟨rfl, rfl⟩
  · exact ⟨rfl, rfl⟩
  · exact prompt_drive ..

theorem prompt_refresh (probe : Probe β) : Prompt probe probe.refresh.state :=
  prompt_andThen (probe.prompt_refreshLine .clock) fun _ middle => middle.prompt_refreshLine .data

theorem wakeups_wait (probe : Probe β) (kind : WaitKind) :
    (probe.wait kind).state.wakeups = probe.wakeups + 1 := by
  unfold wait
  rw [Outcome.state_mapState]
  exact wakeups_called probe (.waited kind) _

theorem wakeups_releaseWhenDue (probe : Probe β) :
    probe.releaseWhenDue.state.wakeups = probe.wakeups := by
  unfold releaseWhenDue
  split
  case isFalse => rfl
  case isTrue =>
    refine Outcome.state_andThen (motive := fun after : Probe β => after.wakeups = probe.wakeups)
      (probe.prompt_drive .clock true).wakeups fun _ free same => ?_
    exact (prompt_note { free with stretch := free.stretch.release } _ rfl).wakeups.trans same

theorem wakeups_pause (probe : Probe β) : probe.pause.state.wakeups = probe.wakeups + 1 := by
  unfold pause
  dsimp only
  refine Outcome.state_andThen
    (motive := fun after : Probe β => after.wakeups = probe.wakeups + 1) ?_
    fun _ woken waited => (woken.prompt_refresh).wakeups.trans waited
  split
  case isFalse => exact probe.wakeups_wait .change
  case isTrue =>
    exact Outcome.state_andThen (motive := fun after : Probe β => after.wakeups = probe.wakeups + 1)
      (probe.wakeups_wait .cycle)
      fun _ woken waited => woken.wakeups_releaseWhenDue.trans waited

/-- The three ways to be woken: by a change, or at the end of a cycle, when the clock is let go if
that is due. -/
inductive Wakes (before after : Probe β) : Prop
  | change {middle : Probe β} (free : before.stretch.isPending = false)
      (waited : before.wait .change = .ok () middle) (refreshed : Refreshed middle after)
  | held {middle : Probe β} (pending : before.stretch.isPending = true)
      (waited : before.wait .cycle = .ok () middle)
      (early : middle.stretch.isDue middle.now = false) (refreshed : Refreshed middle after)
  | released {middle free : Probe β} (pending : before.stretch.isPending = true)
      (waited : before.wait .cycle = .ok () middle)
      (due : middle.stretch.isDue middle.now = true)
      (driven : middle.drive .clock true = .ok () free)
      (refreshed : Refreshed
        ({ free with stretch := free.stretch.release }.note (.stretchEnded free.now)) after)
      (noted : ∃ late, after.journal = late ++ .stretchEnded free.now :: free.journal)

theorem wakes_of_pause {before after : Probe β} (paused : before.pause = .ok () after) :
    Wakes before after := by
  obtain ⟨_, middle, woken, refreshing⟩ := Outcome.of_andThen paused
  have refreshed := middle.refreshed_refresh
  obtain ⟨fresh, noted, -⟩ := middle.silent_refresh
  rw [refreshing] at refreshed noted
  split at woken
  case isFalse free => exact .change (Bool.eq_false_of_not_eq_true free) woken refreshed
  case isTrue pending =>
    obtain ⟨_, late, waited, releasing⟩ := Outcome.of_andThen woken
    unfold releaseWhenDue at releasing
    split at releasing
    case isFalse early =>
      cases releasing
      exact .held pending waited (Bool.eq_false_of_not_eq_true early) refreshed
    case isTrue due =>
      obtain ⟨_, free, driven, releasing⟩ := Outcome.of_andThen releasing
      cases releasing
      exact .released pending waited due driven refreshed ⟨fresh, noted⟩

theorem stretch_of_wakes {before after : Probe β} (wakes : Wakes before after) :
    after.stretch = before.stretch ∨ after.stretch = before.stretch.release := by
  have kept {middle : Probe β} {kind : WaitKind} (waited : before.wait kind = .ok () middle) :
      middle.stretch = before.stretch := by
    obtain ⟨bus, -, rfl⟩ := wait_ok waited
    rfl
  cases wakes with
  | change _ waited refreshed => exact .inl (refreshed.stretch.trans (kept waited))
  | held _ waited _ refreshed => exact .inl (refreshed.stretch.trans (kept waited))
  | @released middle free _ waited _ driven refreshed _ =>
    refine .inr (refreshed.stretch.trans ?_)
    have same := middle.stretch_drive .clock true
    rw [driven] at same
    exact congrArg ClockStretch.release (same.trans (kept waited))

theorem remaining_of_pause (forward : LineBus.Forward β) {before after : Probe β}
    (paused : before.pause = .ok () after) :
    after.stretch.remaining after.now ≤ before.stretch.remaining before.now := by
  have later := before.now_pause forward
  rw [paused] at later
  rcases stretch_of_wakes (wakes_of_pause paused) with same | released
  · rw [same]
    exact before.stretch.remaining_anti later
  · rw [released]
    exact Nat.zero_le _

theorem falls_le_one (probe : Probe β) : probe.falls ≤ 1 := by
  unfold falls
  split <;> omega

/-- What a run has left of wake-ups, were the bus not to fail it. -/
def allowance (probe : Probe β) : Nat :=
  (probe.stretch.duration + 2) * LineBus.work probe.bus +
    (probe.stretch.duration + 1) * probe.falls + probe.stretch.remaining probe.now

theorem duration_of_wakes {before after : Probe β} (wakes : Wakes before after) :
    after.stretch.duration = before.stretch.duration := by
  rcases stretch_of_wakes wakes with same | released
  · rw [same]
  · rw [released]
    rfl

theorem falls_of_idled {before after : Probe β} (quiet : ∀ line, before.differs line = false)
    (idled : Idled before after) : after.falls = 0 := by
  unfold falls
  cases differs : after.differs .clock with
  | false => rfl
  | true =>
    obtain ⟨-, high⟩ := idled.rise quiet differs
    unfold Probe.differs at differs
    rw [high] at differs
    unfold EdgeDetector.sample at differs
    cases level : after.detector.clock.level with
    | false => rfl
    | true =>
      rw [level] at differs
      cases differs

/-- A wake-up is paid for: by work off the bus, or else by time off the stretch. -/
theorem allowance_pause (forward : LineBus.Forward β) {before after : Probe β}
    (quiet : ∀ line, before.differs line = false) (paused : before.pause = .ok () after) :
    after.allowance < before.allowance := by
  have remaining := remaining_of_pause forward paused
  have duration := duration_of_wakes (wakes_of_pause paused)
  have calm : before.falls = 0 := Checker.falls_eq_zero (quiet .clock)
  unfold allowance
  rw [duration, calm]
  rcases pause_cases paused with less | idled
  · have falls := Nat.mul_le_mul_left (before.stretch.duration + 1) after.falls_le_one
    have work := Nat.mul_le_mul_left (before.stretch.duration + 2) (Nat.succ_le_of_lt less)
    rw [Nat.mul_succ] at work
    omega
  · rw [falls_of_idled quiet idled]
    have work := Nat.mul_le_mul_left (before.stretch.duration + 2) idled.work
    have less := idled.remaining
    omega

theorem falls_awaitIdle {before idle : Probe β} (h : before.awaitIdle = .ok () idle) :
    idle.falls = 0 := by
  fun_induction awaitIdle before with
  | case1 => cases h
  | case2 probe sight look high =>
    cases h
    refine Checker.falls_eq_zero ?_
    have level := probe.level?_of_look look .clock
    rw [(Bool.and_eq_true_iff.mp high).1] at level
    change (probe.level? .clock == some false) = false
    rw [level]
    rfl
  | case3 => cases h
  | case4 _ _ _ _ _ _ _ ih => exact ih h

theorem wakeups_wake (probe : Probe β) :
    ((probe.wait .change).andThen fun _ probe => probe.refresh).state.wakeups =
      probe.wakeups + 1 :=
  Outcome.state_andThen (motive := fun after : Probe β => after.wakeups = probe.wakeups + 1)
    (probe.wakeups_wait .change) fun _ woken waited => (woken.prompt_refresh).wakeups.trans waited

theorem wakeups_awaitIdle (probe : Probe β) :
    probe.awaitIdle.state.wakeups ≤ probe.wakeups + LineBus.work probe.bus + 1 ∧
      ∀ idle, probe.awaitIdle = .ok () idle →
        idle.wakeups + LineBus.work idle.bus ≤ probe.wakeups + LineBus.work probe.bus ∧
          LineBus.work idle.bus ≤ LineBus.work probe.bus := by
  fun_induction awaitIdle probe with
  | case1 => exact ⟨Nat.le_succ_of_le (Nat.le_add_right _ _), fun idle h => by cases h⟩
  | case2 probe =>
    refine ⟨Nat.le_succ_of_le (Nat.le_add_right _ _), ?_⟩
    intro idle same
    cases same
    exact ⟨Nat.le_refl _, Nat.le_refl _⟩
  | case3 probe sight look busy error woken failed =>
    have waits := probe.wakeups_wake
    rw [failed] at waits
    refine ⟨?_, fun idle h => by cases h⟩
    change woken.wakeups ≤ _
    change woken.wakeups = _ at waits
    omega
  | case4 probe sight look busy _ woken waited ih =>
    have waits := probe.wakeups_wake
    rw [waited] at waits
    change woken.wakeups = _ at waits
    have less := wait_change_refresh_work waited
    obtain ⟨most, through⟩ := ih
    refine ⟨by omega, fun idle h => ?_⟩
    have paid := through idle h
    constructor <;> omega

theorem wakeups_settle (frugal : LineBus.Frugal β) (probe : Probe β) (time : Nat) :
    (probe.settle time).state.wakeups ≤ probe.wakeups + LineBus.work probe.bus + 2 ∧
      ∀ idle, probe.settle time = .ok () idle →
        idle.wakeups + LineBus.work idle.bus ≤ probe.wakeups + LineBus.work probe.bus + 1 ∧
          LineBus.work idle.bus ≤ LineBus.work probe.bus := by
  unfold settle
  have first := (probe.prompt_drive .clock true).wakeups
  have work := (probe.still_drive .clock true).work
  cases clockFree : probe.drive .clock true with
  | fail error refused =>
    rw [clockFree] at first
    refine ⟨?_, fun idle h => by cases h⟩
    change refused.wakeups ≤ _
    change refused.wakeups = _ at first
    omega
  | ok _ clock =>
    rw [clockFree] at first work
    change clock.wakeups = _ at first
    change LineBus.work clock.bus = _ at work
    rw [Outcome.andThen_ok, ← first, ← work]
    have second := (clock.prompt_drive .data true).wakeups
    have work := (clock.still_drive .data true).work
    cases dataFree : clock.drive .data true with
    | fail error refused =>
      rw [dataFree] at second
      refine ⟨?_, fun idle h => by cases h⟩
      change refused.wakeups ≤ _
      change refused.wakeups = _ at second
      omega
    | ok _ data =>
      rw [dataFree] at second work
      change data.wakeups = _ at second
      change LineBus.work data.bus = _ at work
      rw [Outcome.andThen_ok, ← second, ← work]
      have waits := data.wakeups_wait (.instant time)
      cases waited : data.wait (.instant time) with
      | fail error stopped =>
        rw [waited] at waits
        refine ⟨?_, fun idle h => by cases h⟩
        change stopped.wakeups ≤ _
        change stopped.wakeups = _ at waits
        omega
      | ok _ late =>
        rw [waited] at waits
        change late.wakeups = _ at waits
        obtain ⟨bus, reached, rfl⟩ := wait_ok waited
        have less := frugal reached
        change LineBus.work (data.called (.waited (.instant time)) bus).bus ≤ _ at less
        obtain ⟨most, through⟩ := (data.called (.waited (.instant time)) bus).wakeups_awaitIdle
        rw [Outcome.andThen_ok]
        refine ⟨by omega, fun idle h => ?_⟩
        have paid := through idle h
        constructor <;> omega

structure Untouched (before after : Probe β) : Prop where
  stretch : after.stretch = before.stretch
  lines : after.lines = before.lines

omit [LineBus β] in
theorem Untouched.trans {a b c : Probe β} (first : Untouched a b) (second : Untouched b c) :
    Untouched a c where
  stretch := second.stretch.trans first.stretch
  lines := second.lines.trans first.lines

theorem untouched_wait (probe : Probe β) (kind : WaitKind) :
    Untouched probe (probe.wait kind).state := by
  unfold wait
  rw [Outcome.state_mapState]
  exact ⟨rfl, rfl⟩

theorem untouched_refresh (probe : Probe β) : Untouched probe probe.refresh.state :=
  ⟨probe.refreshed_refresh.stretch, probe.refreshed_refresh.lines⟩

theorem untouched_wake (probe : Probe β) :
    Untouched probe ((probe.wait .change).andThen fun _ probe => probe.refresh).state :=
  Outcome.state_andThen (motive := Untouched probe) (probe.untouched_wait .change)
    fun _ woken waited => waited.trans woken.untouched_refresh

theorem untouched_awaitIdle (probe : Probe β) : Untouched probe probe.awaitIdle.state := by
  fun_induction awaitIdle probe with
  | case1 => exact ⟨rfl, rfl⟩
  | case2 => exact ⟨rfl, rfl⟩
  | case3 probe sight look busy error woken failed =>
    have woke := probe.untouched_wake
    rw [failed] at woke
    exact woke
  | case4 probe sight look busy _ woken waited ih =>
    have woke := probe.untouched_wake
    rw [waited] at woke
    exact woke.trans ih

theorem released_settle (probe : Probe β) (time : Nat) :
    (probe.settle time).state.stretch = probe.stretch ∧
      (probe.settle time).state.lines.weakClock = true := by
  let Free : Probe β → Prop := fun after =>
    after.stretch = probe.stretch ∧ after.lines.weakClock = true
  have kept {before after : Probe β} (free : Free before) (same : Untouched before after) :
      Free after :=
    ⟨same.stretch.trans free.1, (congrArg Lines.weakClock same.lines).trans free.2⟩
  refine Outcome.state_andThen (motive := Free) ?_ fun _ clock free => ?_
  · refine ⟨probe.stretch_drive .clock true, ?_⟩
    rw [lines_drive]
    rfl
  refine Outcome.state_andThen (motive := Free) ?_ fun _ data free => ?_
  · refine ⟨(clock.stretch_drive .data true).trans free.1, ?_⟩
    rw [lines_drive]
    exact free.2
  exact Outcome.state_andThen (motive := Free) (kept free (data.untouched_wait _))
    fun _ late free => kept free late.untouched_awaitIdle

end Probe

namespace Checker

variable {β : Type} [LineBus β]

open Probe (Prompt)

omit [LineBus β] in
theorem prompt_andThen {first : Probe β} {outcome : Outcome (Checker β) α}
    {next : α → Checker β → Outcome (Checker β) γ} (start : Prompt first outcome.state.probe)
    (further : ∀ value (middle : Checker β), Prompt middle.probe (next value middle).state.probe) :
    Prompt first (outcome.andThen next).state.probe :=
  Outcome.state_andThen (motive := fun after : Checker β => Prompt first after.probe) start
    fun value middle early => early.trans (further value middle)

theorem prompt_report (checker : Checker β) (notes : List Note) :
    Prompt checker.probe (checker.report notes).state.probe := by
  induction notes generalizing checker with
  | nil => exact ⟨rfl, rfl⟩
  | cons note rest ih =>
    cases note with
    | overflow => exact ⟨rfl, rfl⟩
    | found finding =>
      exact (checker.probe.prompt_note (.recorded
        ⟨checker.now, checker.protocol.phase, finding⟩) rfl).trans (ih (checker.note _))

theorem prompt_drive (checker : Checker β) (line : Line) (level : Bool) :
    Prompt checker.probe (checker.drive line level).state.probe := by
  unfold drive
  rw [Outcome.state_mapState]
  exact checker.probe.prompt_drive line level

theorem prompt_driveData (checker : Checker β) (drive? : Option Bool) :
    Prompt checker.probe (checker.driveData drive?).state.probe := by
  cases drive? with
  | none => exact ⟨rfl, rfl⟩
  | some level => exact checker.prompt_drive .data level

theorem prompt_enter (checker : Checker β) (sight : Sight) (phase : Phase) :
    Prompt checker.probe (checker.enter sight phase).state.probe := by
  refine prompt_andThen ?_ fun _ told => prompt_andThen (told.prompt_driveData _)
    fun _ driven => ⟨rfl, rfl⟩
  refine Prompt.trans ?_ (prompt_report _ _)
  exact checker.probe.prompt_note _ rfl

theorem prompt_follow (checker : Checker β) (sight : Sight) (phase : Phase) :
    Prompt checker.probe (checker.follow sight phase).state.probe := by
  refine prompt_andThen (checker.prompt_enter sight phase) fun forced? middle => ?_
  cases forced? with
  | none => exact ⟨rfl, rfl⟩
  | some forced => exact prompt_andThen (middle.prompt_enter sight forced) fun _ _ => ⟨rfl, rfl⟩

theorem wakeups_clockEdge (checker : Checker β) (change : Change) :
    (checker.clockEdge change).state.probe.wakeups = checker.probe.wakeups := by
  unfold clockEdge
  split
  case isFalse => rfl
  case isTrue =>
    unfold clockFell
    dsimp only
    split
    case isFalse => rfl
    case isTrue =>
      refine Outcome.state_andThen
        (motive := fun after : Checker β => after.probe.wakeups = checker.probe.wakeups)
        (prompt_drive _ .clock false).wakeups fun _ low same => ?_
      exact (low.probe.prompt_note _ rfl).wakeups.trans same

theorem wakeups_react (checker : Checker β) (change : Change) :
    (checker.react change).state.probe.wakeups = checker.probe.wakeups := by
  unfold react
  refine Outcome.state_andThen
    (motive := fun after : Checker β => after.probe.wakeups = checker.probe.wakeups)
    (checker.prompt_report _).wakeups fun _ judged same => ?_
  refine Outcome.state_andThen
    (motive := fun after : Checker β => after.probe.wakeups = checker.probe.wakeups)
    ((judged.wakeups_clockEdge change).trans same) fun _ clocked same => ?_
  refine Outcome.state_andThen
    (motive := fun after : Checker β => after.probe.wakeups = checker.probe.wakeups)
    ((clocked.prompt_report _).wakeups.trans same) fun _ told same => ?_
  exact (told.prompt_follow _ _).wakeups.trans same

theorem wakeups_of_commits {before : Checker β} {change : Change} {committed : Probe β}
    (commits : before.probe.Commits change committed) :
    before.turned.probe.wakeups = before.probe.wakeups := by
  have waits := ({ before with probe := committed } : Checker β).wakeups_react change
  rw [← turned_of_commits commits] at waits
  refine waits.trans ?_
  change committed.wakeups = _
  rw [commits.after]
  exact (before.probe.prompt_note _ rfl).wakeups

theorem stretch_of_fell {before after : Checker β} {change : Change} (fell : Fell before change)
    (react : before.react change = .ok () after) :
    after.probe.stretch = before.probe.stretch.begin change.time := by
  have falls : (before.view change.sight).falls change.edge = true := by
    unfold View.falls
    rw [Bool.and_eq_true, decide_eq_true_eq, Bool.not_eq_true']
    exact fell
  have stretch := (answered react).stretch
  rwa [if_pos falls] at stretch

theorem react_or_pause {before next : Checker β} (turned : before.turn = .ok next) :
    (∃ change committed, before.probe.Commits change committed ∧
        ({ before with probe := committed } : Checker β).react change = .ok () next) ∨
      (∀ line, before.probe.differs line = false) ∧
        ∃ woken, before.probe.pause = .ok () woken ∧ next = { before with probe := woken } := by
  rcases turn_cases turned with answered | paused
  · exact .inl answered
  · rcases replied_or_waited turned with ⟨change, committed, commits, -⟩ | waited
    · rw [turn_of_commits commits] at turned
      exact .inl ⟨change, committed, commits, Outcome.eq_ok_of_verdict turned⟩
    · exact .inr ⟨waited.calm, paused⟩

theorem falls_of_fell {before : Checker β} {change : Change} {committed : Probe β}
    (commits : before.probe.Commits change committed)
    (fell : Fell { before with probe := committed } change) : before.probe.falls = 1 := by
  have differs := (Probe.differs_of_edge commits.look commits.edge).1
  rw [show change.edge.line = .clock from fell.1] at differs
  have moved := (moved_of_commits commits).moved
  rw [show change.edge.line = .clock from fell.1] at moved
  change (before.sees change).detector.clock.level = !before.probe.detector.clock.level at moved
  have low : committed.detector.clock.level = false := fell.2
  rw [commits.after] at low
  change (before.sees change).detector.clock.level = false at low
  have high : before.probe.detector.clock.level = true := by
    rw [low] at moved
    exact Bool.not_eq_eq_eq_not.mp moved.symm
  unfold Probe.falls
  rw [differs, high]
  rfl

theorem duration_turn {before next : Checker β} (turned : before.turn = .ok next) :
    next.probe.stretch.duration = before.probe.stretch.duration := by
  rcases react_or_pause turned with ⟨change, committed, commits, react⟩ | ⟨-, woken, paused, rfl⟩
  · have same : committed.stretch = before.probe.stretch := by rw [commits.after]; rfl
    by_cases fell : Fell { before with probe := committed } change
    · have begun := stretch_of_fell fell react
      dsimp only at begun
      rw [begun, ClockStretch.duration_begin, same]
    · have kept := (reacted react).stretch fell
      dsimp only at kept
      rw [kept, same]
  · exact Probe.duration_of_wakes (Probe.wakes_of_pause paused)

theorem allowance_react {before next : Checker β} {change : Change} {committed : Probe β}
    (commits : before.probe.Commits change committed) (turned : before.turn = .ok next)
    (react : ({ before with probe := committed } : Checker β).react change = .ok () next) :
    next.probe.allowance ≤ before.probe.allowance := by
  have reacted := reacted react
  have bus : committed.bus = before.probe.bus := by rw [commits.after]; rfl
  have stretch : committed.stretch = before.probe.stretch := by rw [commits.after]; rfl
  have work : LineBus.work next.probe.bus = LineBus.work before.probe.bus :=
    reacted.still.work.trans (congrArg LineBus.work bus)
  have now : next.probe.now = before.probe.now :=
    reacted.still.now.trans (congrArg LineBus.now bus)
  have calm : next.probe.falls = 0 :=
    falls_eq_zero (reacted.differs_clock (level?_of_commits commits))
  unfold Probe.allowance
  rw [work, now, calm, duration_turn turned]
  by_cases fell : Fell { before with probe := committed } change
  · have begun := stretch_of_fell fell react
    dsimp only at begun
    rw [stretch, show change.time = before.probe.now from Probe.now_of_look commits.look] at begun
    have remaining := before.probe.stretch.remaining_begin_le before.probe.now
    rw [begun, falls_of_fell commits fell]
    omega
  · have kept := reacted.stretch fell
    dsimp only at kept
    rw [kept, stretch]
    omega

theorem wakeups_turn (forward : LineBus.Forward β) {before next : Checker β}
    (turned : before.turn = .ok next) :
    next.probe.wakeups + next.probe.allowance ≤
      before.probe.wakeups + before.probe.allowance := by
  rcases react_or_pause turned with
    ⟨change, committed, commits, react⟩ | ⟨quiet, woken, paused, rfl⟩
  · have waits := wakeups_of_commits commits
    rw [turned_of_turn turned] at waits
    have less := allowance_react commits turned react
    omega
  · have waits := before.probe.wakeups_pause
    rw [paused] at waits
    have less := Probe.allowance_pause forward quiet paused
    change woken.wakeups + woken.allowance ≤ _
    change woken.wakeups = _ at waits
    omega

theorem wakeups_turned (checker : Checker β) :
    checker.turned.probe.wakeups ≤ checker.probe.wakeups + 1 := by
  cases look : checker.probe.look with
  | error error =>
    unfold turned turn
    rw [look]
    exact Nat.le_succ _
  | ok sight =>
    cases seen : checker.probe.detector.edge? checker.probe.lines sight with
    | some edge =>
      have commits : checker.probe.Commits ⟨edge, sight⟩ (checker.probe.commit sight edge) :=
        ⟨look, seen, rfl⟩
      exact Nat.le_succ_of_le (Nat.le_of_eq (wakeups_of_commits commits))
    | none =>
      have waits := checker.probe.wakeups_pause
      unfold turned turn
      rw [look]
      dsimp only
      rw [seen]
      dsimp only
      cases paused : checker.probe.pause <;> rw [paused] at waits <;> exact Nat.le_of_eq waits

theorem wakeups_turns (forward : LineBus.Forward β) {ready between : Checker β} {n : Nat}
    (run : ready.turns n = .ok between) :
    between.probe.wakeups + between.probe.allowance ≤
      ready.probe.wakeups + ready.probe.allowance :=
  turns_induct (motive := fun checker => checker.probe.wakeups + checker.probe.allowance ≤
      ready.probe.wakeups + ready.probe.allowance) (Nat.le_refl _)
    (fun turned early => Nat.le_trans (wakeups_turn forward turned) early) run

theorem wakeups_startUp (frugal : LineBus.Frugal β) (checker : Checker β) :
    checker.startUp.state.probe.wakeups ≤
        checker.probe.wakeups + LineBus.work checker.probe.bus + 2 ∧
      ∀ ready, checker.startUp = .ok () ready →
        ready.probe.wakeups + LineBus.work ready.probe.bus ≤
            checker.probe.wakeups + LineBus.work checker.probe.bus + 1 ∧
          LineBus.work ready.probe.bus ≤ LineBus.work checker.probe.bus := by
  have noted := (checker.probe.prompt_note (.started checker.config) rfl).wakeups
  unfold startUp
  generalize start : (checker.note (.started checker.config)).probe = first
  have waits : first.wakeups = checker.probe.wakeups := start ▸ noted
  have bus : first.bus = checker.probe.bus := start ▸ rfl
  obtain ⟨most, through⟩ := first.wakeups_settle frugal checker.config.settleTime
  rw [← waits, ← bus]
  cases settled : first.settle checker.config.settleTime with
  | fail error stopped =>
    rw [settled] at most
    refine ⟨most, fun ready same => ?_⟩
    cases same
  | ok _ late =>
    rw [settled] at most
    refine ⟨most, fun ready same => ?_⟩
    cases same
    exact through late settled

theorem falls_startUp {checker ready : Checker β} (idle : checker.startUp = .ok () ready) :
    ready.probe.falls = 0 := by
  unfold startUp at idle
  obtain ⟨_, late, settled, same⟩ := Outcome.of_andThen idle
  cases same
  cases settling : (checker.note (.started checker.config)).probe.settle
      checker.config.settleTime with
  | fail error stopped =>
    rw [settling] at settled
    cases settled
  | ok _ probe =>
    rw [settling] at settled
    cases settled
    obtain ⟨_, clock, -, rest⟩ := Outcome.of_andThen settling
    obtain ⟨_, data, -, rest⟩ := Outcome.of_andThen rest
    obtain ⟨_, late, -, awaited⟩ := Outcome.of_andThen rest
    exact Probe.falls_awaitIdle awaited

theorem released_startUp (checker : Checker β) :
    checker.startUp.state.probe.stretch = checker.probe.stretch ∧
      checker.startUp.state.probe.lines.weakClock = true := by
  have settled := (checker.note (.started checker.config)).probe.released_settle
    checker.config.settleTime
  unfold startUp
  cases ended : (checker.note (.started checker.config)).probe.settle
    checker.config.settleTime <;> rw [ended] at settled <;> exact settled

/-- What a bus has left to do bounds the wake-ups of a run. -/
theorem wakeups_of_run (forward : LineBus.Forward β) (frugal : LineBus.Frugal β)
    {checker : Checker β} (free : checker.probe.stretch.deadline? = none) :
    checker.run.2.probe.wakeups ≤ checker.probe.wakeups +
      (checker.probe.stretch.duration + 2) * LineBus.work checker.probe.bus + 2 := by
  have started := checker.wakeups_startUp frugal
  have released := checker.released_startUp.1
  have least : LineBus.work checker.probe.bus ≤
      (checker.probe.stretch.duration + 2) * LineBus.work checker.probe.bus :=
    Nat.le_mul_of_pos_left _ (Nat.succ_pos _)
  cases idle : checker.startUp with
  | fail error stopped =>
    rw [idle] at started
    have waits : checker.run.2.probe.wakeups = stopped.probe.wakeups := by
      unfold run
      rw [idle]
      exact (stopped.probe.prompt_note _ rfl).wakeups
    have most : stopped.probe.wakeups ≤ _ := started.1
    omega
  | ok _ ready =>
    rw [idle] at released
    change ready.probe.stretch = _ at released
    obtain ⟨n, last, run, ends⟩ := exists_turns ready
    have waits : checker.run.2.probe.wakeups = last.turned.probe.wakeups := by
      rw [run_of_startUp idle]
      have turned : last.turned = ready.watch.2 := by
        unfold turned
        rw [ends]
      rw [turned]
      exact (ready.watch.2.probe.prompt_note _ rfl).wakeups
    obtain ⟨early, less⟩ := started.2 ready idle
    have paid := wakeups_turns forward run
    have last := last.wakeups_turned
    have allowance : ready.probe.allowance =
        (checker.probe.stretch.duration + 2) * LineBus.work ready.probe.bus := by
      unfold Probe.allowance ClockStretch.remaining
      rw [released, free, falls_startUp idle]
      rfl
    -- what the start has taken off the bus pays for its own wake-ups
    have split := Nat.mul_le_mul_left (checker.probe.stretch.duration + 1) less
    rw [Nat.succ_mul] at allowance ⊢
    omega

end Checker
end TwoWire
