import TwoWire.Proofs.Finite
import TwoWire.Proofs.Underway

/-! Stretched clocks over a whole run. Between two turns we hold the clock low exactly as long as a
deadline is pending, and it is let go less than a cycle after that (`stretched_in_time`). -/

namespace TwoWire

namespace LineBus

variable {β : Type} [LineBus β]

/-- However the bus is called, to wait for the next cycle takes no longer than `cycle`. -/
def Paced (bus : β) (cycle : Nat) : Prop :=
  ∀ later next, Called bus later → LineBus.wait later .cycle = .ok () next →
    LineBus.now next ≤ LineBus.now later + cycle

end LineBus

namespace Replay

variable {bus after : Replay}

theorem cycle_setPeer (bus : Replay) (id : LineId) (level : Option Bool) :
    (bus.setPeer id level).cycle = bus.cycle := by
  unfold setPeer
  split <;> rfl

theorem now_of_replayTo {time : Nat} {trace : List PeerDrive}
    (replayed : bus.replayTo time trace = .ok () after) :
    after.now ≤ max bus.now time ∧ after.cycle = bus.cycle := by
  induction trace generalizing bus with
  | nil =>
    cases replayed
    exact ⟨Nat.le_refl _, rfl⟩
  | cons entry rest ih =>
    unfold replayTo at replayed
    split at replayed
    case isTrue =>
      cases replayed
      exact ⟨Nat.le_refl _, rfl⟩
    case isFalse late =>
      dsimp only at replayed
      split at replayed
      · cases replayed
      · obtain ⟨now, cycle⟩ := ih replayed
        rw [now_setPeer] at now
        rw [cycle_setPeer] at cycle
        dsimp only at now
        exact ⟨by omega, cycle⟩

theorem now_of_waitCycle (waited : bus.waitCycle = .ok () after) :
    after.now ≤ bus.now + bus.cycle := by
  unfold waitCycle at waited
  dsimp only at waited
  split at waited
  case isFalse => cases waited
  case isTrue =>
    split at waited
    · have now := (now_of_replayTo waited).1
      omega
    · have now := (now_of_replayTo waited).1
      omega

theorem cycle_called {later : Replay} (called : LineBus.Called bus later) :
    later.cycle = bus.cycle := by
  induction called with
  | none => rfl
  | @drive before next id level _ driven ih =>
    change before.drive id level = _ at driven
    unfold drive at driven
    split at driven
    · cases driven
    · cases driven
      unfold setWeak
      split <;> exact ih
  | wait _ waited ih =>
    obtain ⟨time, replayed⟩ := replayTo_of_wait waited
    exact (now_of_replayTo replayed).2.trans ih

theorem paced (bus : Replay) : LineBus.Paced bus bus.cycle := by
  intro later next called waited
  rw [← cycle_called called]
  exact now_of_waitCycle waited

end Replay

namespace Simulation

variable {bus after : Simulation}

theorem now_of_waitCycle (waited : bus.waitCycle = .ok () after) :
    after.now ≤ bus.now + bus.cycle := by
  have cycle : bus.runDue.cycle = bus.cycle := (kin_runDue bus).cycle
  unfold waitCycle at waited
  dsimp only at waited
  split at waited
  · cases waited
    rw [now_runDue]
    exact Nat.le_add_right _ _
  · split at waited
    · cases waited
      rw [now_runDue, now_moveTo, now_runDue, cycle]
      cases bus.runDue.nextWake? with
      | none => simp
      | some wake =>
        simp only [Option.map_some, Option.getD_some]
        omega
    · cases waited

theorem cycle_called {later : Simulation} (called : LineBus.Called bus later) :
    later.cycle = bus.cycle := by
  induction called with
  | none => rfl
  | @drive before next id level _ driven ih =>
    change before.drive id level = _ at driven
    unfold drive at driven
    split at driven
    · cases driven
    · cases driven
      exact (before.kin_hold _ level).cycle.trans ih
  | wait _ waited ih => exact (held_wait waited).kin.cycle.trans ih

theorem paced (bus : Simulation) : LineBus.Paced bus bus.cycle := by
  intro later next called waited
  rw [← cycle_called called]
  exact now_of_waitCycle (ok_of_checkRange waited)

end Simulation

namespace Checker

variable {β : Type} [LineBus β]

open Probe (Acts Refreshed)

theorem stretch_clockEdge (checker : Checker β) {change : Change} (fell : Fell checker change) :
    (checker.clockEdge change).state.probe.stretch = checker.probe.stretch.begin change.time := by
  unfold clockEdge
  rw [if_pos (show _ ∧ _ from fell)]
  unfold clockFell
  dsimp only
  split
  case isFalse => rfl
  case isTrue =>
    exact Outcome.state_andThen (motive := fun after : Checker β =>
        after.probe.stretch = checker.probe.stretch.begin change.time)
      (prompt_drive _ .clock false).stretch fun _ _ same => same

theorem stretch_react {before judged : Checker β} {change : Change} (fell : Fell before change)
    (reported : before.report (before.protocol.edgeNotes (before.view change.sight) change.edge) =
      .ok () judged) :
    (before.react change).state.probe.stretch = before.probe.stretch.begin change.time := by
  have same := report_ok reported
  have stretch : judged.probe.stretch = before.probe.stretch := by rw [same]
  have still : Fell judged change := by
    refine ⟨fell.1, ?_⟩
    rw [same]
    exact fell.2
  unfold react
  rw [reported, Outcome.andThen_ok]
  refine Outcome.state_andThen (motive := fun after : Checker β =>
      after.probe.stretch = before.probe.stretch.begin change.time)
    ((judged.stretch_clockEdge still).trans (by rw [stretch])) fun _ clocked same => ?_
  refine Outcome.state_andThen (motive := fun after : Checker β =>
      after.probe.stretch = before.probe.stretch.begin change.time)
    ((clocked.prompt_report _).stretch.trans same) fun _ told same => ?_
  exact (told.prompt_follow _ _).stretch.trans same

/-- We hold the clock low exactly as long as a deadline is pending, and only if falls are
stretched. -/
structure Matched (checker : Checker β) : Prop where
  pending : checker.probe.stretch.isPending = !checker.probe.lines.weakClock
  enabled : checker.probe.stretch.isPending = true → checker.probe.stretch.isEnabled = true

theorem stretch_answered {before next : Checker β} {change : Change} {committed : Probe β}
    (commits : before.probe.Commits change committed)
    (react : ({ before with probe := committed } : Checker β).react change = .ok () next) :
    next.probe.stretch = (if (before.sees change).falls change.edge then
        before.probe.stretch.begin before.probe.now else before.probe.stretch) ∧
      next.probe.lines.weakClock = (before.probe.lines.weakClock &&
        !((before.sees change).falls change.edge && before.probe.stretch.isEnabled)) := by
  have answered := answered react
  have stretch := answered.stretch
  have lines := congrArg Lines.weakClock answered.lines
  have same : committed.stretch = before.probe.stretch := by rw [commits.after]; rfl
  rw [(lines_answered _ _ _ _).1] at lines
  dsimp only at stretch lines
  rw [view_of_commits commits, same] at stretch lines
  rw [show change.time = before.probe.now from Probe.now_of_look commits.look] at stretch
  exact ⟨stretch, lines⟩

theorem stretch_of_wait {before after : Probe β} {kind : WaitKind}
    (waited : before.wait kind = .ok () after) :
    after.stretch = before.stretch ∧ after.lines = before.lines := by
  obtain ⟨bus, -, rfl⟩ := Probe.wait_ok waited
  exact ⟨rfl, rfl⟩

omit [LineBus β] in
theorem Matched.of_same {before next : Checker β}
    (stretch : next.probe.stretch = before.probe.stretch)
    (weakClock : next.probe.lines.weakClock = before.probe.lines.weakClock)
    (matched : before.Matched) : next.Matched := by
  constructor
  · rw [stretch, weakClock]
    exact matched.pending
  · rw [stretch]
    exact matched.enabled

theorem matched_turn {before next : Checker β} (turned : before.turn = .ok next)
    (matched : before.Matched) : next.Matched := by
  rcases react_or_pause turned with ⟨change, committed, commits, react⟩ | ⟨-, woken, paused, rfl⟩
  · obtain ⟨stretch, weakClock⟩ := stretch_answered commits react
    by_cases begins : (before.sees change).falls change.edge = true ∧
        before.probe.stretch.isEnabled = true
    case pos =>
      obtain ⟨falls, stretches⟩ := begins
      rw [falls, if_pos rfl] at stretch
      rw [falls, stretches, Bool.true_and, Bool.not_true, Bool.and_false] at weakClock
      constructor
      · rw [stretch, weakClock, ClockStretch.isPending_begin stretches]
        rfl
      · intro _
        unfold ClockStretch.isEnabled at stretches ⊢
        rw [stretch, ClockStretch.duration_begin]
        exact stretches
    case neg =>
      rw [← Bool.and_eq_true, Bool.not_eq_true] at begins
      rw [begins, Bool.not_false, Bool.and_true] at weakClock
      refine matched.of_same (stretch.trans ?_) weakClock
      split
      case isFalse => rfl
      case isTrue falls =>
        rw [falls, Bool.true_and] at begins
        exact ClockStretch.begin_of_not_enabled begins _
  · cases Probe.wakes_of_pause paused with
    | change _ waited refreshed | held _ waited _ refreshed =>
      obtain ⟨stretch, lines⟩ := stretch_of_wait waited
      exact matched.of_same (refreshed.stretch.trans stretch)
        (congrArg Lines.weakClock (refreshed.lines.trans lines))
    | @released middle free _ waited due driven refreshed noted =>
      have lines := (Probe.drive_ok driven).2
      constructor
      · rw [refreshed.stretch, refreshed.lines]
        change false = !free.lines.weakClock
        rw [lines]
        rfl
      · rw [refreshed.stretch]
        exact nofun

/-- The clock is held low until a deadline that has not come yet. -/
structure Holding (checker : Checker β) (deadline : Nat) : Prop where
  pending : checker.probe.stretch.deadline? = some deadline
  early : checker.now < deadline
  low : checker.probe.lines.weakClock = false

/-- The run is about to end at a line that is not there. -/
def Unwired (checker : Checker β) : Prop :=
  ∃ id stopped, checker.turn = .error (.unknownLine id, stopped)

/-- A turn that lets the clock go: at `time`, once the bus has been waited for, it is told to leave
the clock high, and the stretch is over. -/
structure LetsGo (before : Checker β) (time : Nat) (next : Checker β) : Prop where
  turned : before.turn = .ok next
  low : before.probe.lines.weakClock = false
  drives : ∃ woken free late, before.probe.wait .cycle = .ok () woken ∧ woken.now = time ∧
    woken.drive .clock true = .ok () free ∧
    next.probe.journal = late ++ .stretchEnded time :: free.journal
  high : next.probe.lines.weakClock = true
  settled : next.probe.stretch.deadline? = none

theorem holding_of_fall {before next : Checker β} (falls : before.FallsNext)
    (turned : before.turn = .ok next) (stretches : before.probe.stretch.isEnabled = true)
    (inRange : before.now + before.probe.stretch.duration < Time.limit) :
    next.Holding (before.now + before.probe.stretch.duration) := by
  rcases react_or_pause turned with ⟨change, committed, commits, react⟩ | ⟨calm, -⟩
  · obtain ⟨stretch, weakClock⟩ := stretch_answered commits react
    rw [(falls_iff_fallsNext commits).mpr falls] at stretch weakClock
    rw [if_pos rfl] at stretch
    rw [stretches, Bool.true_and, Bool.not_true, Bool.and_false] at weakClock
    have now : next.now = before.now := by
      refine (reacted react).still.now.trans ?_
      rw [commits.after]
      rfl
    refine ⟨?_, ?_, weakClock⟩
    · rw [stretch]
      unfold ClockStretch.begin
      rw [if_pos stretches]
      exact congrArg some (Time.saturate_of_lt inRange)
    · rw [now]
      have positive := of_decide_eq_true stretches
      omega
  · obtain ⟨change, committed, commits, -⟩ := falls
    have differs := (Probe.differs_of_edge commits.look commits.edge).1
    rw [calm] at differs
    cases differs

theorem not_isDue {stretch : ClockStretch} {deadline time : Nat}
    (pending : stretch.deadline? = some deadline) :
    stretch.isDue time = false ↔ time < deadline := by
  unfold ClockStretch.isDue
  rw [pending, Option.any_some, decide_eq_false_iff_not, Nat.not_le]

/-- Until the clock falls again a turn either holds it further on or lets it go, no more than a
cycle after the deadline. -/
theorem holding_turn {before next : Checker β} {deadline cycle : Nat}
    (paced : ∀ bus, LineBus.wait before.probe.bus .cycle = .ok () bus →
      LineBus.now bus ≤ before.now + cycle)
    (holding : before.Holding deadline) (unfallen : ¬before.FallsNext)
    (turned : before.turn = .ok next) :
    next.Holding deadline ∨
      ∃ time, before.LetsGo time next ∧ deadline ≤ time ∧ time < deadline + cycle := by
  obtain ⟨pending, early, low⟩ := holding
  rcases react_or_pause turned with ⟨change, committed, commits, react⟩ | ⟨-, woken, paused, rfl⟩
  · obtain ⟨stretch, weakClock⟩ := stretch_answered commits react
    rw [← falls_iff_fallsNext commits, Bool.not_eq_true] at unfallen
    rw [unfallen, Bool.false_and, Bool.not_false, Bool.and_true] at weakClock
    rw [unfallen] at stretch
    have now : next.now = before.now := by
      refine (reacted react).still.now.trans ?_
      rw [commits.after]
      rfl
    exact .inl ⟨by rw [stretch]; exact pending, now ▸ early, weakClock.trans low⟩
  · have wakes := Probe.wakes_of_pause paused
    cases wakes with
    | change free =>
      unfold ClockStretch.isPending at free
      rw [pending] at free
      cases free
    | held _ waited undue refreshed =>
      obtain ⟨stretch, lines⟩ := stretch_of_wait waited
      rw [stretch, not_isDue pending] at undue
      refine .inl ⟨?_, ?_, ?_⟩
      · rw [refreshed.stretch, stretch]
        exact pending
      · exact Nat.lt_of_le_of_lt (Nat.le_of_eq refreshed.still.now) undue
      · rw [refreshed.lines, lines]
        exact low
    | @released middle free _ waited due driven refreshed noted =>
      have stretch := (stretch_of_wait waited).1
      have late : deadline ≤ middle.now := by
        by_contra undue
        rw [stretch, (not_isDue pending).mpr (Nat.not_le.mp undue)] at due
        cases due
      have soon : middle.now ≤ before.now + cycle := by
        obtain ⟨bus, reached, rfl⟩ := Probe.wait_ok waited
        exact paced bus reached
      have now : free.now = middle.now := by
        have still := (middle.still_drive .clock true).now
        rwa [driven] at still
      obtain ⟨after, noted⟩ := noted
      rw [now] at noted
      refine .inr ⟨middle.now, ⟨turned, low, ⟨middle, free, after, waited, rfl, driven, noted⟩,
        ?_, ?_⟩, late, by omega⟩
      · rw [refreshed.lines]
        change free.lines.weakClock = true
        rw [(Probe.drive_ok driven).2]
        rfl
      · rw [refreshed.stretch]
        rfl

variable {β : Type} [LineBus β]

theorem holding_until {first last : Checker β} {deadline cycle n : Nat}
    (paced : LineBus.Paced first.probe.bus cycle) (holding : first.Holding deadline)
    (run : first.turns n = .ok last) :
    (∃ later, first.Unfallen later ∧ (later.FallsNext ∨
        ∃ time after, later.LetsGo time after ∧ deadline ≤ time ∧ time < deadline + cycle)) ∨
      first.Unfallen last ∧ last.Holding deadline := by
  induction n generalizing last with
  | zero =>
    cases run
    exact .inr ⟨.none first, holding⟩
  | succ n ih =>
    obtain ⟨before, run, turned⟩ := exists_of_turns_succ run
    rcases ih run with ended | ⟨unfallen, holding⟩
    · exact .inl ended
    · by_cases falls : before.FallsNext
      · exact .inl ⟨before, unfallen, .inl falls⟩
      · have pace : ∀ bus, LineBus.wait before.probe.bus .cycle = .ok () bus →
            LineBus.now bus ≤ before.now + cycle :=
          fun bus => paced _ bus (Probe.called_of_acts (acts_turns run))
        rcases holding_turn pace holding falls turned with further | ⟨time, letsGo⟩
        · exact .inr ⟨unfallen.turn falls turned, further⟩
        · exact .inl ⟨before, unfallen, .inr ⟨time, last, letsGo⟩⟩

theorem closed_pause (plain : LineBus.Plain β) {before stopped : Probe β}
    (paused : before.pause = .fail .closed stopped) :
    before.stretch.isPending = false ∧ stopped.stretch = before.stretch ∧
      stopped.lines = before.lines := by
  have open_of_cut {probe last : Probe β} (cut : probe.Cut .closed last) : False := by
    rcases cut.reason plain with ⟨_, same⟩ | ⟨_, same⟩ <;> cases same
  rcases Outcome.fail_of_andThen paused with failed | ⟨_, woken, -, failed⟩
  · split at failed
    case isTrue =>
      rcases Outcome.fail_of_andThen failed with failed | ⟨_, woken, -, failed⟩
      · obtain ⟨bus, failed, -⟩ := Probe.wait_fail failed
        rcases plain.wait failed with ⟨-, same⟩ | ⟨_, same⟩ | ⟨_, same⟩ <;> cases same
      · exact (open_of_cut (Probe.cut_releaseWhenDue failed)).elim
    case isFalse free =>
      obtain ⟨bus, -, rfl⟩ := Probe.wait_fail failed
      exact ⟨Bool.eq_false_of_not_eq_true free, rfl, rfl⟩
  · exact (open_of_cut (Probe.cut_refresh failed)).elim

theorem closed_turn (plain : LineBus.Plain β) {before stopped : Checker β}
    (ended : before.turn = .error (.closed, stopped)) :
    before.probe.stretch.isPending = false ∧ stopped.probe.stretch = before.probe.stretch ∧
      stopped.probe.lines = before.probe.lines := by
  rcases fail_cases ended with cut | ⟨woken, paused, rfl⟩
  · rcases cut.reason plain with ⟨_, same⟩ | ⟨_, same⟩ <;> cases same
  · exact closed_pause plain paused

theorem reason_of_turn (plain : LineBus.Plain β) {before stopped : Checker β} {error : BusError}
    (ended : before.turn = .error (error, stopped)) :
    error = .closed ∨ (∃ id, error = .unknownLine id) ∨ ∃ kind, error = .overflow kind := by
  cases ends_turn ended with
  | cut cut =>
    rcases cut.reason plain with overflow | unknown
    · exact .inr (.inr overflow)
    · exact .inr (.inl unknown)
  | failed _ failed =>
    obtain ⟨bus, failed, -⟩ := Probe.wait_fail failed
    rcases plain.wait failed with ⟨closed, -⟩ | others
    · exact .inl closed
    · exact .inr others

theorem reason_of_fall (plain : LineBus.Plain β) {before : Checker β}
    {stopped : BusError × Checker β} (falls : before.FallsNext)
    (ended : before.turn = .error stopped) :
    (∃ kind, stopped.1 = .overflow kind) ∨ ∃ id, stopped.1 = .unknownLine id := by
  obtain ⟨change, committed, commits, -⟩ := falls
  rw [turn_of_commits commits] at ended
  cases reacted : ({ before with probe := committed } : Checker β).react change with
  | ok _ next =>
    rw [reacted] at ended
    cases ended
  | fail error last =>
    rw [reacted] at ended
    cases ended
    exact (cut_react reacted).reason plain

theorem watch_turns {ready last : Checker β} {n : Nat} (run : ready.turns n = .ok last) :
    ready.watch = last.watch :=
  turns_induct (motive := fun checker => ready.watch = checker.watch) rfl
    (fun turned same => same.trans (watch_of_turn turned)) run

theorem watched_of_ended {ready last : Checker β} {n : Nat} {ended : BusError × Checker β}
    (run : ready.turns n = .ok last) (ends : last.turn = .error ended) :
    ready.watch = ended ∧ ready.watch.2 = last.turned := by
  rw [watch_turns run, watch_turn, ends, turned_of_ended ends]
  exact ⟨rfl, rfl⟩

theorem matched_turns {checker ready between : Checker β} {n : Nat}
    (free : checker.probe.stretch.deadline? = none) (idle : checker.startUp = .ok () ready)
    (run : ready.turns n = .ok between) : between.Matched := by
  obtain ⟨stretch, weakClock⟩ := checker.released_startUp
  rw [idle] at stretch weakClock
  change ready.probe.stretch = _ at stretch
  change ready.probe.lines.weakClock = true at weakClock
  have pending : ready.probe.stretch.isPending = false := by
    rw [stretch]
    unfold ClockStretch.isPending
    rw [free]
    rfl
  refine turns_induct (motive := Matched) ⟨?_, ?_⟩ matched_turn run
  · rw [pending, weakClock]
    rfl
  · rw [pending]
    exact nofun

theorem duration_turns {ready between : Checker β} {n : Nat} (run : ready.turns n = .ok between) :
    between.probe.stretch.duration = ready.probe.stretch.duration :=
  turns_induct (motive := fun checker =>
      checker.probe.stretch.duration = ready.probe.stretch.duration) rfl
    (fun turned same => (duration_turn turned).trans same) run

/-- How the clock is stretched in a run, with falls held low for `duration`. -/
structure Stretches (checker : Checker β) (duration cycle : Nat) : Prop where
  /-- Whenever the run is suspended, we hold the clock low exactly as long as a deadline is
  pending. -/
  held_iff {ready between : Checker β} {n : Nat} : checker.startUp = .ok () ready →
    ready.turns n = .ok between →
      (between.probe.lines.weakClock = false ↔ between.probe.stretch.isPending = true)
  /-- Without a stretch we never do. -/
  free {ready between : Checker β} {n : Nat} : duration = 0 → checker.startUp = .ok () ready →
    ready.turns n = .ok between → between.probe.lines.weakClock = true
  /-- A fall of the clock sets the deadline. -/
  armed {ready fallen : Checker β} {n : Nat} : 0 < duration →
    (∀ kind, checker.run.1 ≠ .overflow kind) → checker.startUp = .ok () ready →
      ready.turns n = .ok fallen → fallen.FallsNext → fallen.now + duration < Time.limit →
        fallen.turned.probe.stretch.deadline? = some (fallen.now + duration)
  /-- The clock is let go at the deadline or less than a cycle later, unless it falls again before
  that or the bus runs into a line that is not there, in the turn of the fall or while the clock is
  held. -/
  released {ready fallen : Checker β} {n : Nat} : 0 < duration →
    (∀ kind, checker.run.1 ≠ .overflow kind) → checker.startUp = .ok () ready →
      ready.turns n = .ok fallen → fallen.FallsNext → fallen.now + duration < Time.limit →
        fallen.Unwired ∨
          ∃ next later, fallen.turn = .ok next ∧ next.Unfallen later ∧ (later.FallsNext ∨
            later.Holding (fallen.now + duration) ∧ later.Unwired ∨
            ∃ time after, later.LetsGo time after ∧ fallen.now + duration ≤ time ∧
              time < fallen.now + duration + cycle)
  /-- A run that is closed leaves the clock let go. -/
  closed : checker.run.1 = .closed → checker.run.2.probe.stretch.deadline? = none ∧
    checker.run.2.probe.lines.weakClock = true

theorem deadline_of_fall {fallen : Checker β} (falls : fallen.FallsNext)
    (stretches : fallen.probe.stretch.isEnabled = true)
    (inRange : fallen.now + fallen.probe.stretch.duration < Time.limit)
    (measured : ∀ kind stopped, fallen.turn ≠ .error (.overflow kind, stopped)) :
    fallen.turned.probe.stretch.deadline? =
      some (fallen.now + fallen.probe.stretch.duration) := by
  obtain ⟨change, committed, commits, line, low⟩ := falls
  have same : committed.stretch = fallen.probe.stretch := by rw [commits.after]; rfl
  generalize here : ({ fallen with probe := committed } : Checker β) = checker
  have turn := turn_of_commits commits
  rw [turned_of_commits commits, here]
  rw [here] at turn
  have fell : Fell checker change := by
    rw [← here]
    exact ⟨line, low⟩
  cases reported : checker.report
      (checker.protocol.edgeNotes (checker.view change.sight) change.edge) with
  | fail error stopped =>
    -- the turn would end in the overflow
    obtain ⟨kind, -, overflow⟩ := overflow_of_report reported
    have react : checker.react change = .fail error stopped := by
      unfold react
      rw [reported]
      rfl
    rw [react, overflow] at turn
    exact absurd turn (measured kind stopped)
  | ok _ judged =>
    have stretch : checker.probe.stretch = fallen.probe.stretch := by
      rw [← here]
      exact same
    rw [stretch_react fell reported, stretch,
      show change.time = fallen.now from Probe.now_of_look commits.look]
    unfold ClockStretch.begin
    rw [if_pos stretches]
    exact congrArg some (Time.saturate_of_lt inRange)

variable {checker ready fallen last stopped : Checker β} {cycle n : Nat} {error : BusError}

theorem duration_of_run (idle : checker.startUp = .ok () ready) (run : ready.turns n = .ok last) :
    last.probe.stretch.duration = checker.probe.stretch.duration := by
  have stretch := checker.released_startUp.1
  rw [idle] at stretch
  exact (duration_turns run).trans (congrArg ClockStretch.duration stretch)

theorem run_of_last (idle : checker.startUp = .ok () ready) (run : ready.turns n = .ok last)
    (ended : last.turn = .error (error, stopped)) : checker.run.1 = error := by
  rw [run_of_startUp idle, (watched_of_ended run ended).1]

theorem letsGo_of_fall (plain : LineBus.Plain β) (paced : LineBus.Paced checker.probe.bus cycle)
    (idle : checker.startUp = .ok () ready) (run : ready.turns n = .ok fallen)
    (falls : fallen.FallsNext) (stretches : fallen.probe.stretch.isEnabled = true)
    (inRange : fallen.now + fallen.probe.stretch.duration < Time.limit) :
    (∃ kind, checker.run.1 = .overflow kind) ∨ fallen.Unwired ∨
      ∃ next later, fallen.turn = .ok next ∧ next.Unfallen later ∧ (later.FallsNext ∨
        later.Holding (fallen.now + fallen.probe.stretch.duration) ∧ later.Unwired ∨
        ∃ time after, later.LetsGo time after ∧
          fallen.now + fallen.probe.stretch.duration ≤ time ∧
          time < fallen.now + fallen.probe.stretch.duration + cycle) := by
  cases turned : fallen.turn with
  | error stopped =>
    obtain ⟨error, last⟩ := stopped
    rcases reason_of_fall plain falls turned with ⟨kind, rfl⟩ | ⟨id, rfl⟩
    · exact .inl ⟨kind, run_of_last idle run turned⟩
    · exact .inr (.inl ⟨id, last, turned⟩)
  | ok next =>
    have holding := holding_of_fall falls turned stretches inRange
    have run := turns_succ run turned
    have pace : LineBus.Paced next.probe.bus cycle := fun later _ called =>
      paced later _ ((Probe.called_of_acts ((acts_startUp idle).trans (acts_turns run))).trans
        called)
    obtain ⟨m, last, run', ends⟩ := exists_turns next
    rcases holding_until pace holding run' with ⟨later, unfallen, ended⟩ | ⟨unfallen, held⟩
    · exact .inr (.inr ⟨next, later, rfl, unfallen, ended.imp_right .inr⟩)
    · have ended : checker.run.1 = next.watch.1 := by
        rw [run_of_startUp idle, watch_turns run]
      rcases reason_of_turn plain ends with closed | ⟨id, unknown⟩ | ⟨kind, overflow⟩
      · -- a bus that is waited for cycle by cycle does not close
        rw [show next.watch = (.closed, next.watch.2) from Prod.ext closed rfl] at ends
        have pending := (closed_turn plain ends).1
        unfold ClockStretch.isPending at pending
        rw [held.pending] at pending
        cases pending
      · rw [show next.watch = (.unknownLine id, next.watch.2) from Prod.ext unknown rfl] at ends
        exact .inr (.inr ⟨next, last, rfl, unfallen, .inr (.inl ⟨held, id, _, ends⟩)⟩)
      · exact .inl ⟨kind, ended.trans overflow⟩

theorem free_of_closed (plain : LineBus.Plain β)
    (free : checker.probe.stretch.deadline? = none) (closed : checker.run.1 = .closed) :
    checker.run.2.probe.stretch.deadline? = none ∧
      checker.run.2.probe.lines.weakClock = true := by
  cases idle : checker.startUp with
  | fail error stopped =>
    obtain ⟨stretch, weakClock⟩ := checker.released_startUp
    rw [idle] at stretch weakClock
    unfold run
    rw [idle]
    exact ⟨(congrArg ClockStretch.deadline? stretch).trans free, weakClock⟩
  | ok _ ready =>
    obtain ⟨n, last, run, ends⟩ := exists_turns ready
    rw [run_of_startUp idle] at closed ⊢
    rw [show ready.watch = (.closed, ready.watch.2) from Prod.ext closed rfl] at ends
    obtain ⟨pending, stretch, lines⟩ := closed_turn plain ends
    have matched := (matched_turns free idle run).pending
    rw [pending] at matched
    constructor
    · change ready.watch.2.probe.stretch.deadline? = none
      rw [stretch]
      exact Option.isNone_iff_eq_none.mp (by simpa [ClockStretch.isPending] using pending)
    · change ready.watch.2.probe.lines.weakClock = true
      rw [lines]
      exact Bool.not_eq_eq_eq_not.mp matched.symm

theorem stretches_of_paced (plain : LineBus.Plain β)
    (free : checker.probe.stretch.deadline? = none)
    (paced : LineBus.Paced checker.probe.bus cycle) :
    checker.Stretches checker.probe.stretch.duration cycle := by
  constructor
  case held_iff =>
    intro ready between n idle run
    rw [(matched_turns free idle run).pending]
    cases between.probe.lines.weakClock <;> decide
  case free =>
    intro ready between n none idle run
    obtain ⟨pending, enabled⟩ := matched_turns free idle run
    cases weakClock : between.probe.lines.weakClock with
    | true => rfl
    | false =>
      rw [weakClock] at pending
      have positive := of_decide_eq_true (enabled pending)
      rw [duration_of_run idle run, none] at positive
      cases positive
  case armed =>
    intro ready fallen n positive measured idle run falls inRange
    rw [← duration_of_run idle run] at positive inRange ⊢
    exact deadline_of_fall falls (decide_eq_true positive) inRange fun kind stopped ended =>
      measured kind (run_of_last idle run ended)
  case released =>
    intro ready fallen n positive measured idle run falls inRange
    rw [← duration_of_run idle run] at positive inRange ⊢
    rcases letsGo_of_fall plain paced idle run falls (decide_eq_true positive) inRange with
      ⟨kind, overflow⟩ | others
    · exact absurd overflow (measured kind)
    · exact others
  case closed => exact free_of_closed plain free

/-- The clock is stretched in time on every recorded trace and in every program: held low from a fall
on, let go less than a cycle after the deadline and never left low. A cycle lasts a nanosecond at
least. -/
theorem stretched_in_time (config : Config) (cycle : Nat) :
    (∀ (clock data : LineId) (trace : List PeerDrive) (checker : Checker Replay),
      ofConfig config ((Replay.ofTrace clock data trace).withCycle cycle) = .ok checker →
        checker.Stretches config.clockStretch (max cycle 1)) ∧
    ∀ (clock data : LineId) (program : List Step) (bus : Simulation)
      (checker : Checker Simulation), Simulation.ofProgram clock data program = .ok bus →
        ofConfig config (bus.withCycle cycle) = .ok checker →
          checker.Stretches config.clockStretch (max cycle 1) := by
  constructor
  · intro clock data trace checker made
    have new := new_of_ofConfig made
    have paced : LineBus.Paced checker.probe.bus (max cycle 1) := by
      rw [new]
      exact Replay.paced _
    have stretches := stretches_of_paced Replay.plain
      (show checker.probe.stretch.deadline? = none by rw [new]) paced
    rwa [new] at stretches
  · intro clock data program bus checker _ made
    have new := new_of_ofConfig made
    have paced : LineBus.Paced checker.probe.bus (max cycle 1) := by
      rw [new]
      exact Simulation.paced _
    have stretches := stretches_of_paced Simulation.plain
      (show checker.probe.stretch.deadline? = none by rw [new]) paced
    rwa [new] at stretches

def fallShows (checker : Checker β) : Bool :=
  match checker.probe.look with
  | .error _ => false
  | .ok sight =>
    match checker.probe.detector.edge? checker.probe.lines sight with
    | none => false
    | some edge =>
      decide (edge.line = .clock) && !(checker.probe.commit sight edge).detector.clock.level

theorem fallShows_iff {checker : Checker β} : checker.fallShows = true ↔ checker.FallsNext := by
  unfold fallShows
  constructor
  · intro shows
    split at shows
    case h_1 => cases shows
    case h_2 sight look =>
      split at shows
      case h_1 => cases shows
      case h_2 edge seen =>
        rw [Bool.and_eq_true, decide_eq_true_eq, Bool.not_eq_true'] at shows
        exact ⟨⟨edge, sight⟩, _, ⟨look, seen, rfl⟩, shows⟩
  · rintro ⟨change, committed, commits, line, low⟩
    rw [commits.look]
    dsimp only
    rw [commits.edge]
    dsimp only
    rw [← commits.after, low, Bool.not_false, Bool.and_true]
    exact decide_eq_true line

/-- A stretch of 50 ns in cycles of 20: the peer lets go of the clock after 10 ns, and we hold it on.
A program that is held up by a stretch leaves the clock let go. -/
theorem stretched_twice :
    (∃ checker ready fallen : Checker Replay,
      ofConfig { clock := 0, data := 1, clockStretch := 50 }
        ((Replay.ofTrace 0 1 [⟨200, 1, some false⟩, ⟨300, 0, some false⟩, ⟨310, 0, none⟩,
          ⟨400, 1, none⟩]).withCycle 20) = .ok checker ∧
      checker.run.1 = .closed ∧ checker.startUp = .ok () ready ∧ ready.turns 3 = .ok fallen ∧
      fallen.FallsNext ∧ fallen.now = 300 ∧
      fallen.turned.probe.stretch.deadline? = some 350 ∧
      ∃ next later, fallen.turn = .ok next ∧ next.Unfallen later ∧ (later.FallsNext ∨
        ∃ time after, later.LetsGo time after ∧ 350 ≤ time ∧ time < 370)) ∧
    ∃ (bus : Simulation) (checker : Checker Simulation),
      Simulation.ofProgram 0 1 [.delay 1000, .drive .data (some false), .delay 100,
        .drive .clock (some false), .delay 10, .drive .clock none, .waitClockHigh] = .ok bus ∧
      ofConfig { clock := 0, data := 1, clockStretch := 50 } (bus.withCycle 20) = .ok checker ∧
      checker.run.1 = .closed ∧ checker.run.2.probe.stretch.deadline? = none ∧
      checker.run.2.probe.lines.weakClock = true := by
  have stretched := stretched_in_time { clock := 0, data := 1, clockStretch := 50 } 20
  constructor
  · have seen : ((ofConfig { clock := 0, data := 1, clockStretch := 50 }
        ((Replay.ofTrace 0 1 [⟨200, 1, some false⟩, ⟨300, 0, some false⟩, ⟨310, 0, none⟩,
          ⟨400, 1, none⟩]).withCycle 20)).toOption.bind fun checker =>
        checker.startUp.verdict.toOption.bind fun ready => (ready.turns 3).toOption.map
        fun fallen => (checker.ending? 100, fallen.fallShows, fallen.now)) =
        some (some .closed, true, 300) := by decide +kernel
    obtain ⟨checker, made, seen⟩ := Option.bind_eq_some_iff.mp seen
    obtain ⟨ready, idle, seen⟩ := Option.bind_eq_some_iff.mp seen
    obtain ⟨fallen, run, seen⟩ := Option.map_eq_some_iff.mp seen
    obtain ⟨ended, shows, now⟩ := by simpa only [Prod.mk.injEq] using seen
    have made := eq_ok_of_toOption made
    have idle := Outcome.eq_ok_of_verdict (eq_ok_of_toOption idle)
    have run := eq_ok_of_toOption run
    have closed := run_of_ending? ended
    have falls := fallShows_iff.mp shows
    have measured : ∀ kind, checker.run.1 ≠ .overflow kind := by
      rw [closed]
      exact nofun
    have stretches := stretched.1 0 1 _ checker made
    have armed := stretches.armed (by decide) measured idle run falls (by rw [now]; decide)
    have released := stretches.released (by decide) measured idle run falls (by rw [now]; decide)
    rw [now] at armed released
    have wired {later : Checker Replay} {n : Nat} (run : ready.turns n = .ok later) :
        ¬later.Unwired := by
      rintro ⟨id, stopped, ended⟩
      cases closed.symm.trans (run_of_last idle run ended)
    rcases released with unwired | ⟨next, later, turned, unfallen, letsGo⟩
    · exact absurd unwired (wired run)
    · have unwired : ¬later.Unwired := by
        obtain ⟨m, further⟩ := unfallen.turns (turns_succ run turned)
        exact wired further
      exact ⟨checker, ready, fallen, made, closed, idle, run, falls, now, armed, next, later, turned,
        unfallen, letsGo.imp_right fun others => others.resolve_left fun held => unwired held.2⟩
  · have seen : ((Simulation.ofProgram 0 1 [.delay 1000, .drive .data (some false), .delay 100,
        .drive .clock (some false), .delay 10, .drive .clock none,
        .waitClockHigh]).toOption.bind fun bus =>
        (ofConfig { clock := 0, data := 1, clockStretch := 50 } (bus.withCycle 20)).toOption.bind
        fun checker => checker.ending? 100) = some .closed := by decide +kernel
    obtain ⟨bus, fits, seen⟩ := Option.bind_eq_some_iff.mp seen
    obtain ⟨checker, made, ended⟩ := Option.bind_eq_some_iff.mp seen
    have fits := eq_ok_of_toOption fits
    have made := eq_ok_of_toOption made
    have closed := run_of_ending? ended
    obtain ⟨settled, free⟩ := (stretched.2 0 1 _ bus checker fits made).closed closed
    exact ⟨bus, checker, fits, made, closed, settled, free⟩

end Checker
end TwoWire
