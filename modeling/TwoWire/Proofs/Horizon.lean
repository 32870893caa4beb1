import TwoWire.Proofs.Measured
import TwoWire.Proofs.Spans

/-! How far a run on a recorded trace gets in time: less than a cycle beyond the last instant that
it is told to wait for and a stretch (`keeps_time_of_horizon`). -/

namespace TwoWire

namespace Replay

variable {bus later : Replay} {latest : Nat}

/-- The last instant that a run is told to wait for. -/
def horizon (settle : Nat) (trace : List PeerDrive) : Nat :=
  trace.foldr (fun entry latest => max entry.time latest) settle

theorem settle_le_horizon (settle : Nat) (trace : List PeerDrive) :
    settle ≤ horizon settle trace := by
  induction trace with
  | nil => exact Nat.le_refl _
  | cons entry rest ih => exact Nat.le_trans ih (Nat.le_max_right ..)

theorem time_le_horizon (settle : Nat) {trace : List PeerDrive} {entry : PeerDrive}
    (mem : entry ∈ trace) : entry.time ≤ horizon settle trace := by
  induction trace with
  | nil => cases mem
  | cons first rest ih =>
    rcases List.mem_cons.mp mem with rfl | mem
    · exact Nat.le_max_left ..
    · exact Nat.le_trans (ih mem) (Nat.le_max_right ..)

/-- What is left of the trace was recorded by `latest`. -/
def DueBy (bus : Replay) (latest : Nat) : Prop := ∀ entry ∈ bus.trace, entry.time ≤ latest

theorem DueBy.called (due : bus.DueBy latest) (called : LineBus.Called bus later) :
    later.DueBy latest := by
  have replayed : Replayed bus.clock.id bus.data.id bus.trace bus := ⟨rfl, rfl, [], rfl, nofun⟩
  obtain ⟨done, read, -⟩ := (Replayed.called called replayed).read
  intro entry mem
  exact due entry (read ▸ List.mem_append_right done mem)

theorem now_replayTo_le (bus : Replay) (time : Nat) (trace : List PeerDrive) :
    (bus.replayTo time trace).state.now ≤ max bus.now time := by
  induction trace generalizing bus with
  | nil => exact Nat.le_refl _
  | cons entry rest ih =>
    unfold replayTo
    split
    case isTrue => exact Nat.le_refl _
    case isFalse due =>
      dsimp only
      split
      · dsimp only [Outcome.state_fail]
        omega
      · refine Nat.le_trans (ih _) ?_
        rw [now_setPeer]
        dsimp only
        omega

/-- As long as there is an entry to wait for, no wait goes beyond the last one. -/
theorem now_wait_le (due : bus.DueBy latest) {kind : WaitKind}
    (told : ∀ time, kind = .instant time → time ≤ latest) (left : kind = .cycle → bus.trace ≠ []) :
    (bus.wait kind).state.now ≤ max bus.now latest := by
  cases kind with
  | instant time =>
    have target := told time rfl
    have now := bus.now_replayTo_le time bus.trace
    change (bus.replayTo time bus.trace).state.now ≤ _
    omega
  | change =>
    change bus.waitChange.state.now ≤ _
    unfold waitChange
    split
    case h_1 => exact Nat.le_max_left ..
    case h_2 entry rest trace =>
      have target := due entry (by rw [trace]; exact List.mem_cons_self)
      have now := bus.now_replayTo_le entry.time bus.trace
      change (bus.replayTo entry.time bus.trace).state.now ≤ _
      omega
  | cycle =>
    change bus.waitCycle.state.now ≤ _
    unfold waitCycle
    dsimp only
    split
    case isFalse => exact Nat.le_max_left ..
    case isTrue =>
      split
      case h_1 trace => exact absurd trace (left rfl)
      case h_2 entry rest trace =>
        have target := due entry (by rw [trace]; exact List.mem_cons_self)
        have now := bus.now_replayTo_le (min entry.time (bus.now + bus.cycle)) bus.trace
        change (bus.replayTo _ bus.trace).state.now ≤ _
        omega

theorem now_waitCycle_le (bus : Replay) : bus.waitCycle.state.now ≤ bus.now + bus.cycle := by
  unfold waitCycle
  dsimp only
  split
  case isFalse => exact Nat.le_add_right ..
  case isTrue =>
    split
    · have now := bus.now_replayTo_le (bus.now + bus.cycle) bus.trace
      change (bus.replayTo _ bus.trace).state.now ≤ _
      omega
    · rename_i entry _ _
      have now := bus.now_replayTo_le (min entry.time (bus.now + bus.cycle)) bus.trace
      change (bus.replayTo _ bus.trace).state.now ≤ _
      omega

end Replay

namespace Probe

section

variable {β : Type} [LineBus β]

theorem now_wait_eq (probe : Probe β) (kind : WaitKind) :
    (probe.wait kind).state.now = LineBus.now (LineBus.wait probe.bus kind).state := by
  unfold wait
  rw [Outcome.state_mapState]
  rfl

theorem now_pause_eq (probe : Probe β) : probe.pause.state.now = LineBus.now (LineBus.wait
    probe.bus (if probe.stretch.isPending then .cycle else .change)).state := by
  have at_ {time : Nat} {outcome : Outcome (Probe β) Unit} (now : outcome.state.now = time)
      {next : Probe β → Outcome (Probe β) Unit}
      (same : ∀ middle : Probe β, (next middle).state.now = middle.now) :
      (outcome.andThen fun _ probe => next probe).state.now = time :=
    Outcome.state_andThen (motive := fun after : Probe β => after.now = time) now
      fun _ middle early => (same middle).trans early
  refine at_ ?_ fun woken => woken.refreshed_refresh.still.now
  split
  · exact at_ (probe.now_wait_eq .cycle) now_releaseWhenDue
  · exact probe.now_wait_eq .change

end

variable {probe : Probe Replay} {latest : Nat}

theorem now_awaitIdle_le (due : probe.bus.DueBy latest) :
    probe.awaitIdle.state.now ≤ max probe.now latest := by
  have woken (probe : Probe Replay) (due : probe.bus.DueBy latest) :
      ((probe.wait .change).andThen fun _ probe => probe.refresh).state.now ≤
        max probe.now latest := by
    refine Outcome.state_andThen (motive := fun after : Probe Replay =>
      after.now ≤ max probe.now latest) ?_ fun _ woken early => ?_
    · rw [now_wait_eq]
      exact Replay.now_wait_le due nofun nofun
    · rw [woken.refreshed_refresh.still.now]
      exact early
  fun_induction awaitIdle probe with
  | case1 => exact Nat.le_max_left ..
  | case2 => exact Nat.le_max_left ..
  | case3 probe sight look busy error stopped failed =>
    have now := woken probe due
    rwa [failed] at now
  | case4 probe sight look busy _ later waited ih =>
    have now := woken probe due
    rw [waited, Outcome.state_ok] at now
    have further := ih (due.called (called_of_acts (acts_wake waited)))
    omega

theorem now_settle_le (due : probe.bus.DueBy latest) {time : Nat} (early : time ≤ latest) :
    (probe.settle time).state.now ≤ max probe.now latest := by
  have first := probe.now_drive .clock true
  unfold settle
  cases clockFree : probe.drive .clock true with
  | fail error stopped =>
    rw [clockFree] at first
    exact Nat.le_trans (Nat.le_of_eq first) (Nat.le_max_left ..)
  | ok _ clock =>
    rw [clockFree, Outcome.state_ok] at first
    have second := clock.now_drive .data true
    rw [Outcome.andThen_ok]
    cases dataFree : clock.drive .data true with
    | fail error stopped =>
      rw [dataFree] at second
      exact Nat.le_trans (Nat.le_of_eq (second.trans first)) (Nat.le_max_left ..)
    | ok _ both =>
      rw [dataFree, Outcome.state_ok] at second
      have called : LineBus.Called probe.bus both.bus :=
        called_of_acts ((Acts.drive clockFree).trans (.drive dataFree))
      have third : (both.wait (.instant time)).state.now ≤ max both.now latest := by
        rw [now_wait_eq]
        refine Replay.now_wait_le (due.called called) ?_ nofun
        rintro _ ⟨⟩
        exact early
      rw [Outcome.andThen_ok]
      cases waited : both.wait (.instant time) with
      | fail error stopped =>
        rw [waited] at third
        change stopped.now ≤ _
        change stopped.now ≤ _ at third
        omega
      | ok _ late =>
        rw [waited, Outcome.state_ok] at third
        have due := due.called (called.trans (called_of_acts (.wait waited)))
        have last := late.now_awaitIdle_le due
        rw [Outcome.andThen_ok]
        omega

end Probe

namespace Checker

section

variable {β : Type} [LineBus β] {checker ready before : Checker β} {n : Nat}

theorem now_turned (before : Checker β) :
    before.turned.now = before.now ∨ before.turned.now = before.probe.pause.state.now := by
  cases look : before.probe.look with
  | error error =>
    unfold turned
    rw [turn_of_missing look]
    exact .inl rfl
  | ok sight =>
    cases seen : before.probe.detector.edge? before.probe.lines sight with
    | some edge =>
      have commits : before.probe.Commits ⟨edge, sight⟩ (before.probe.commit sight edge) :=
        ⟨look, seen, rfl⟩
      rw [turned_of_commits commits, now_react]
      exact .inl rfl
    | none =>
      unfold turned
      rw [turn_of_pause look seen]
      cases before.probe.pause <;> exact .inr rfl

theorem now_le_turned (forward : LineBus.Forward β) (before : Checker β) :
    before.now ≤ before.turned.now := by
  rcases before.now_turned with same | paused
  · exact Nat.le_of_eq same.symm
  · rw [paused]
    exact before.probe.now_pause forward

theorem now_turns (forward : LineBus.Forward β) (run : ready.turns n = .ok before) :
    ready.now ≤ before.now :=
  turns_induct (motive := fun checker => ready.now ≤ checker.now) (Nat.le_refl _)
    (fun turned early => Nat.le_trans early (now_turn forward turned)) run

theorem turned_le_run (forward : LineBus.Forward β) (idle : checker.startUp = .ok () ready)
    (run : ready.turns n = .ok before) : before.turned.now ≤ checker.run.2.now := by
  cases turned : before.turn with
  | ok next =>
    rw [turned_of_turn turned]
    exact now_of_run forward idle (turns_succ run turned)
  | error stopped =>
    have last : checker.run.2.now = before.turned.now := by
      rw [run_of_startUp idle, watch_turns run, watch_turn, turned]
      unfold Checker.turned
      rw [turned]
      rfl
    exact Nat.le_of_eq last.symm

end

variable {checker ready before next : Checker Replay} {latest duration cycle : Nat}

/-- How far a run has got, at a time that is not past the horizon unless the trace is used up. -/
structure OnTime (checker : Checker Replay) (latest duration cycle : Nat) : Prop where
  lasts : checker.probe.stretch.duration = duration
  paced : checker.probe.bus.cycle = cycle
  due : checker.probe.bus.DueBy latest
  pending : ∀ deadline, checker.probe.stretch.deadline? = some deadline →
    checker.now < deadline ∧ deadline ≤ latest + duration
  exhausted : latest < checker.now → checker.probe.bus.trace = [] ∧ checker.probe.falls = 0
  early : checker.now < latest + duration + cycle

theorem OnTime.now_le (onTime : before.OnTime latest duration cycle)
    (left : before.probe.bus.trace ≠ []) : before.now ≤ latest := by
  by_contra late
  exact left (onTime.exhausted (Nat.not_le.mp late)).1

theorem OnTime.now_le_of_falls (onTime : before.OnTime latest duration cycle)
    (falls : before.FallsNext) : before.now ≤ latest := by
  obtain ⟨change, committed, commits, fell⟩ := falls
  by_contra late
  have still := (onTime.exhausted (Nat.not_le.mp late)).2
  rw [falls_of_fell commits fell] at still
  cases still

theorem OnTime.cycle_lt (onTime : before.OnTime latest duration cycle)
    (pending : before.probe.stretch.isPending = true) :
    before.now + cycle < latest + duration + cycle := by
  obtain ⟨deadline, known⟩ := Option.isSome_iff_exists.mp pending
  have bounds := onTime.pending deadline known
  omega

theorem OnTime.now_pause (onTime : before.OnTime latest duration cycle) :
    before.probe.pause.state.now < latest + duration + cycle ∧
      (before.probe.bus.trace ≠ [] → before.probe.pause.state.now ≤ latest) := by
  have positive : 0 < cycle := onTime.paced ▸ before.probe.bus.cycle_pos
  rw [Probe.now_pause_eq]
  by_cases left : before.probe.bus.trace = []
  case neg =>
    have reached {kind : WaitKind} (untold : ∀ time, kind ≠ .instant time) :
        (before.probe.bus.wait kind).state.now ≤ max before.probe.bus.now latest :=
      Replay.now_wait_le onTime.due (fun time told => absurd told (untold time)) fun _ => left
    have now : (before.probe.bus.wait (if before.probe.stretch.isPending then .cycle
        else .change)).state.now ≤ max before.probe.bus.now latest :=
      reached (by intro time; split <;> exact nofun)
    have early := onTime.now_le left
    change (before.probe.bus.wait _).state.now < _ ∧ (_ → (before.probe.bus.wait _).state.now ≤ _)
    change before.probe.bus.now ≤ latest at early
    omega
  case pos =>
    refine ⟨?_, fun more => absurd left more⟩
    split
    case isTrue pending =>
      have early := onTime.cycle_lt pending
      have now := before.probe.bus.now_waitCycle_le
      rw [onTime.paced] at now
      exact Nat.lt_of_le_of_lt now early
    case isFalse =>
      change before.probe.bus.waitChange.state.now < _
      unfold Replay.waitChange
      rw [left]
      exact onTime.early

theorem OnTime.react (inRange : latest + duration < Time.limit)
    (onTime : before.OnTime latest duration cycle) {change : Change} {committed : Probe Replay}
    (commits : before.probe.Commits change committed) (turned : before.turn = .ok next)
    (react : ({ before with probe := committed } : Checker Replay).react change = .ok () next) :
    next.OnTime latest duration cycle := by
  have called := Probe.called_of_acts (acts_turn turned)
  have reacted := reacted react
  have now : next.now = before.now := by
    refine reacted.still.now.trans ?_
    rw [commits.after]
    rfl
  have work : next.probe.bus.trace.length = before.probe.bus.trace.length := by
    refine reacted.still.work.trans ?_
    rw [commits.after]
    rfl
  refine ⟨(duration_turn turned).trans onTime.lasts,
    (Replay.cycle_called called).trans onTime.paced, onTime.due.called called, ?_, ?_,
    now ▸ onTime.early⟩
  · intro deadline known
    rw [now]
    rw [(stretch_answered commits react).1] at known
    split at known
    case isFalse => exact onTime.pending deadline known
    case isTrue falls =>
      -- the clock only falls by the horizon, so the new deadline lies a stretch after it at most
      have early := onTime.now_le_of_falls ((falls_iff_fallsNext commits).mp falls)
      unfold ClockStretch.begin at known
      split at known
      case isFalse => exact onTime.pending deadline known
      case isTrue stretches =>
        have positive := of_decide_eq_true stretches
        rw [onTime.lasts] at known positive
        have sum := Time.saturate_of_lt (show before.now + duration < Time.limit by omega)
        rw [show before.probe.now = before.now from rfl, sum] at known
        cases known
        omega
  · intro late
    rw [now] at late
    obtain ⟨done, -⟩ := onTime.exhausted late
    rw [done] at work
    exact ⟨List.eq_nil_of_length_eq_zero work,
      falls_eq_zero (reacted.differs_clock (level?_of_commits commits))⟩

theorem OnTime.pause (onTime : before.OnTime latest duration cycle)
    (calm : ∀ line, before.probe.differs line = false) {woken : Probe Replay}
    (turned : before.turn = .ok { before with probe := woken })
    (paused : before.probe.pause = .ok () woken) :
    OnTime { before with probe := woken } latest duration cycle := by
  have called := Probe.called_of_acts (acts_turn turned)
  obtain ⟨early, more⟩ := onTime.now_pause
  rw [paused, Outcome.state_ok] at early more
  refine ⟨(duration_turn turned).trans onTime.lasts,
    (Replay.cycle_called called).trans onTime.paced, onTime.due.called called, ?_, ?_, early⟩
  · intro deadline known
    change woken.now < deadline ∧ _
    change woken.stretch.deadline? = some deadline at known
    cases Probe.wakes_of_pause paused with
    | change free waited refreshed =>
      rw [refreshed.stretch, (stretch_of_wait waited).1] at known
      rw [ClockStretch.isPending, known] at free
      cases free
    | held _ waited undue refreshed =>
      rw [refreshed.stretch] at known
      rw [refreshed.still.now]
      have bounds := onTime.pending deadline ((stretch_of_wait waited).1 ▸ known)
      exact ⟨(not_isDue known).mp undue, bounds.2⟩
    | released _ _ _ _ refreshed =>
      rw [refreshed.stretch] at known
      cases known
  · intro late
    change latest < woken.now at late
    change woken.bus.trace = [] ∧ woken.falls = 0
    have done : before.probe.bus.trace = [] := by
      by_contra left
      have soon := more left
      omega
    rcases Probe.pause_cases paused with less | idled
    · change woken.bus.trace.length < before.probe.bus.trace.length at less
      rw [done] at less
      cases less
    · have left : woken.bus.trace.length ≤ before.probe.bus.trace.length := idled.work
      rw [done] at left
      exact ⟨List.eq_nil_of_length_eq_zero (Nat.le_zero.mp left), Probe.falls_of_idled calm idled⟩

theorem OnTime.turn (inRange : latest + duration < Time.limit)
    (onTime : before.OnTime latest duration cycle) (turned : before.turn = .ok next) :
    next.OnTime latest duration cycle := by
  rcases react_or_pause turned with ⟨change, committed, commits, react⟩ | ⟨calm, woken, paused, rfl⟩
  · exact onTime.react inRange commits turned react
  · exact onTime.pause calm turned paused

theorem OnTime.turned (onTime : before.OnTime latest duration cycle) :
    before.turned.now < latest + duration + cycle := by
  rcases before.now_turned with same | paused
  · rw [same]
    exact onTime.early
  · rw [paused]
    exact onTime.now_pause.1

variable {config : Config} {clock data : LineId} {trace : List PeerDrive} {n : Nat}

section

variable (made : ofConfig config ((Replay.ofTrace clock data trace).withCycle cycle) = .ok checker)

include made

theorem now_startUp_le :
    checker.startUp.state.now ≤ Replay.horizon config.settleTime trace := by
  have due : (checker.note (.started checker.config)).probe.bus.DueBy
      (Replay.horizon config.settleTime trace) := by
    change checker.probe.bus.DueBy _
    rw [new_of_ofConfig made]
    exact fun entry mem => Replay.time_le_horizon _ mem
  have start : (checker.note (.started checker.config)).probe.now = 0 := by
    change checker.probe.now = 0
    rw [new_of_ofConfig made]
    rfl
  have settled := Probe.now_settle_le due (Replay.settle_le_horizon config.settleTime trace)
  rw [start, Nat.zero_max] at settled
  unfold startUp
  rw [(fresh_of_made made).1]
  revert settled
  rw [(fresh_of_made made).1]
  cases Probe.settle (β := Replay) _ config.settleTime <;> exact id

theorem onTime_startUp (idle : checker.startUp = .ok () ready) :
    ready.OnTime (Replay.horizon config.settleTime trace) config.clockStretch (max cycle 1) := by
  have called := Probe.called_of_acts (acts_startUp idle)
  have released := checker.released_startUp.1
  have early := now_startUp_le made
  rw [idle] at released early
  have new := new_of_ofConfig made
  rw [new] at called released
  change ready.probe.stretch = _ at released
  change ready.now ≤ _ at early
  refine ⟨by rw [released], Replay.cycle_called called, ?_, ?_, ?_, ?_⟩
  · refine Replay.DueBy.called (fun entry mem => ?_) called
    exact Replay.time_le_horizon _ mem
  · rw [released]
    exact nofun
  · omega
  · omega

theorem onTime_turns
    (inRange : Replay.horizon config.settleTime trace + config.clockStretch < Time.limit)
    (idle : checker.startUp = .ok () ready) (run : ready.turns n = .ok before) :
    before.OnTime (Replay.horizon config.settleTime trace) config.clockStretch (max cycle 1) :=
  turns_induct (motive := fun checker => checker.OnTime _ config.clockStretch (max cycle 1))
    (onTime_startUp made idle) (fun turned onTime => onTime.turn inRange turned) run

end

/-- How a run gets on in time: it ends before `bound`, and so do the sums that it works out. -/
structure KeepsTime {β : Type} [LineBus β] (checker : Checker β) (moments : List Moment)
    (duration cycle bound : Nat) : Prop where
  /-- Every interval can be measured, and the end of every cycle can be told. -/
  measured : ∀ kind, checker.run.1 ≠ .overflow kind
  /-- The bus is waited for cycle by cycle as long as a stretch is pending. -/
  cycled {ready before : Checker β} {n : Nat} : checker.startUp = .ok () ready →
    ready.turns n = .ok before → before.probe.stretch.isPending = true →
      before.now + cycle < bound
  /-- The deadline that a fall of the clock sets is the very sum. -/
  armed {ready fallen : Checker β} {n : Nat} : 0 < duration → checker.startUp = .ok () ready →
    ready.turns n = .ok fallen → fallen.FallsNext →
      fallen.turned.probe.stretch.deadline? = some (fallen.now + duration) ∧
        fallen.now + duration < bound
  begins : checker.now ≤ checker.startUp.state.now
  onward {ready before : Checker β} {n : Nat} : checker.startUp = .ok () ready →
    ready.turns n = .ok before →
      ready.now ≤ before.now ∧ before.now ≤ before.turned.now ∧
        before.turned.now ≤ checker.run.2.now
  ends : checker.run.2.now < bound
  /-- Each record is of the time of the edge that it comes of. -/
  stamped : checker.run.2.stamps = moments.flatMap Moment.stamps
  sorted : checker.run.2.stamps.Pairwise (·.1 ≤ ·.1)
  /-- An interval that is complained about is the time between two edges. -/
  spans {early late : List Moment} {moment : Moment} : moments = early ++ moment :: late →
    ∀ broken ∈ moment.timings, ∃ start ∈ early, start.edge.time ≤ moment.edge.time ∧
      broken.2 = (moment.edge.time : Int) - start.edge.time

variable {moments : List Moment}

theorem measured_run (plain : LineBus.Plain Replay)
    (made : ofConfig config ((Replay.ofTrace clock data trace).withCycle cycle) = .ok checker)
    (inRange : Replay.horizon config.settleTime trace + config.clockStretch + max cycle 1 <
      Time.half) (kind : Overflow) : checker.run.1 ≠ .overflow kind := by
  have half_le : Time.half ≤ Time.limit := by decide
  intro overflow
  cases idle : checker.startUp with
  | fail error stopped =>
    have measured := checker.measured_startUp plain fun bus kind => bus.measured_wait
    rw [idle] at measured
    unfold run at overflow
    rw [idle] at overflow
    exact measured kind stopped (by rw [show error = .overflow kind from overflow])
  | ok _ ready =>
    obtain ⟨n, last, run, ends⟩ := exists_turns ready
    rw [run_of_startUp idle] at overflow
    have onTime := onTime_turns made (by omega) idle run
    have early := onTime.early
    refine measured_turn plain (fun change committed commits => ?_) ?_ kind ready.watch.2
      (ends.trans (congrArg Except.error (Prod.ext overflow rfl)))
    · exact dated_of_commits commits (recalls_turns made idle run)
        (ordered_edges Replay.forward run).2 (by omega)
    · split
      case isFalse => exact Replay.measured_wait _ nofun
      case isTrue pending =>
        have sum := onTime.cycle_lt pending
        refine Replay.measured_waitCycle ?_
        rw [onTime.paced]
        change last.now + max cycle 1 < Time.limit
        omega

theorem run_lt
    (made : ofConfig config ((Replay.ofTrace clock data trace).withCycle cycle) = .ok checker)
    (inRange : Replay.horizon config.settleTime trace + config.clockStretch < Time.limit) :
    checker.run.2.now <
      Replay.horizon config.settleTime trace + config.clockStretch + max cycle 1 := by
  cases idle : checker.startUp with
  | fail error stopped =>
    have early := now_startUp_le made
    rw [idle] at early
    unfold run
    rw [idle]
    change stopped.now < _
    change stopped.now ≤ _ at early
    omega
  | ok _ ready =>
    obtain ⟨n, last, run, ends⟩ := exists_turns ready
    have early := (onTime_turns made inRange idle run).turned
    rw [turned_of_ended ends] at early
    rw [run_of_startUp idle]
    exact early

theorem keepsTime
    (made : ofConfig config ((Replay.ofTrace clock data trace).withCycle cycle) = .ok checker)
    (inRange : Replay.horizon config.settleTime trace + config.clockStretch + max cycle 1 <
      Time.half) (recounts : checker.Recounts moments) :
    checker.KeepsTime moments config.clockStretch (max cycle 1)
      (Replay.horizon config.settleTime trace + config.clockStretch + max cycle 1) := by
  have half_le : Time.half ≤ Time.limit := by decide
  have ends := run_lt made (by omega)
  have measured := measured_run Replay.plain made inRange
  have stamped := stamps_of_recounts made recounts
  constructor
  case measured => exact measured
  case cycled =>
    intro ready before n idle run pending
    exact (onTime_turns made (by omega) idle run).cycle_lt pending
  case armed =>
    intro ready fallen n positive idle run falls
    have onTime := onTime_turns made (by omega) idle run
    have early := onTime.now_le_of_falls falls
    have lasts := onTime.lasts
    rw [← lasts] at positive
    have deadline := deadline_of_fall falls (decide_eq_true positive) (by omega)
      fun kind stopped ended => measured kind (run_of_last idle run ended)
    rw [lasts] at deadline
    exact ⟨deadline, by omega⟩
  case begins =>
    have start : checker.now = 0 := by
      unfold now
      rw [new_of_ofConfig made]
      rfl
    rw [start]
    exact Nat.zero_le _
  case onward =>
    intro ready before n idle run
    exact ⟨now_turns Replay.forward run, before.now_le_turned Replay.forward,
      turned_le_run Replay.forward idle run⟩
  case ends => exact ends
  case stamped => exact stamped
  case sorted =>
    rw [stamped]
    exact Moment.sorted_stamps (ordered_of_recounts Replay.forward recounts)
  case spans =>
    intro early late moment split broken mem
    exact spans_of_recounts Replay.plain Replay.forward made (by omega) recounts split mem

/-- On every recorded trace, whatever its order, a run keeps to the time that it has: if the horizon
of the trace, a stretch and a cycle lie before `Time.half` nothing that it works out leaves its range,
it ends before their sum, and its records and the intervals that it complains about are those of its
edges. -/
theorem keeps_time_of_horizon (config : Config) (cycle : Nat) (clock data : LineId)
    (trace : List PeerDrive) (checker : Checker Replay)
    (made : ofConfig config ((Replay.ofTrace clock data trace).withCycle cycle) = .ok checker)
    (inRange : Replay.horizon config.settleTime trace + config.clockStretch + max cycle 1 <
      Time.half) :
    ∃ moments, checker.Recounts moments ∧
      checker.KeepsTime moments config.clockStretch (max cycle 1)
        (Replay.horizon config.settleTime trace + config.clockStretch + max cycle 1) := by
  obtain ⟨moments, recounts⟩ := exists_recounts checker
  exact ⟨moments, recounts, keepsTime made inRange recounts⟩

/-- The data line is let go later than its entry says, while we hold the clock low. The run ends with
the stretch of the last fall of the clock, ten nanoseconds before the bound. -/
theorem keeps_time_out_of_order :
    Replay.horizon 100 [⟨20000, 1, some false⟩, ⟨25000, 0, some false⟩, ⟨25010, 0, none⟩,
      ⟨24000, 1, none⟩, ⟨28000, 0, some false⟩] + 50 + 20 < Time.half ∧
    ∃ checker : Checker Replay,
      ofConfig { clock := 0, data := 1, nominalSpeed := some 100, clockStretch := 50 }
        ((Replay.ofTrace 0 1 [⟨20000, 1, some false⟩, ⟨25000, 0, some false⟩, ⟨25010, 0, none⟩,
          ⟨24000, 1, none⟩, ⟨28000, 0, some false⟩]).withCycle 20) = .ok checker ∧
      checker.run.2.now = 28060 ∧
      Finding.timings checker.run.2.findings =
        [(.clockLow, 50), (.dataSetup, 40), (.clockHigh, 2950)] ∧
      ∃ moments, checker.Recounts moments ∧ checker.KeepsTime moments 50 20 28070 := by
  have seen : ((ofConfig { clock := 0, data := 1, nominalSpeed := some 100, clockStretch := 50 }
      ((Replay.ofTrace 0 1 [⟨20000, 1, some false⟩, ⟨25000, 0, some false⟩, ⟨25010, 0, none⟩,
        ⟨24000, 1, none⟩, ⟨28000, 0, some false⟩]).withCycle 20)).toOption.bind fun checker =>
      (checker.final? 100).map fun last => (last.now, Finding.timings last.findings)) =
      some (28060, [(.clockLow, 50), (.dataSetup, 40), (.clockHigh, 2950)]) := by decide +kernel
  obtain ⟨checker, made, seen⟩ := Option.bind_eq_some_iff.mp seen
  obtain ⟨last, ended, seen⟩ := Option.map_eq_some_iff.mp seen
  obtain ⟨time, told⟩ := by simpa only [Prod.mk.injEq] using seen
  obtain ⟨now, findings⟩ := run_of_final? ended
  have made := eq_ok_of_toOption made
  have inRange : Replay.horizon 100 [⟨20000, 1, some false⟩, ⟨25000, 0, some false⟩,
      ⟨25010, 0, none⟩, ⟨24000, 1, none⟩, ⟨28000, 0, some false⟩] + 50 + 20 < Time.half := by
    decide
  exact ⟨inRange, checker, made, now.trans time, findings ▸ told,
    keeps_time_of_horizon { clock := 0, data := 1, nominalSpeed := some 100, clockStretch := 50 } 20
      0 1 _ checker made inRange⟩

end Checker
end TwoWire
