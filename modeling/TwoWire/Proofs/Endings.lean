import TwoWire.Proofs.Driven

/-! How a run ends. On a bus that has both lines and fails no call of its own accord, only an
overflow and a wait are left (`wait_of_run`). -/

namespace TwoWire

theorem Outcome.state_andThen {motive : σ → Prop} {outcome : Outcome σ α}
    {next : α → σ → Outcome σ β} (first : motive outcome.state)
    (second : ∀ value middle, motive middle → motive (next value middle).state) :
    motive (outcome.andThen next).state := by
  cases outcome with
  | fail error middle => exact first
  | ok value middle => exact second value middle first

theorem Outcome.fail_of_andThen {outcome : Outcome σ α} {next : α → σ → Outcome σ β}
    {error : BusError} {after : σ} (h : outcome.andThen next = fail error after) :
    outcome = fail error after ∨
      ∃ first middle, outcome = ok first middle ∧ next first middle = fail error after := by
  cases outcome with
  | ok first middle => exact .inr ⟨first, middle, rfl, h⟩
  | fail reason middle =>
    cases h
    exact .inl rfl

namespace Probe

variable {β : Type} [LineBus β]

/-- Why anything but a wait fails: an interval cannot be measured, the bus refuses a drive or a line
is missing. -/
inductive Cut (first : Probe β) : BusError → Probe β → Prop
  | overflow {last : Probe β} {kind : Overflow} (acts : Acts first last) :
    Cut first (.overflow kind) last
  | refused {before last : Probe β} {line : Line} {level : Bool} {error : BusError}
      (acts : Acts first before) (refused : before.drive line level = .fail error last) :
    Cut first error last
  | missing {last : Probe β} {line : Line} (acts : Acts first last)
      (missing : LineBus.pin? last.bus (last.lines.id line) = none) :
    Cut first (.unknownLine (last.lines.id line)) last

/-- Why a run comes to its end. -/
inductive Ends (first : Probe β) : BusError → Probe β → Prop
  | cut {last : Probe β} {error : BusError} (cut : Cut first error last) : Ends first error last
  | failed {before last : Probe β} {kind : WaitKind} {error : BusError}
      (acts : Acts first before) (failed : before.wait kind = .fail error last) :
    Ends first error last

variable {first before last : Probe β} {error : BusError}

theorem Cut.after (acts : Acts first before) (cut : Cut before error last) :
    Cut first error last := by
  cases cut with
  | overflow later => exact .overflow (acts.trans later)
  | refused later refused => exact .refused (acts.trans later) refused
  | missing later missing => exact .missing (acts.trans later) missing

theorem Ends.after (acts : Acts first before) (ends : Ends before error last) :
    Ends first error last := by
  cases ends with
  | cut cut => exact .cut (cut.after acts)
  | failed later failed => exact .failed (acts.trans later) failed

theorem cut_refreshLine {line : Line} (h : before.refreshLine line = .fail error last) :
    Cut before error last := by
  unfold refreshLine at h
  split at h
  case h_1 reason unknown =>
    cases h
    unfold LineBus.isDriven at unknown
    split at unknown
    · cases unknown
    · rename_i missing
      cases unknown
      exact .missing (.aside rfl rfl) missing
  case h_2 => cases h
  case h_3 => exact .refused (.aside rfl rfl) h

theorem cut_refresh (h : before.refresh = .fail error last) : Cut before error last := by
  rcases Outcome.fail_of_andThen h with failed | ⟨_, middle, through, failed⟩
  · exact cut_refreshLine failed
  · exact (cut_refreshLine failed).after (acts_refreshLine through)

theorem cut_releaseWhenDue (h : before.releaseWhenDue = .fail error last) :
    Cut before error last := by
  unfold releaseWhenDue at h
  split at h
  case isFalse => cases h
  case isTrue =>
    rcases Outcome.fail_of_andThen h with refused | ⟨_, middle, -, failed⟩
    · exact .refused (.aside rfl rfl) refused
    · cases failed

theorem ends_pause (h : before.pause = .fail error last) : Ends before error last := by
  rcases Outcome.fail_of_andThen h with failed | ⟨_, middle, through, failed⟩
  · split at failed
    · rcases Outcome.fail_of_andThen failed with failed | ⟨_, woken, waited, failed⟩
      · exact .failed (.aside rfl rfl) failed
      · exact .cut ((cut_releaseWhenDue failed).after (.wait waited))
    · exact .failed (.aside rfl rfl) failed
  · refine .cut ((cut_refresh failed).after ?_)
    split at through
    · obtain ⟨_, woken, waited, released⟩ := Outcome.of_andThen through
      exact (Acts.wait waited).trans (acts_releaseWhenDue released)
    · exact .wait through

theorem cut_look (h : before.look = .error error) : Cut before error before := by
  have missing {line : Line}
      (peer : LineBus.peer? before.bus (before.lines.id line) = none) :
      Cut before (.unknownLine (before.lines.id line)) before :=
    .missing (.aside rfl rfl) (Option.map_eq_none_iff.mp peer)
  unfold look Lines.look at h
  split at h
  · rename_i peer
    cases h
    exact missing peer
  · rename_i peer
    cases h
    exact missing peer
  · cases h

theorem ends_wake (h : ((before.wait .change).andThen fun _ probe => probe.refresh) =
    .fail error last) : Ends before error last := by
  rcases Outcome.fail_of_andThen h with failed | ⟨_, woken, waited, failed⟩
  · exact .failed (.aside rfl rfl) failed
  · exact .cut ((cut_refresh failed).after (.wait waited))

theorem ends_awaitIdle (h : before.awaitIdle = .fail error last) : Ends before error last := by
  fun_induction awaitIdle before with
  | case1 probe reason unseen =>
    cases h
    exact .cut (cut_look unseen)
  | case2 => cases h
  | case3 probe sight look busy reason woken failed =>
    cases h
    exact ends_wake failed
  | case4 probe sight look busy _ woken waited ih => exact (ih h).after (acts_wake waited)

theorem ends_settle {time : Nat} (h : before.settle time = .fail error last) :
    Ends before error last := by
  rcases Outcome.fail_of_andThen h with refused | ⟨_, clock, clockFree, h⟩
  · exact .cut (.refused (.aside rfl rfl) refused)
  refine Ends.after (.drive clockFree) ?_
  rcases Outcome.fail_of_andThen h with refused | ⟨_, data, dataFree, h⟩
  · exact .cut (.refused (.aside rfl rfl) refused)
  refine Ends.after (.drive dataFree) ?_
  rcases Outcome.fail_of_andThen h with failed | ⟨_, late, waited, h⟩
  · exact .failed (.aside rfl rfl) failed
  · exact (ends_awaitIdle h).after (.wait waited)

end Probe

namespace Checker

variable {β : Type} [LineBus β] {before stopped : Checker β} {error : BusError}

open Probe (Acts Cut Ends)

theorem cut_report {notes : List Note} (h : before.report notes = .fail error stopped) :
    Cut before.probe error stopped.probe := by
  induction notes generalizing before with
  | nil => cases h
  | cons note rest ih =>
    cases note with
    | overflow kind =>
      cases h
      exact .overflow (.aside rfl rfl)
    | found finding =>
      have cut := @ih (before.note (.recorded ⟨before.now, before.protocol.phase, finding⟩)) h
      refine Cut.after ?_ cut
      exact .aside rfl rfl

theorem cut_drive {line : Line} {level : Bool} (h : before.drive line level = .fail error stopped) :
    Cut before.probe error stopped.probe := by
  unfold drive at h
  cases refused : before.probe.drive line level with
  | ok _ probe =>
    rw [refused] at h
    cases h
  | fail reason probe =>
    rw [refused] at h
    cases h
    exact .refused (.aside rfl rfl) refused

theorem cut_enter {sight : Sight} {phase : Phase}
    (h : before.enter sight phase = .fail error stopped) :
    Cut before.probe error stopped.probe := by
  unfold enter at h
  dsimp only at h
  generalize before.protocol.enter (before.view sight) phase = arrival at h
  generalize noted : ({ before.note (.entered before.protocol.phase phase before.now) with
    protocol := arrival.protocol } : Checker β) = checker at h
  have start : Acts before.probe checker.probe := by
    rw [← noted]
    exact .aside rfl rfl
  rcases Outcome.fail_of_andThen h with failed | ⟨_, told, reported, h⟩
  · exact (cut_report failed).after start
  rcases Outcome.fail_of_andThen h with failed | ⟨_, driven, -, h⟩
  · unfold driveData at failed
    split at failed
    · cases failed
    · exact (cut_drive failed).after (start.trans (acts_report reported))
  · cases h

theorem cut_follow {sight : Sight} {phase : Phase}
    (h : before.follow sight phase = .fail error stopped) :
    Cut before.probe error stopped.probe := by
  rcases Outcome.fail_of_andThen h with failed | ⟨forced?, middle, entered, h⟩
  · exact cut_enter failed
  · cases forced? with
    | none => cases h
    | some forced =>
      rcases Outcome.fail_of_andThen h with failed | ⟨_, last, -, h⟩
      · exact (cut_enter failed).after (acts_enter entered)
      · cases h

theorem cut_clockEdge {change : Change} (h : before.clockEdge change = .fail error stopped) :
    Cut before.probe error stopped.probe := by
  unfold clockEdge at h
  split at h
  case isFalse => cases h
  case isTrue =>
    unfold clockFell at h
    dsimp only at h
    split at h
    case isFalse => cases h
    case isTrue =>
      rcases Outcome.fail_of_andThen h with failed | ⟨_, low, -, h⟩
      · refine Cut.after ?_ (cut_drive failed)
        exact .aside rfl rfl
      · cases h

theorem cut_react {change : Change} (h : before.react change = .fail error stopped) :
    Cut before.probe error stopped.probe := by
  rcases Outcome.fail_of_andThen h with failed | ⟨_, judged, reported, h⟩
  · exact cut_report failed
  refine Cut.after (acts_report reported) ?_
  rcases Outcome.fail_of_andThen h with failed | ⟨_, middle, clocked, h⟩
  · exact cut_clockEdge failed
  refine Cut.after (acts_clockEdge clocked) ?_
  rcases Outcome.fail_of_andThen h with failed | ⟨_, told, reported, h⟩
  · exact cut_report failed
  · exact (cut_follow h).after (acts_report reported)

theorem fail_cases (h : before.turn = .error (error, stopped)) :
    Cut before.probe error stopped.probe ∨
      ∃ woken, before.probe.pause = .fail error woken ∧
        stopped = { before with probe := woken } := by
  unfold turn at h
  split at h
  case h_1 reason unseen =>
    cases h
    exact .inl (Probe.cut_look unseen)
  case h_2 sight look =>
    split at h
    case h_1 edge seen =>
      cases reacted : ({ before with probe := before.probe.commit sight edge } :
          Checker β).react ⟨edge, sight⟩ with
      | ok _ next =>
        rw [reacted] at h
        cases h
      | fail reason last =>
        rw [reacted] at h
        cases h
        refine .inl (Cut.after ?_ (cut_react reacted))
        exact .aside rfl rfl
    case h_2 =>
      cases paused : before.probe.pause with
      | ok _ woken =>
        rw [paused] at h
        cases h
      | fail reason woken =>
        rw [paused] at h
        cases h
        exact .inr ⟨woken, rfl, rfl⟩

theorem ends_turn (h : before.turn = .error (error, stopped)) :
    Ends before.probe error stopped.probe := by
  rcases fail_cases h with cut | ⟨woken, paused, rfl⟩
  · exact .cut cut
  · exact Probe.ends_pause paused

theorem acts_turns {ready between : Checker β} {n : Nat} (run : ready.turns n = .ok between) :
    Acts ready.probe between.probe := by
  obtain ⟨told, entered, passes⟩ := passes_of_turns run
  exact acts_of_passes passes

theorem ends_startUp (h : before.startUp = .fail error stopped) :
    Ends before.probe error stopped.probe := by
  unfold startUp at h
  cases settled : (before.note (.started before.config)).probe.settle before.config.settleTime with
  | ok _ late =>
    rw [settled] at h
    cases h
  | fail reason late =>
    rw [settled] at h
    cases h
    refine Ends.after ?_ (Probe.ends_settle settled)
    exact .aside rfl rfl

theorem ends_of_run (checker : Checker β) :
    ∃ last, Ends checker.probe checker.run.1 last ∧ checker.run.2.probe.bus = last.bus := by
  cases idle : checker.startUp with
  | fail error stopped =>
    refine ⟨stopped.probe, ?_, ?_⟩ <;> unfold run <;> rw [idle]
    · exact ends_startUp idle
    · rfl
  | ok _ ready =>
    obtain ⟨n, last, run, ends⟩ := exists_turns ready
    rw [run_of_startUp idle]
    refine ⟨ready.watch.2.probe, ?_, rfl⟩
    exact (ends_turn ends).after ((acts_startUp idle).trans (acts_turns run))

end Checker

namespace LineBus

variable {β : Type} [LineBus β]

/-- A kind of bus that fails no call of its own accord: a drive only if the line is missing, and no
wait but one for a change because nothing will happen any more. -/
structure Plain (β : Type) [LineBus β] : Prop where
  drive {bus stopped : β} {id : LineId} {level : Bool} {error : BusError} :
    LineBus.drive bus id level = .fail error stopped →
      LineBus.pin? bus id = none ∧ error = .unknownLine id
  wait {bus stopped : β} {kind : WaitKind} {error : BusError} :
    LineBus.wait bus kind = .fail error stopped →
      error = .closed ∧ kind = .change ∨ (∃ id, error = .unknownLine id) ∨
        ∃ overflow, error = .overflow overflow

theorem KeepsDrives.known {bus later : β} {id : LineId} (keeps : KeepsDrives bus)
    (called : Called bus later) (known : LineBus.pin? bus id ≠ none) :
    LineBus.pin? later id ≠ none := by
  have weak_ne {bus : β} : weak? bus id ≠ none ↔ LineBus.pin? bus id ≠ none :=
    Option.map_eq_none_iff.not
  rw [← weak_ne] at known ⊢
  induction called with
  | none => exact known
  | drive early driven ih =>
    rw [keeps.drive early driven]
    split
    · exact Option.some_ne_none _
    · exact ih
  | wait early waited ih =>
    rw [keeps.wait early waited]
    exact ih

end LineBus

namespace Probe

variable {β : Type} [LineBus β] {first before last : Probe β} {error : BusError}

theorem id_of_acts (acts : Acts first last) (line : Line) :
    last.lines.id line = first.lines.id line := by
  induction acts with
  | aside _ lines => rw [lines]
  | drive driven => rw [(drive_ok driven).2, Lines.id_setWeak]
  | wait waited =>
    obtain ⟨bus, -, rfl⟩ := wait_ok waited
    rfl
  | trans _ _ early late => exact late.trans early

theorem drive_fail {line : Line} {level : Bool} (h : before.drive line level = .fail error last) :
    LineBus.drive before.bus (before.lines.id line) level = .fail error last.bus := by
  unfold drive at h
  dsimp only at h
  rw [Lines.id_setWeak] at h
  cases refused : LineBus.drive before.bus (before.lines.id line) level with
  | ok _ bus =>
    rw [refused] at h
    cases h
  | fail reason bus =>
    rw [refused] at h
    cases h
    rfl

theorem wait_fail {kind : WaitKind} (h : before.wait kind = .fail error last) :
    ∃ bus, LineBus.wait before.bus kind = .fail error bus ∧
      last = before.called (.waited kind) bus := by
  unfold wait at h
  cases failed : LineBus.wait before.bus kind with
  | ok _ bus =>
    rw [failed] at h
    cases h
  | fail reason bus =>
    rw [failed] at h
    cases h
    exact ⟨bus, rfl, rfl⟩

theorem Cut.reason (plain : LineBus.Plain β) (cut : Cut first error last) :
    (∃ kind, error = .overflow kind) ∨ ∃ id, error = .unknownLine id := by
  cases cut with
  | overflow => exact .inl ⟨_, rfl⟩
  | refused _ refused => exact .inr ⟨_, (plain.drive (drive_fail refused)).2⟩
  | missing => exact .inr ⟨_, rfl⟩

end Probe

theorem Checker.wait_of_run {β : Type} [LineBus β] (plain : LineBus.Plain β) {checker : Checker β}
    (keeps : LineBus.KeepsDrives checker.probe.bus)
    (known : ∀ line, LineBus.pin? checker.probe.bus (checker.probe.lines.id line) ≠ none) :
    (∃ kind, checker.run.1 = .overflow kind) ∨
      ∃ bus kind, LineBus.Called checker.probe.bus bus ∧
        LineBus.wait bus kind = .fail checker.run.1 checker.run.2.probe.bus := by
  have still {later : Probe β} (acts : Probe.Acts checker.probe later) (line : Line) :
      LineBus.pin? later.bus (later.lines.id line) ≠ none := by
    rw [Probe.id_of_acts acts]
    exact keeps.known (Probe.called_of_acts acts) (known line)
  obtain ⟨last, ends, bus⟩ := checker.ends_of_run
  rw [bus]
  generalize checker.run.1 = error at ends ⊢
  cases ends with
  | cut cut =>
    cases cut with
    | overflow => exact .inl ⟨_, rfl⟩
    | refused acts refused =>
      exact absurd (plain.drive (Probe.drive_fail refused)).1 (still acts _)
    | missing acts missing => exact absurd missing (still acts _)
  | failed acts failed =>
    obtain ⟨bus, refused, rfl⟩ := Probe.wait_fail failed
    exact .inr ⟨_, _, Probe.called_of_acts acts, refused⟩

namespace Replay

variable {bus stopped : Replay} {error : BusError}

theorem fail_replayTo {time : Nat} {trace : List PeerDrive}
    (h : bus.replayTo time trace = .fail error stopped) : ∃ id, error = .unknownLine id := by
  induction trace generalizing bus with
  | nil => cases h
  | cons entry rest ih =>
    unfold replayTo at h
    split at h
    · cases h
    · dsimp only at h
      split at h
      · cases h
        exact ⟨_, rfl⟩
      · exact ih h

theorem plain : LineBus.Plain Replay where
  drive {bus _ id level error} h := by
    change bus.drive id level = _ at h
    unfold drive at h
    split at h
    case h_1 missing =>
      cases h
      exact ⟨missing, rfl⟩
    case h_2 => cases h
  wait {bus _ kind error} h := by
    change bus.wait kind = _ at h
    cases kind with
    | instant time => exact .inr (.inl (fail_replayTo h))
    | change =>
      change bus.waitChange = _ at h
      unfold waitChange at h
      split at h
      · cases h
        exact .inl ⟨rfl, rfl⟩
      · exact .inr (.inl (fail_replayTo h))
    | cycle =>
      change bus.waitCycle = _ at h
      unfold waitCycle at h
      dsimp only at h
      split at h
      · split at h <;> exact .inr (.inl (fail_replayTo h))
      · cases h
        exact .inr (.inr ⟨_, rfl⟩)

end Replay

namespace Simulation

variable {bus stopped : Simulation} {error : BusError}

theorem fail_of_checkRange {outcome : Outcome Simulation Unit}
    (h : checkRange outcome = .fail error stopped) :
    outcome = .fail error stopped ∨ error = .overflow .add := by
  unfold checkRange at h
  split at h
  · exact .inl h
  · cases h
    exact .inr rfl

theorem fail_seekChange {before : Bool × Bool}
    (h : bus.seekChange before = .fail error stopped) : error = .closed := by
  fun_induction seekChange before bus with
  | case1 => cases h
  | case2 =>
    cases h
    rfl
  | case3 _ _ _ _ ih => exact ih h

theorem fail_wait {kind : WaitKind} (h : bus.wait kind = .fail error stopped) :
    error = .closed ∧ kind = .change ∨ error = .overflow .add := by
  cases kind with
  | instant time =>
    rcases fail_of_checkRange h with failed | overflow
    · cases failed
    · exact .inr overflow
  | change =>
    rcases fail_of_checkRange h with failed | overflow
    · exact .inl ⟨fail_seekChange failed, rfl⟩
    · exact .inr overflow
  | cycle =>
    rcases fail_of_checkRange h with failed | overflow
    · unfold waitCycle at failed
      dsimp only at failed
      split at failed
      · cases failed
      · split at failed <;> cases failed
        exact .inr rfl
    · exact .inr overflow

theorem plain : LineBus.Plain Simulation where
  drive {bus _ id level error} h := by
    change bus.drive id level = _ at h
    unfold drive at h
    split at h
    case h_1 missing =>
      cases h
      exact ⟨Option.map_eq_none_iff.mpr missing, rfl⟩
    case h_2 => cases h
  wait h := by
    rcases fail_wait h with closed | overflow
    · exact .inl closed
    · exact .inr (.inr ⟨_, overflow⟩)

end Simulation
end TwoWire
