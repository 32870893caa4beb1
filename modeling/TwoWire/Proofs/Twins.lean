import TwoWire.Proofs.Abreast
import TwoWire.Proofs.Finite
import TwoWire.Proofs.StartUp

/-! One list of the peer's changes on both kinds of bus. A change that leaves the levels as they
were ends a wait on the first bus and not on the second. -/

namespace TwoWire

structure PeerChange where
  time : Nat
  line : Line
  level : Option Bool
  deriving DecidableEq, Repr

namespace PeerChange

def entry (lines : Lines) (change : PeerChange) : PeerDrive :=
  ⟨change.time, lines.id change.line, change.level⟩

def steps (now : Nat) : List PeerChange → List Step
  | [] => []
  | change :: rest =>
    (if change.time - now = 0 then [] else [.delay (change.time - now)]) ++
      .drive change.line change.level :: steps change.time rest

/-- The changes come one after the other, none before `now` and none out of the range of time. -/
def Scheduled (now : Nat) : List PeerChange → Prop
  | [] => True
  | change :: rest =>
    now ≤ change.time ∧ change.time < Time.limit ∧ Scheduled change.time rest

theorem scheduled_of_sorted {now : Nat} {changes : List PeerChange}
    (sorted : changes.Pairwise fun early late => early.time ≤ late.time)
    (instants : ∀ change ∈ changes, change.time < Time.limit)
    (ahead : ∀ change ∈ changes, now ≤ change.time) : Scheduled now changes := by
  induction changes generalizing now with
  | nil => trivial
  | cons change rest ih =>
    obtain ⟨later, sorted⟩ := List.pairwise_cons.mp sorted
    refine ⟨ahead change List.mem_cons_self, instants change List.mem_cons_self, ?_⟩
    exact ih sorted (fun other mem => instants other (List.mem_cons_of_mem _ mem)) later

end PeerChange

open PeerChange (entry steps Scheduled)

def Replay.setPin (bus : Replay) (line : Line) (pin : Pin) : Replay :=
  match line with
  | .clock => { bus with clock := pin }
  | .data => { bus with data := pin }

theorem Replay.waitUntil_waitUntil {bus middle : Replay} {early late : Nat} (later : early ≤ late)
    (waited : bus.waitUntil early = .ok () middle) :
    middle.waitUntil late = bus.waitUntil late := by
  unfold waitUntil at waited ⊢
  generalize bus.trace = trace at waited ⊢
  induction trace generalizing bus with
  | nil =>
    have same : max (max bus.now early) late = max bus.now late := by omega
    cases waited
    rw [replayTo, replayTo]
    dsimp only
    rw [same]
  | cons entry rest ih =>
    rw [replayTo] at waited
    split at waited
    case isTrue ahead =>
      have same : max (max bus.now early) late = max bus.now late := by omega
      have same' : max (max bus.now early) entry.time = max bus.now entry.time := by omega
      cases waited
      rw [replayTo, replayTo]
      dsimp only
      rw [same, same']
    case isFalse due =>
      rw [replayTo, if_neg (by omega)]
      dsimp only at waited ⊢
      split at waited
      case h_1 => cases waited
      case h_2 => exact ih waited

theorem Simulation.seekChange_runDue {bus : Simulation} {before : Bool × Bool}
    (settled : bus.runDue.runDue = bus.runDue) :
    bus.seekChange before = bus.runDue.seekChange before := by
  rw [seekChange, seekChange]
  generalize bus.runDue.runDue = again at settled ⊢
  subst settled
  rfl

theorem Simulation.update_eq (bus : Simulation) (line : Line) (pin : Pin) :
    ∃ moves, bus.update line pin = { bus.setPin line pin with transitions := moves } := by
  unfold update
  split
  · exact ⟨(bus.setPin line pin).transitions, rfl⟩
  · exact ⟨_, rfl⟩

theorem Simulation.update_resumeAt (bus : Simulation) (line : Line) (pin : Pin) :
    (bus.update line pin).resumeAt = bus.resumeAt := by
  obtain ⟨moves, same⟩ := bus.update_eq line pin
  rw [same]
  cases line <;> rfl

theorem Simulation.wake_of_running {bus : Simulation} (running : bus.waiting = false) :
    bus.wake = bus := by
  unfold wake
  rw [running]
  cases bus
  cases running
  rfl

/-- The buses are at the same instant and their lines are driven alike. -/
structure Twin (lines : Lines) (replay : Replay) (simulation : Simulation) : Prop where
  now : simulation.now = replay.now
  cycle : simulation.cycle = replay.cycle
  clock : simulation.clock = replay.clock
  data : simulation.data = replay.data
  ids : ∀ line, (simulation.pin line).id = lines.id line
  distinct : lines.clock ≠ lines.data
  running : simulation.waiting = false

variable {lines : Lines} {replay : Replay} {simulation : Simulation} {changes : List PeerChange}

namespace Twin

theorem setPin (twin : Twin lines replay simulation) {line : Line} {pin : Pin}
    (id : pin.id = lines.id line) :
    Twin lines (replay.setPin line pin) (simulation.update line pin) := by
  obtain ⟨moves, same⟩ := simulation.update_eq line pin
  obtain ⟨now, cycle, clock, data, ids, distinct, running⟩ := twin
  rw [same]
  cases line with
  | clock =>
    refine ⟨now, cycle, rfl, data, fun other => ?_, distinct, running⟩
    cases other with
    | clock => exact id
    | data => exact ids .data
  | data =>
    refine ⟨now, cycle, clock, rfl, fun other => ?_, distinct, running⟩
    cases other with
    | clock => exact ids .clock
    | data => exact id

theorem setPeer (twin : Twin lines replay simulation) (line : Line) (level : Option Bool) :
    replay.setPeer (lines.id line) level =
      replay.setPin line { simulation.pin line with peer := level } := by
  have clock : replay.clock.id = lines.clock := twin.clock ▸ twin.ids .clock
  unfold Replay.setPeer
  rw [clock]
  cases line with
  | clock =>
    rw [if_pos (show lines.id .clock = lines.clock from rfl), ← twin.clock]
    rfl
  | data =>
    rw [if_neg (show ¬lines.id .data = lines.clock from twin.distinct.symm), ← twin.data]
    rfl

theorem drivePeer (twin : Twin lines replay simulation) (line : Line) (level : Option Bool) :
    Twin lines (replay.setPeer (lines.id line) level)
      (simulation.update line { simulation.pin line with peer := level }) := by
  rw [twin.setPeer]
  exact twin.setPin (twin.ids line)

theorem setWeak (twin : Twin lines replay simulation) (line : Line) (level : Bool) :
    replay.setWeak (lines.id line) level =
      replay.setPin line { simulation.pin line with weak := level } := by
  have clock : replay.clock.id = lines.clock := twin.clock ▸ twin.ids .clock
  unfold Replay.setWeak
  rw [clock]
  cases line with
  | clock =>
    rw [if_pos (show lines.id .clock = lines.clock from rfl), ← twin.clock]
    rfl
  | data =>
    rw [if_neg (show ¬lines.id .data = lines.clock from twin.distinct.symm), ← twin.data]
    rfl

theorem pin? (twin : Twin lines replay simulation) (id : LineId) :
    simulation.pin? id = replay.pin? id := by
  unfold Simulation.pin? Simulation.line? Replay.pin?
  rw [twin.clock, twin.data]
  split
  · exact congrArg some twin.clock
  · split
    · exact congrArg some twin.data
    · rfl

theorem line? (twin : Twin lines replay simulation) (line : Line) :
    simulation.line? (lines.id line) = some line := by
  unfold Simulation.line?
  have clock : simulation.clock.id = lines.clock := twin.ids .clock
  have data : simulation.data.id = lines.data := twin.ids .data
  rw [clock, data]
  cases line with
  | clock => exact if_pos rfl
  | data => exact (if_neg twin.distinct.symm).trans (if_pos rfl)

theorem known (twin : Twin lines replay simulation) (line : Line) :
    replay.pin? (lines.id line) = some (simulation.pin line) := by
  rw [← twin.pin?]
  unfold Simulation.pin?
  rw [twin.line?]
  rfl

end Twin

namespace Simulation

theorem runFrom_of_paused {bus : Simulation} (paused : bus.stage.Paused) (program : List Step) :
    bus.runFrom program = { bus with program } := by
  have awake := wake_of_running paused.running
  have early : bus.now < bus.resumeAt := paused.early
  cases program with
  | nil => rw [runFrom, awake]
  | cons step rest => rw [runFrom, awake, if_pos (by simp [isBlocked, early])]

theorem runFrom_of_ready {bus : Simulation} (running : bus.waiting = false)
    (late : bus.resumeAt ≤ bus.now) (step : Step) (rest : List Step) :
    bus.runFrom (step :: rest) = (bus.execute step).runFrom rest := by
  rw [runFrom, wake_of_running running, if_neg (by simp [isBlocked, running, late])]

end Simulation

/-- How the program stands when all that is due has been done: at its end, or in the delay before the
next change. -/
def Stands (simulation : Simulation) : List PeerChange → Prop
  | [] => simulation.program = [] ∧ simulation.resumeAt ≤ simulation.now
  | change :: rest =>
    simulation.now < change.time ∧ simulation.resumeAt = change.time ∧
      Scheduled simulation.now (change :: rest) ∧
      simulation.program = .drive change.line change.level :: steps change.time rest

structure Settled (lines : Lines) (replay : Replay) (simulation : Simulation)
    (changes : List PeerChange) : Prop extends Twin lines replay simulation where
  trace : replay.trace = changes.map (entry lines)
  stands : Stands simulation changes
  instant : simulation.now < Time.limit

def InStep (lines : Lines) (replay : Replay) (simulation : Simulation) : Prop :=
  ∃ changes, Settled lines replay simulation changes

theorem Twin.runFrom (twin : Twin lines replay simulation)
    (resumed : simulation.resumeAt ≤ simulation.now) (instant : simulation.now < Time.limit)
    (scheduled : Scheduled simulation.now changes) :
    ∃ later rest, replay.replayTo replay.now (changes.map (entry lines)) = .ok () later ∧
      Settled lines later (simulation.runFrom (steps simulation.now changes)) rest := by
  induction changes generalizing replay simulation with
  | nil =>
    refine ⟨_, [], rfl, ?_⟩
    have awake := Simulation.wake_of_running twin.running
    obtain ⟨now, cycle, clock, data, ids, distinct, running⟩ := twin
    unfold steps Simulation.runFrom
    rw [awake]
    exact ⟨⟨now.trans (Nat.max_self _).symm, cycle, clock, data, ids, distinct, running⟩, rfl,
      ⟨rfl, resumed⟩, instant⟩
  | cons change rest ih =>
    obtain ⟨ahead, range, later⟩ := scheduled
    by_cases due : change.time = simulation.now
    case pos =>
      have now : max replay.now change.time = replay.now := by rw [← twin.now, due, Nat.max_self]
      have taken : Twin lines { replay with now := max replay.now change.time
                                            trace := rest.map (entry lines) } simulation := by
        obtain ⟨same, cycle, clock, data, ids, distinct, running⟩ := twin
        exact ⟨same.trans now.symm, cycle, clock, data, ids, distinct, running⟩
      have driven := taken.drivePeer change.line change.level
      have resumeAt := simulation.update_resumeAt change.line
        { simulation.pin change.line with peer := change.level }
      have same := simulation.update_now change.line
        { simulation.pin change.line with peer := change.level }
      obtain ⟨last, left, replayed, settled⟩ := ih driven (by rw [same, resumeAt]; exact resumed)
        (same ▸ instant) (by rw [same, ← due]; exact later)
      refine ⟨last, left, ?_, ?_⟩
      · rw [List.map_cons, Replay.replayTo, if_neg (by rw [← twin.now]; exact due.not_gt)]
        dsimp only [entry]
        rw [Replay.now_setPeer, show Replay.now { replay with
          now := max replay.now change.time, trace := rest.map (entry lines) } = replay.now from now]
          at replayed
        rw [taken.known]
        exact replayed
      · unfold steps
        rw [if_pos (by omega), due, List.nil_append,
          Simulation.runFrom_of_ready twin.running resumed]
        rw [same] at settled
        exact settled
    case neg =>
      have early : simulation.now < change.time := Nat.lt_of_le_of_ne ahead (Ne.symm due)
      have wait : change.time - simulation.now ≠ 0 := by omega
      have ends : simulation.now + (change.time - simulation.now) = change.time := by omega
      refine ⟨{ replay with now := max replay.now replay.now
                            trace := (change :: rest).map (entry lines) }, change :: rest, ?_, ?_⟩
      · rw [List.map_cons, Replay.replayTo, if_pos]
        rw [← twin.now]
        exact early
      · have paused : (simulation.execute (.delay (change.time - simulation.now))).stage.Paused :=
          ⟨twin.running, by
            change simulation.now < simulation.now + (change.time - simulation.now)
            omega⟩
        unfold steps
        rw [if_neg wait, List.cons_append, Simulation.runFrom_of_ready twin.running resumed,
          List.nil_append, Simulation.runFrom_of_paused paused]
        obtain ⟨now, cycle, clock, data, ids, distinct, running⟩ := twin
        exact ⟨⟨now.trans (Nat.max_self _).symm, cycle, clock, data, ids, distinct, running⟩, rfl,
          ⟨early, ends, ⟨ahead, range, later⟩, rfl⟩, instant⟩

namespace Settled

theorem runDue (settled : Settled lines replay simulation changes) :
    simulation.runDue = simulation := by
  have stands := settled.stands
  unfold Simulation.runDue
  cases changes with
  | nil =>
    rw [stands.1, Simulation.runFrom, Simulation.wake_of_running settled.running, ← stands.1]
  | cons change rest =>
    have paused : simulation.stage.Paused := by
      refine ⟨settled.running, ?_⟩
      change simulation.now < simulation.resumeAt
      rw [stands.2.1]
      exact stands.1
    exact Simulation.runFrom_of_paused paused _

theorem nextWake? (settled : Settled lines replay simulation changes) :
    simulation.nextWake? = changes.head?.map PeerChange.time := by
  have stands := settled.stands
  unfold Simulation.nextWake?
  rw [settled.running, if_neg Bool.false_ne_true]
  cases changes with
  | nil =>
    rw [if_neg (Nat.not_lt.mpr stands.2), stands.1]
    rfl
  | cons change rest =>
    rw [stands.2.1, if_pos stands.1]
    rfl

theorem inRange (settled : Settled lines replay simulation changes) :
    simulation.inRange = true := by
  have stands := settled.stands
  have instant := settled.instant
  have resumes : simulation.resumeAt < Time.limit := by
    cases changes with
    | nil => exact Nat.lt_of_le_of_lt stands.2 instant
    | cons change rest =>
      rw [stands.2.1]
      exact stands.2.2.1.2.1
  unfold Simulation.inRange
  rw [decide_eq_true instant, decide_eq_true resumes]
  rfl

theorem checkRange (settled : Settled lines replay simulation changes) :
    Simulation.checkRange (.ok () simulation) = .ok () simulation := by
  unfold Simulation.checkRange
  rw [Outcome.state_ok, settled.inRange]
  rfl

theorem ahead (settled : Settled lines replay simulation changes) {change : PeerChange}
    (head : changes.head? = some change) :
    simulation.now < change.time ∧ change.time < Time.limit := by
  have stands := settled.stands
  cases changes with
  | nil => cases head
  | cons first rest =>
    cases head
    exact ⟨stands.1, stands.2.2.1.2.1⟩

theorem advance (settled : Settled lines replay simulation changes) {time : Nat}
    (later : simulation.now ≤ time) (instant : time < Time.limit)
    (early : ∀ change ∈ changes.head?, time ≤ change.time) :
    ∃ replay' rest, replay.waitUntil time = .ok () replay' ∧
      Settled lines replay' (simulation.moveTo time).runDue rest := by
  have moved : Twin lines { replay with now := max replay.now time } (simulation.moveTo time) := by
    obtain ⟨now, cycle, clock, data, ids, distinct, running⟩ := settled.toTwin
    exact ⟨congrArg (max · time) now, cycle, clock, data, ids, distinct, running⟩
  have now : (simulation.moveTo time).now = time := Nat.max_eq_right later
  have moved' (trace : List PeerDrive) :
      Twin lines { replay with now := max replay.now time, trace } (simulation.moveTo time) := by
    obtain ⟨same, cycle, clock, data, ids, distinct, running⟩ := moved
    exact ⟨same, cycle, clock, data, ids, distinct, running⟩
  have stands := settled.stands
  unfold Replay.waitUntil
  rw [settled.trace]
  cases changes with
  | nil =>
    have settled' : Settled lines { replay with now := max replay.now time, trace := [] }
        (simulation.moveTo time) [] :=
      ⟨moved' [], rfl, ⟨stands.1, stands.2.trans (Nat.le_max_left ..)⟩,
        now.trans_lt instant⟩
    refine ⟨_, [], rfl, ?_⟩
    rw [settled'.runDue]
    exact settled'
  | cons change rest =>
    obtain ⟨ahead, resumeAt, ⟨-, range, scheduled⟩, program⟩ := stands
    rcases Nat.lt_or_eq_of_le (early change rfl) with before | due
    · have settled' : Settled lines { replay with
          now := max replay.now time, trace := (change :: rest).map (entry lines) }
          (simulation.moveTo time) (change :: rest) :=
        ⟨moved' _, rfl, ⟨now.trans_lt before, resumeAt,
          ⟨(now.trans_lt before).le, range, scheduled⟩, program⟩, now.trans_lt instant⟩
      rw [List.map_cons, Replay.replayTo,
        if_pos (show time < (entry lines change).time from before), settled'.runDue]
      exact ⟨_, change :: rest, rfl, settled'⟩
    · have resumed : (simulation.moveTo time).resumeAt ≤ (simulation.moveTo time).now := by
        rw [now, due]
        exact Nat.le_of_eq resumeAt
      have scheduled' : Scheduled (simulation.moveTo time).now (change :: rest) :=
        ⟨(now.trans due).le, range, scheduled⟩
      obtain ⟨last, left, replayed, settled'⟩ :=
        moved.runFrom resumed (now.trans_lt instant) scheduled'
      refine ⟨last, left, ?_, ?_⟩
      · have same : max replay.now time = time := by rw [← settled.now]; exact now
        have entered : (entry lines change).time = time := due.symm
        rw [← replayed, List.map_cons, Replay.replayTo, Replay.replayTo]
        dsimp only
        rw [entered, same, Nat.max_self, if_neg (Nat.lt_irrefl time)]
      · have steps : simulation.program = steps (simulation.moveTo time).now (change :: rest) := by
          rw [now, program, PeerChange.steps, if_pos (by omega), List.nil_append]
        unfold Simulation.runDue
        rw [← steps] at settled'
        exact settled'

theorem waitUntil (settled : Settled lines replay simulation.runDue changes) {time : Nat}
    (later : simulation.now ≤ time) (instant : time < Time.limit) :
    ∃ replay' rest, replay.waitUntil time = .ok () replay' ∧
      Settled lines replay' (simulation.waitUntil time) rest := by
  fun_induction Simulation.waitUntil simulation time generalizing replay changes with
  | case1 simulation wake =>
    rw [settled.nextWake?, Option.map_eq_none_iff] at wake
    refine settled.advance (by rwa [Simulation.now_runDue]) instant fun change head => ?_
    rw [wake] at head
    cases head
  | case2 simulation instant' wake early ih =>
    rw [settled.nextWake?, Option.map_eq_some_iff] at wake
    obtain ⟨change, head, rfl⟩ := wake
    obtain ⟨ahead, range⟩ := settled.ahead head
    rw [Simulation.now_runDue] at ahead
    obtain ⟨middle, left, moved, settled'⟩ := settled.advance
      (by rw [Simulation.now_runDue]; exact ahead.le) range fun other head' => by
        rw [head] at head'
        cases head'
        exact Nat.le_refl _
    obtain ⟨last, rest, waited, settled''⟩ := ih settled' (by
      rw [Simulation.now_moveTo, Simulation.now_runDue, Nat.max_eq_right ahead.le]
      exact early)
    refine ⟨last, rest, ?_, settled''⟩
    rw [← waited]
    exact (Replay.waitUntil_waitUntil early moved).symm
  | case3 simulation instant' wake late =>
    rw [settled.nextWake?, Option.map_eq_some_iff] at wake
    obtain ⟨change, head, rfl⟩ := wake
    refine settled.advance (by rwa [Simulation.now_runDue]) instant fun other head' => ?_
    rw [head] at head'
    cases head'
    exact (Nat.not_le.mp late).le

theorem wait_cycle (settled : Settled lines replay simulation changes) :
    Outcome.Abreast (InStep lines) (fun _ _ _ => False) (LineBus.wait replay .cycle)
      (LineBus.wait simulation .cycle) := by
  change Outcome.Abreast _ _ replay.waitCycle (Simulation.checkRange simulation.waitCycle)
  have positive := simulation.cycle_pos
  have stop : replay.now + replay.cycle = simulation.now + simulation.cycle := by
    rw [settled.now, settled.cycle]
  have step {time : Nat} (later : simulation.now ≤ time) (instant : time < Time.limit)
      (early : ∀ change ∈ changes.head?, time ≤ change.time) :
      Outcome.Abreast (InStep lines) (fun _ _ _ => False) (replay.waitUntil time)
        (Simulation.checkRange (.ok () (simulation.moveTo time).runDue)) := by
    obtain ⟨last, rest, waited, settled'⟩ := settled.advance later instant early
    rw [waited, settled'.checkRange]
    exact .ok ⟨rest, settled'⟩
  unfold Replay.waitCycle Simulation.waitCycle
  dsimp only
  rw [settled.runDue, settled.nextWake?, if_neg (not_not.mpr rfl), stop]
  split
  case isFalse =>
    have failed : Simulation.checkRange (.fail (.overflow .add) simulation) =
        .fail (.overflow .add) simulation := by
      unfold Simulation.checkRange
      split <;> rfl
    rw [failed]
    exact .fail ⟨changes, settled⟩
  case isTrue range =>
    have trace := settled.trace
    cases changes with
    | nil =>
      rw [trace]
      exact step (Nat.le_add_right ..) range nofun
    | cons change rest =>
      obtain ⟨ahead, instant⟩ := settled.ahead (show (change :: rest).head? = some change from rfl)
      rw [trace]
      change Outcome.Abreast _ _ (replay.waitUntil (min change.time _)) _
      rw [Nat.min_comm]
      refine step ?_ ?_ ?_
      · exact Nat.le_min.mpr ⟨Nat.le_add_right .., ahead.le⟩
      · exact Nat.lt_of_le_of_lt (Nat.min_le_left ..) range
      · rintro _ ⟨⟩
        exact Nat.min_le_right ..

/-- The first bus is woken by a change that leaves the levels as they were, and then both wait for
the same; or both wait alike. -/
theorem wait_change (settled : Settled lines replay simulation changes) :
    (∃ replay' simulation', LineBus.wait replay .change = .ok () replay' ∧
        InStep lines replay' simulation' ∧ simulation.Held simulation' ∧
        simulation'.levels = simulation.levels ∧
        LineBus.wait simulation .change = LineBus.wait simulation' .change) ∨
      Outcome.Abreast (InStep lines) (fun _ _ _ => False) (LineBus.wait replay .change)
        (LineBus.wait simulation .change) := by
  change (∃ (replay' : Replay) (simulation' : Simulation), replay.waitChange = _ ∧ _ ∧ _ ∧ _ ∧
    Simulation.checkRange simulation.waitChange = Simulation.checkRange simulation'.waitChange) ∨
      Outcome.Abreast _ _ replay.waitChange (Simulation.checkRange simulation.waitChange)
  have stands := settled.stands
  have trace := settled.trace
  have due : simulation.runDue.stage = simulation.stage := congrArg _ settled.runDue
  cases changes with
  | nil =>
    have closed : simulation.waitChange = .fail .closed simulation := by
      refine (Simulation.seekChange_of_closed due rfl settled.running stands.2 stands.1).trans ?_
      rw [settled.runDue]
    have inRange : Simulation.checkRange (.fail .closed simulation) = .fail .closed simulation := by
      unfold Simulation.checkRange
      rw [Outcome.state_fail, settled.inRange]
      rfl
    unfold Replay.waitChange
    rw [trace, closed, inRange]
    exact .inr (.fail ⟨[], settled⟩)
  | cons change rest =>
    obtain ⟨ahead, instant⟩ := settled.ahead (show (change :: rest).head? = some change from rfl)
    obtain ⟨last, left, waited, settled'⟩ := settled.advance ahead.le instant (by
      rintro _ ⟨⟩
      exact Nat.le_refl _)
    have woken : replay.waitChange = .ok () last := by
      unfold Replay.waitChange
      rw [trace]
      exact waited
    have paused : simulation.stage.Paused := by
      refine ⟨settled.running, ?_⟩
      change simulation.now < simulation.resumeAt
      rw [stands.2.1]
      exact ahead
    have sought : simulation.waitChange =
        (simulation.moveTo change.time).seekChange simulation.levels := by
      refine (Simulation.seekChange_of_paused due rfl paused).trans ?_
      rw [settled.runDue, ← stands.2.1]
      rfl
    by_cases silent : (simulation.moveTo change.time).runDue.levels = simulation.levels
    case pos =>
      refine .inl ⟨last, _, woken, ⟨left, settled'⟩, ?_, silent, congrArg _ ?_⟩
      · have moved : simulation.Held (simulation.moveTo change.time) := ⟨⟨rfl, rfl, rfl⟩, rfl, rfl⟩
        exact moved.trans (Simulation.held_runFrom ..)
      · unfold Simulation.waitChange at sought ⊢
        rw [sought, silent, Simulation.seekChange_runDue settled'.runDue]
    case neg =>
      rw [woken, sought, Simulation.seekChange_of_change silent, settled'.checkRange]
      exact .inr (.ok ⟨left, settled'⟩)

end Settled

theorem Simulation.hold_eq (bus : Simulation) (line : Line) (level : Bool) :
    (bus.hold line level).now = bus.now ∧ (bus.hold line level).resumeAt = bus.resumeAt ∧
      (bus.hold line level).program = bus.program := by
  obtain ⟨moves, same⟩ := bus.update_eq line { bus.pin line with weak := level }
  unfold hold
  rw [same]
  cases line <;> exact ⟨rfl, rfl, rfl⟩

namespace Twin

theorem drive (twin : Twin lines replay simulation) (line : Line) (level : Bool) :
    ∃ replay', replay.drive (lines.id line) level = .ok () replay' ∧
      simulation.drive (lines.id line) level = .ok () (simulation.hold line level) ∧
      Twin lines replay' (simulation.hold line level) ∧ replay'.trace = replay.trace := by
  have set : Twin lines (replay.setPin line { simulation.pin line with weak := level })
      (simulation.hold line level) := twin.setPin (twin.ids line)
  rw [← twin.setWeak] at set
  obtain ⟨now, cycle, clock, data, ids, distinct, running⟩ := set
  refine ⟨{ replay.setWeak (lines.id line) level with
    drives := ⟨(replay.setWeak (lines.id line) level).now, lines.id line, level⟩ ::
      (replay.setWeak (lines.id line) level).drives }, ?_, ?_,
    ⟨now, cycle, clock, data, ids, distinct, running⟩, replay.setWeak_trace _ _⟩
  · unfold Replay.drive
    rw [twin.known]
  · unfold Simulation.drive
    rw [twin.line?]
    rfl

theorem id_of_line? (twin : Twin lines replay simulation) {id : LineId} {line : Line}
    (found : simulation.line? id = some line) : id = lines.id line := by
  rw [← twin.ids]
  unfold Simulation.line? at found
  split at found
  case isTrue clock =>
    cases found
    exact clock
  case isFalse =>
    split at found
    case isTrue data =>
      cases found
      exact data
    case isFalse => cases found

end Twin

theorem Settled.drive (settled : Settled lines replay simulation changes) (id : LineId)
    (level : Bool) : Outcome.Abreast (InStep lines) (fun _ _ _ => False)
      (LineBus.drive replay id level) (LineBus.drive simulation id level) := by
  change Outcome.Abreast _ _ (replay.drive id level) (simulation.drive id level)
  cases found : simulation.line? id with
  | none =>
    have unknown : replay.pin? id = none := by
      rw [← settled.pin?]
      unfold Simulation.pin?
      rw [found]
      rfl
    unfold Replay.drive Simulation.drive
    rw [unknown, found]
    exact .fail ⟨changes, settled⟩
  | some line =>
    rw [settled.id_of_line? found]
    obtain ⟨replay', driven, driven', twin, trace⟩ := settled.toTwin.drive line level
    obtain ⟨now, resumeAt, program⟩ := simulation.hold_eq line level
    rw [driven, driven']
    refine .ok ⟨changes, twin, trace.trans settled.trace, ?_, now.trans_lt settled.instant⟩
    have stands := settled.stands
    cases changes with
    | nil =>
      unfold Stands at stands ⊢
      rwa [now, resumeAt, program]
    | cons change rest =>
      unfold Stands at stands ⊢
      rwa [now, resumeAt, program]

/-- All the changes are still to come, also those that are due. -/
structure Primed (lines : Lines) (replay : Replay) (simulation : Simulation)
    (changes : List PeerChange) : Prop extends Twin lines replay simulation where
  trace : replay.trace = changes.map (entry lines)
  program : simulation.program = steps simulation.now changes
  resumed : simulation.resumeAt ≤ simulation.now
  scheduled : Scheduled simulation.now changes

namespace Primed

theorem drive (primed : Primed lines replay simulation changes) (line : Line) (level : Bool) :
    ∃ replay', replay.drive (lines.id line) level = .ok () replay' ∧
      simulation.drive (lines.id line) level = .ok () (simulation.hold line level) ∧
      Primed lines replay' (simulation.hold line level) changes := by
  obtain ⟨replay', driven, driven', twin, trace⟩ := primed.toTwin.drive line level
  obtain ⟨now, resumeAt, program⟩ := simulation.hold_eq line level
  refine ⟨replay', driven, driven', twin, trace.trans primed.trace, ?_, ?_, ?_⟩
  · rw [program, now]
    exact primed.program
  · rw [resumeAt, now]
    exact primed.resumed
  · rw [now]
    exact primed.scheduled

theorem wait (primed : Primed lines replay simulation changes) {time : Nat}
    (later : simulation.now ≤ time) (instant : time < Time.limit) :
    ∃ replay' simulation', LineBus.wait replay (.instant time) = .ok () replay' ∧
      LineBus.wait simulation (.instant time) = .ok () simulation' ∧
      InStep lines replay' simulation' := by
  obtain ⟨middle, left, replayed, settled⟩ := primed.runFrom primed.resumed
    (Nat.lt_of_le_of_lt later instant) primed.scheduled
  rw [← primed.program] at settled
  rw [← primed.trace] at replayed
  obtain ⟨last, rest, waited, settled'⟩ := Settled.waitUntil settled later instant
  refine ⟨last, simulation.waitUntil time, ?_, settled'.checkRange, rest, settled'⟩
  change replay.waitUntil time = _
  rw [← waited]
  exact (Replay.waitUntil_waitUntil (primed.now ▸ later) replayed).symm

end Primed
end TwoWire
