import TwoWire.Proofs.Wakeups

/-! Runs on finite scenarios end: a trace and a program are both used up after a number of wake-ups
that can be told beforehand (`ends_on_finite_scenario`). -/

namespace TwoWire

namespace Replay

variable {bus after : Replay}

theorem now_setPeer (bus : Replay) (id : LineId) (level : Option Bool) :
    (bus.setPeer id level).now = bus.now := by
  unfold setPeer
  split <;> rfl

theorem now_replayTo (bus : Replay) (time : Nat) (trace : List PeerDrive) :
    bus.now ≤ (bus.replayTo time trace).state.now := by
  induction trace generalizing bus with
  | nil => exact Nat.le_max_left ..
  | cons entry rest ih =>
    unfold replayTo
    split
    · exact Nat.le_max_left ..
    · dsimp only
      split
      · exact Nat.le_max_left ..
      · refine Nat.le_trans ?_ (ih _)
        rw [now_setPeer]
        exact Nat.le_max_left ..

theorem forward : LineBus.Forward Replay := by
  intro bus kind
  change bus.now ≤ (bus.wait kind).state.now
  cases kind with
  | instant time => exact bus.now_replayTo time bus.trace
  | change =>
    change bus.now ≤ bus.waitChange.state.now
    unfold waitChange
    split
    · exact Nat.le_refl _
    · exact bus.now_replayTo _ bus.trace
  | cycle =>
    change bus.now ≤ bus.waitCycle.state.now
    unfold waitCycle
    dsimp only
    split
    · split <;> exact bus.now_replayTo _ bus.trace
    · exact Nat.le_refl _

theorem frugal : LineBus.Frugal Replay := fun waited => replayTo_length waited

/-- A trace has been replayed up to here, and named no line but the two. -/
structure Replayed (clock data : LineId) (trace : List PeerDrive) (bus : Replay) : Prop where
  clockId : bus.clock.id = clock
  dataId : bus.data.id = data
  read : ∃ done, trace = done ++ bus.trace ∧ ∀ entry ∈ done, entry.line = clock ∨ entry.line = data

variable {clock data : LineId} {trace : List PeerDrive}

/-- The entry that ends a replay: the first one for a line that is not there. -/
def unwired? (clock data : LineId) (trace : List PeerDrive) : Option PeerDrive :=
  trace.find? fun entry => decide (entry.line ≠ clock ∧ entry.line ≠ data)

theorem unwired?_append {done rest : List PeerDrive}
    (wired : ∀ entry ∈ done, entry.line = clock ∨ entry.line = data) :
    unwired? clock data (done ++ rest) = unwired? clock data rest := by
  have none : done.find? (fun entry => decide (entry.line ≠ clock ∧ entry.line ≠ data)) = none := by
    refine List.find?_eq_none.mpr fun entry mem => ?_
    rw [decide_eq_true_eq]
    rintro ⟨apart, apart'⟩
    rcases wired entry mem with same | same
    · exact apart same
    · exact apart' same
  unfold unwired?
  rw [List.find?_append, none]
  rfl

theorem pin?_eq_none {id : LineId} :
    bus.pin? id = none ↔ id ≠ bus.clock.id ∧ id ≠ bus.data.id := by
  unfold pin?
  by_cases clock : id = bus.clock.id
  · simp [clock]
  · rw [if_neg clock]
    by_cases data : id = bus.data.id <;> simp [clock, data]

theorem Replayed.setPeer (replayed : Replayed clock data trace bus) (id : LineId)
    (level : Option Bool) : Replayed clock data trace (bus.setPeer id level) := by
  obtain ⟨same, same', read⟩ := replayed
  unfold Replay.setPeer
  split <;> exact ⟨same, same', read⟩

theorem Replayed.take (replayed : Replayed clock data trace bus) {entry : PeerDrive}
    {rest : List PeerDrive} (left : bus.trace = entry :: rest) {now : Nat}
    (known : pin? { bus with now, trace := rest } entry.line ≠ none) :
    Replayed clock data trace { bus with now, trace := rest } := by
  obtain ⟨same, same', done, read, wired⟩ := replayed
  refine ⟨same, same', done ++ [entry], ?_, fun other mem => ?_⟩
  · rw [read, left, List.append_assoc]
    rfl
  · rcases List.mem_append.mp mem with mem | mem
    · exact wired other mem
    · rw [List.mem_singleton.mp mem]
      by_contra apart
      rw [not_or] at apart
      exact known (pin?_eq_none.mpr ⟨same.symm ▸ apart.1, same'.symm ▸ apart.2⟩)

theorem Replayed.found (replayed : Replayed clock data trace bus) {entry : PeerDrive}
    {rest : List PeerDrive} (left : bus.trace = entry :: rest) {now : Nat}
    (missing : pin? { bus with now, trace := rest } entry.line = none) :
    unwired? clock data trace = some entry := by
  obtain ⟨same, same', done, read, wired⟩ := replayed
  obtain ⟨apart, apart'⟩ := pin?_eq_none.mp missing
  rw [read, left, unwired?_append wired]
  exact List.find?_cons_of_pos (decide_eq_true ⟨same ▸ apart, same' ▸ apart'⟩)

theorem Replayed.later (replayed : Replayed clock data trace bus) {rest : List PeerDrive}
    (left : bus.trace = rest) {now : Nat} :
    Replayed clock data trace { bus with now, trace := rest } :=
  ⟨replayed.clockId, replayed.dataId, left ▸ replayed.read⟩

theorem Replayed.replayTo (replayed : Replayed clock data trace bus) {time : Nat}
    {rest : List PeerDrive} (left : bus.trace = rest) :
    (∀ after, bus.replayTo time rest = .ok () after → Replayed clock data trace after) ∧
      ∀ error stopped, bus.replayTo time rest = .fail error stopped →
        ∃ entry, unwired? clock data trace = some entry ∧ error = .unknownLine entry.line := by
  induction rest generalizing bus with
  | nil =>
    refine ⟨fun after h => ?_, fun error stopped h => by cases h⟩
    cases h
    exact replayed.later left
  | cons entry rest ih =>
    unfold Replay.replayTo
    split
    case isTrue =>
      refine ⟨fun after h => ?_, fun error stopped h => by cases h⟩
      cases h
      exact replayed.later left
    case isFalse =>
      dsimp only
      split
      case h_1 missing =>
        refine ⟨fun after h => (by cases h), fun error stopped h => ?_⟩
        cases h
        exact ⟨entry, replayed.found left missing, rfl⟩
      case h_2 pin known =>
        have onward := replayed.take left (known ▸ Option.some_ne_none pin)
        refine ih (onward.setPeer entry.line entry.level) ?_
        unfold Replay.setPeer
        split <;> rfl

theorem Replayed.called {later : Replay} (called : LineBus.Called bus later)
    (replayed : Replayed clock data trace bus) : Replayed clock data trace later := by
  induction called with
  | none => exact replayed
  | @drive before next id level _ driven ih =>
    change before.drive id level = _ at driven
    unfold Replay.drive at driven
    split at driven
    · cases driven
    · cases driven
      obtain ⟨same, same', read⟩ := ih
      unfold setWeak
      split <;> exact ⟨same, same', read⟩
  | wait _ waited ih =>
    obtain ⟨time, replayed⟩ := replayTo_of_wait waited
    exact (ih.replayTo rfl).1 _ replayed

/-- What a run on this trace ends with, unless it ends in an overflow. -/
def Exhausted (clock data : LineId) (trace : List PeerDrive) (error : BusError) (bus : Replay) :
    Prop :=
  match unwired? clock data trace with
  | some entry => error = .unknownLine entry.line
  | none => error = .closed ∧ bus.trace = []

theorem Replayed.wait (replayed : Replayed clock data trace bus) {kind : WaitKind}
    {error : BusError} {stopped : Replay} (failed : bus.wait kind = .fail error stopped) :
    Exhausted clock data trace error stopped ∨ error = .overflow .add := by
  have missing {time : Nat} (failed : bus.replayTo time bus.trace = .fail error stopped) :
      Exhausted clock data trace error stopped := by
    obtain ⟨entry, found, unknown⟩ := (replayed.replayTo rfl).2 error stopped failed
    unfold Exhausted
    rw [found]
    exact unknown
  cases kind with
  | instant time => exact .inl (missing failed)
  | change =>
    change bus.waitChange = _ at failed
    unfold waitChange at failed
    split at failed
    case h_1 done =>
      cases failed
      obtain ⟨-, -, read, same, wired⟩ := replayed
      refine .inl ?_
      unfold Exhausted
      rw [same, unwired?_append wired, done]
      exact ⟨rfl, rfl⟩
    case h_2 => exact .inl (missing failed)
  | cycle =>
    change bus.waitCycle = _ at failed
    unfold waitCycle at failed
    dsimp only at failed
    split at failed
    · split at failed <;> exact .inl (missing failed)
    · cases failed
      exact .inr rfl

end Replay

namespace Simulation

theorem work_waitUntil_le (bus : Simulation) (time : Nat) :
    (bus.waitUntil time).work ≤ bus.work := by
  have late (bus : Simulation) : (bus.runDue.moveTo time).runDue.work ≤ bus.work :=
    Nat.le_trans (work_runDue_le _) (Nat.le_trans (work_moveTo_le _ _) (work_runDue_le _))
  fun_induction waitUntil bus time with
  | case1 bus => exact late bus
  | case2 bus wake woken due ih => exact Nat.le_trans ih (Nat.le_of_lt (work_moveTo_lt woken))
  | case3 bus => exact late bus

theorem frugal : LineBus.Frugal Simulation := by
  intro bus after time waited
  change checkRange (.ok () (bus.waitUntil time)) = _ at waited
  cases ok_of_checkRange waited
  exact bus.work_waitUntil_le time

end Simulation

namespace Checker

theorem new_of_ofConfig {β : Type} [LineBus β] {config : Config} {bus : β} {checker : Checker β}
    (made : ofConfig config bus = .ok checker) :
    checker.probe = { bus, lines := { clock := config.clock, data := config.data }
                      stretch := { duration := config.clockStretch } } := by
  unfold ofConfig at made
  cases accepted : config.check with
  | error wrong =>
    rw [accepted] at made
    cases made
  | ok responses =>
    rw [accepted] at made
    cases made
    rfl

theorem wakeups_of_ofConfig {β : Type} [LineBus β] {config : Config} {bus : β} {checker : Checker β}
    (forward : LineBus.Forward β) (frugal : LineBus.Frugal β)
    (made : ofConfig config bus = .ok checker) :
    checker.run.2.probe.wakeups ≤ (config.clockStretch + 2) * LineBus.work bus + 2 := by
  have new := new_of_ofConfig made
  have most := wakeups_of_run forward frugal
    (show checker.probe.stretch.deadline? = none by rw [new])
  rw [new] at most
  change _ ≤ 0 + _ + 2 at most
  rwa [Nat.zero_add] at most

theorem exhausted_of_trace {config : Config} {cycle : Nat} {trace : List PeerDrive}
    {checker : Checker Replay}
    (made : ofConfig config ((Replay.ofTrace config.clock config.data trace).withCycle cycle) =
      .ok checker) :
    (∃ kind, checker.run.1 = .overflow kind) ∨
      Replay.Exhausted config.clock config.data trace checker.run.1 checker.run.2.probe.bus := by
  have new := new_of_ofConfig made
  have known (line : Line) :
      LineBus.pin? checker.probe.bus (checker.probe.lines.id line) ≠ none := by
    rw [new]
    refine mt Replay.pin?_eq_none.mp ?_
    rintro ⟨clock, data⟩
    cases line
    · exact clock rfl
    · exact data rfl
  rcases wait_of_run Replay.plain (Replay.keepsDrives _) known with
    overflow | ⟨bus, kind, called, failed⟩
  · exact .inl overflow
  · rw [new] at called
    have replayed : Replay.Replayed config.clock config.data trace bus :=
      Replay.Replayed.called called ⟨rfl, rfl, [], rfl, nofun⟩
    rcases replayed.wait failed with exhausted | overflow
    · exact .inr exhausted
    · exact .inl ⟨_, overflow⟩

theorem closed_of_program {config : Config} {cycle : Nat} {program : List Step}
    {checker : Checker Simulation}
    (made : ofConfig config (Simulation.withCycle
      { clock := { id := config.clock }, data := { id := config.data }, program } cycle) =
        .ok checker) :
    (∃ kind, checker.run.1 = .overflow kind) ∨ checker.run.1 = .closed := by
  have new := new_of_ofConfig made
  have known (line : Line) :
      LineBus.pin? checker.probe.bus (checker.probe.lines.id line) ≠ none := by
    rw [new]
    change ((Simulation.line? _ _).map _) ≠ none
    unfold Simulation.line?
    cases line
    · simp [Simulation.withCycle, Lines.id]
    · simp only [Simulation.withCycle, Lines.id]
      split <;> simp
  rcases wait_of_run Simulation.plain (Simulation.keepsDrives _) known with
    overflow | ⟨late, kind, -, failed⟩
  · exact .inl overflow
  · rcases Simulation.fail_wait failed with ⟨closed, -⟩ | overflow
    · exact .inr closed
    · exact .inl ⟨_, overflow⟩

/-- Every run on a finite scenario ends, after so many wake-ups at the most: on a trace with the
first entry for a line that is not there, or else when all of it has been replayed; on a program when
the program has nothing left to do by itself. A time that is out of range can end it before. -/
theorem ends_on_finite_scenario (config : Config) (cycle : Nat) :
    (∀ (trace : List PeerDrive) (checker : Checker Replay),
      ofConfig config ((Replay.ofTrace config.clock config.data trace).withCycle cycle) =
          .ok checker →
        checker.run.2.probe.wakeups ≤ (config.clockStretch + 2) * trace.length + 2 ∧
          ((∃ kind, checker.run.1 = .overflow kind) ∨
            Replay.Exhausted config.clock config.data trace checker.run.1
              checker.run.2.probe.bus)) ∧
    ∀ (program : List Step) (bus : Simulation) (checker : Checker Simulation),
      Simulation.ofProgram config.clock config.data program = .ok bus →
        ofConfig config (bus.withCycle cycle) = .ok checker →
          checker.run.2.probe.wakeups ≤ (config.clockStretch + 2) * (2 * program.length) + 2 ∧
            ((∃ kind, checker.run.1 = .overflow kind) ∨ checker.run.1 = .closed) := by
  constructor
  · intro trace checker made
    exact ⟨wakeups_of_ofConfig Replay.forward Replay.frugal made, exhausted_of_trace made⟩
  · intro program bus checker fits made
    have fresh : bus =
        { clock := { id := config.clock }, data := { id := config.data }, program } := by
      unfold Simulation.ofProgram at fits
      split at fits <;> cases fits
      rfl
    rw [fresh] at made
    exact ⟨wakeups_of_ofConfig Simulation.forward Simulation.frugal made, closed_of_program made⟩

def ending? {β : Type} [LineBus β] (checker : Checker β) (n : Nat) : Option BusError :=
  match checker.startUp with
  | .fail .. => none
  | .ok _ ready =>
    match ready.turns n with
    | .ok _ => none
    | .error (error, _) => some error

theorem run_of_ending? {β : Type} [LineBus β] {checker : Checker β} {n : Nat} {error : BusError}
    (h : checker.ending? n = some error) : checker.run.1 = error := by
  unfold ending? at h
  split at h
  case h_1 => cases h
  case h_2 ready idle =>
    split at h
    case h_1 => cases h
    case h_2 reason last ended =>
      rw [run_of_startUp idle, watch_of_turns ended]
      exact Option.some.inj h

/-- A trace that goes on to a third line while the clock is stretched, and a program that holds the
clock low itself and waits for it. -/
theorem ends_at_third_line_or_blocked :
    (∃ checker : Checker Replay,
      ofConfig { clock := 0, data := 1, clockStretch := 50 }
        ((Replay.ofTrace 0 1 [⟨300, 1, some false⟩, ⟨200, 0, some false⟩, ⟨320, 7, none⟩,
          ⟨400, 0, none⟩]).withCycle 0) = .ok checker ∧
      checker.run.2.probe.wakeups ≤ 210 ∧ checker.run.1 = .unknownLine 7) ∧
    ∃ (bus : Simulation) (checker : Checker Simulation),
      Simulation.ofProgram 0 1 [.delay 1000, .drive .data (some false), .delay 0,
        .drive .clock (some false), .waitClockHigh, .sampleData] = .ok bus ∧
      ofConfig { clock := 0, data := 1, clockStretch := 50 } (bus.withCycle 0) = .ok checker ∧
      checker.run.2.probe.wakeups ≤ 626 ∧ checker.run.1 = .closed := by
  have ends := ends_on_finite_scenario { clock := 0, data := 1, clockStretch := 50 } 0
  constructor
  · have seen : ((ofConfig { clock := 0, data := 1, clockStretch := 50 }
        ((Replay.ofTrace 0 1 [⟨300, 1, some false⟩, ⟨200, 0, some false⟩, ⟨320, 7, none⟩,
          ⟨400, 0, none⟩]).withCycle 0)).toOption.bind fun checker => checker.ending? 100) =
        some (.unknownLine 7) := by decide +kernel
    obtain ⟨checker, made, ended⟩ := Option.bind_eq_some_iff.mp seen
    obtain ⟨most, -⟩ := ends.1 _ checker (eq_ok_of_toOption made)
    exact ⟨checker, eq_ok_of_toOption made, most, run_of_ending? ended⟩
  · have seen : ((Simulation.ofProgram 0 1 [.delay 1000, .drive .data (some false), .delay 0,
        .drive .clock (some false), .waitClockHigh, .sampleData]).toOption.bind fun bus =>
        (ofConfig { clock := 0, data := 1, clockStretch := 50 } (bus.withCycle 0)).toOption.bind
        fun checker => checker.ending? 100) = some .closed := by decide +kernel
    obtain ⟨bus, fits, seen⟩ := Option.bind_eq_some_iff.mp seen
    obtain ⟨checker, made, ended⟩ := Option.bind_eq_some_iff.mp seen
    obtain ⟨most, -⟩ := ends.2 _ bus checker (eq_ok_of_toOption fits) (eq_ok_of_toOption made)
    exact ⟨bus, checker, eq_ok_of_toOption fits, eq_ok_of_toOption made, most, run_of_ending? ended⟩

end Checker
end TwoWire
