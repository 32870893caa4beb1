import TwoWire.Checker.Run

/-! A run turn by turn. A turn goes from one look at the lines to the next, and the states a run is
suspended in lie between two turns. -/

namespace TwoWire

/-- The state to go on from, or the end of the run. -/
def Outcome.verdict (outcome : Outcome σ Unit) : Except (BusError × σ) σ :=
  match outcome with
  | ok _ state => .ok state
  | fail error state => .error (error, state)

namespace Outcome

theorem eq_ok_of_verdict {outcome : Outcome σ Unit} {state : σ} (h : outcome.verdict = .ok state) :
    outcome = ok () state := by
  cases outcome with
  | ok value after =>
    cases h
    rfl
  | fail => cases h

end Outcome

theorem eq_ok_of_toOption {result : Except ε α} {value : α} (h : result.toOption = some value) :
    result = .ok value := by
  cases result with
  | ok other =>
    cases h
    rfl
  | error => cases h

namespace Probe

variable {β : Type} [LineBus β] {probe : Probe β}

theorem look_of_known
    (known : ∀ line, LineBus.peer? probe.bus (probe.lines.id line) ≠ none) :
    ∃ sight, probe.look = .ok sight := by
  unfold look Lines.look
  split
  case h_1 missing => exact absurd missing (known .clock)
  case h_2 missing => exact absurd missing (known .data)
  case h_3 => exact ⟨_, rfl⟩

theorem awaitIdle_of_missing {error : BusError} (missing : probe.look = .error error) :
    probe.awaitIdle = .fail error probe := by
  rw [awaitIdle, missing]

theorem awaitIdle_of_idle {sight : Sight} (look : probe.look = .ok sight)
    (idle : (probe.lines.level sight .clock && probe.lines.level sight .data) = true) :
    probe.awaitIdle = .ok () { probe with detector := probe.detector.prime true true } := by
  rw [awaitIdle, look]
  exact if_pos idle

theorem awaitIdle_of_busy {sight : Sight} (look : probe.look = .ok sight)
    (busy : (probe.lines.level sight .clock && probe.lines.level sight .data) = false) :
    probe.awaitIdle =
      ((probe.wait .change).andThen fun _ probe => probe.refresh).andThen
        fun _ woken => woken.awaitIdle := by
  rw [awaitIdle, look]
  dsimp only
  rw [busy, if_neg Bool.false_ne_true]
  split
  case h_1 error woken failed => rw [failed, Outcome.andThen_fail]
  case h_2 woken waited => rw [waited, Outcome.andThen_ok]

end Probe

namespace Checker

variable {β : Type} [LineBus β]

def turn (checker : Checker β) : Except (BusError × Checker β) (Checker β) :=
  match checker.probe.look with
  | .error error => .error (error, checker)
  | .ok sight =>
    match checker.probe.detector.edge? checker.probe.lines sight with
    | some edge =>
      (({ checker with probe := checker.probe.commit sight edge } : Checker β).react
        ⟨edge, sight⟩).verdict
    | none => (checker.probe.pause.mapState fun probe => { checker with probe }).verdict

theorem turn_of_missing {checker : Checker β} {error : BusError}
    (missing : checker.probe.look = .error error) : checker.turn = .error (error, checker) := by
  unfold turn
  rw [missing]

theorem turn_of_edge {checker : Checker β} {sight : Sight} {edge : Edge}
    (look : checker.probe.look = .ok sight)
    (seen : checker.probe.detector.edge? checker.probe.lines sight = some edge) :
    checker.turn = (({ checker with probe := checker.probe.commit sight edge } : Checker β).react
      ⟨edge, sight⟩).verdict := by
  unfold turn
  rw [look]
  dsimp only
  rw [seen]

theorem turn_of_pause {checker : Checker β} {sight : Sight}
    (look : checker.probe.look = .ok sight)
    (unseen : checker.probe.detector.edge? checker.probe.lines sight = none) :
    checker.turn =
      (checker.probe.pause.mapState fun probe => { checker with probe }).verdict := by
  unfold turn
  rw [look]
  dsimp only
  rw [unseen]

def turns : Nat → Checker β → Except (BusError × Checker β) (Checker β)
  | 0, checker => .ok checker
  | n + 1, checker =>
    match checker.turn with
    | .ok next => next.turns n
    | .error stopped => .error stopped

theorem watch_eq_step (checker : Checker β) :
    checker.watch =
      match checker.step with
      | .fail error stopped => (error, stopped)
      | .ok _ next => next.watch := by
  rw [watch]
  split <;> simp_all

theorem step_of_pause {checker : Checker β} {sight : Sight} (look : checker.probe.look = .ok sight)
    (unseen : checker.probe.detector.edge? checker.probe.lines sight = none) :
    checker.step =
      (checker.probe.pause.mapState fun probe => ({ checker with probe } : Checker β)).andThen
        fun _ woken => woken.step := by
  unfold step await
  rw [Probe.awaitChange, look]
  simp only [unseen]
  split
  case h_1 error woken paused => rw [paused]; rfl
  case h_2 woken paused => rw [paused]; rfl

theorem step_of_edge {checker : Checker β} {sight : Sight} {edge : Edge}
    (look : checker.probe.look = .ok sight)
    (seen : checker.probe.detector.edge? checker.probe.lines sight = some edge) :
    checker.step =
      ({ checker with probe := checker.probe.commit sight edge } : Checker β).react
        ⟨edge, sight⟩ := by
  unfold step await
  rw [Probe.awaitChange, look]
  simp only [seen]
  rfl

theorem watch_turn (checker : Checker β) :
    checker.watch =
      match checker.turn with
      | .ok next => next.watch
      | .error stopped => stopped := by
  rw [watch_eq_step]
  unfold turn
  cases look : checker.probe.look with
  | error error =>
    have stuck : checker.step = .fail error checker := by
      unfold step await
      rw [Probe.awaitChange, look]
      rfl
    rw [stuck]
  | ok sight =>
    dsimp only
    cases seen : checker.probe.detector.edge? checker.probe.lines sight with
    | some edge =>
      dsimp only
      rw [step_of_edge look seen]
      cases ({ checker with probe := checker.probe.commit sight edge } : Checker β).react
        ⟨edge, sight⟩ <;> rfl
    | none =>
      dsimp only
      rw [step_of_pause look seen]
      cases checker.probe.pause with
      | fail error woken => rfl
      | ok _ woken => exact (watch_eq_step _).symm

theorem watch_of_turn {checker next : Checker β} (h : checker.turn = .ok next) :
    checker.watch = next.watch := by
  rw [watch_turn, h]

theorem watch_of_turns {checker : Checker β} {n : Nat} {stopped : BusError × Checker β}
    (h : checker.turns n = .error stopped) : checker.watch = stopped := by
  induction n generalizing checker with
  | zero => cases h
  | succ n ih =>
    unfold turns at h
    split at h
    case h_1 next turned => exact (watch_of_turn turned).trans (ih h)
    case h_2 ended =>
      rw [watch_turn, ended]
      exact Except.error.inj h

theorem run_of_startUp {checker ready : Checker β} (started : checker.startUp = .ok () ready) :
    checker.run = (ready.watch.1, ready.watch.2.note (.ended ready.watch.1 ready.watch.2.now)) := by
  unfold run
  rw [started]

/-- How a run ends, if it does within so many turns. -/
def end? (checker : Checker β) (n : Nat) : Option (BusError × Checker β) :=
  match checker.startUp with
  | .fail error stopped => some (error, stopped.note (.ended error stopped.now))
  | .ok _ ready =>
    match ready.turns n with
    | .ok _ => none
    | .error (error, stopped) => some (error, stopped.note (.ended error stopped.now))

theorem run_of_end? {checker : Checker β} {n : Nat} {stop : BusError × Checker β}
    (h : checker.end? n = some stop) : checker.run = stop := by
  unfold end? at h
  split at h
  case h_1 error stopped restless =>
    unfold run
    rw [restless]
    exact Option.some.inj h
  case h_2 ready idle =>
    split at h
    case h_1 => cases h
    case h_2 error stopped ended =>
      rw [run_of_startUp idle, watch_of_turns ended]
      exact Option.some.inj h

theorem exists_run {config : Config} {bus : β} {n : Nat} {view : BusError × Checker β → α} {shown : α}
    (found : ((ofConfig config bus).toOption.bind fun checker => (checker.end? n).map view) =
      some shown) :
    ∃ checker, ofConfig config bus = .ok checker ∧ view checker.run = shown := by
  simp only [Option.bind_eq_some_iff, Option.map_eq_some_iff] at found
  obtain ⟨checker, made, stop, stopped, shows⟩ := found
  exact ⟨checker, eq_ok_of_toOption made, by rw [run_of_end? stopped, shows]⟩

/-- What is in force at the start and survives every turn is in force between any two turns. -/
theorem turns_induct {motive : Checker β → Prop} {checker after : Checker β} {n : Nat}
    (start : motive checker)
    (preserved : ∀ {before next : Checker β}, before.turn = .ok next → motive before → motive next)
    (h : checker.turns n = .ok after) : motive after := by
  induction n generalizing checker with
  | zero =>
    cases h
    exact start
  | succ n ih =>
    unfold turns at h
    split at h
    case h_1 next turned => exact ih (preserved turned start) h
    case h_2 => cases h

theorem turn_cases {checker next : Checker β} (h : checker.turn = .ok next) :
    (∃ change committed, checker.probe.Commits change committed ∧
      ({ checker with probe := committed } : Checker β).react change = .ok () next) ∨
    ∃ woken, checker.probe.pause = .ok () woken ∧ next = { checker with probe := woken } := by
  unfold turn at h
  split at h
  case h_1 => cases h
  case h_2 sight look =>
    split at h
    case h_1 edge seen =>
      exact .inl ⟨⟨edge, sight⟩, _, ⟨look, seen, rfl⟩, Outcome.eq_ok_of_verdict h⟩
    case h_2 =>
      cases paused : checker.probe.pause with
      | fail error woken =>
        rw [paused] at h
        cases h
      | ok _ woken =>
        rw [paused] at h
        cases h
        exact .inr ⟨woken, rfl, rfl⟩

end Checker
end TwoWire
