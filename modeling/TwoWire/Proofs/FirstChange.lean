import TwoWire.Proofs.Advance
import TwoWire.Proofs.Endings

/-! Waiting for a change on the simulated bus stops at the first time at which the levels differ,
and closes only if there is none (`stops_at_first_change`). -/

namespace TwoWire.Simulation

variable {bus after stopped : Simulation} {before : Bool × Bool} {time : Nat} {error : BusError}

theorem levels_of_found (found : bus.seekChange before = .ok () after) : after.levels ≠ before := by
  fun_induction seekChange before bus with
  | case1 bus differ =>
    cases found
    exact differ
  | case2 => cases found
  | case3 bus same instant wakes ih => exact ih found

theorem asleep_of_closed (closed : bus.seekChange before = .fail error stopped) :
    stopped.levels = before ∧ stopped.runDue = stopped ∧ stopped.nextWake? = none := by
  fun_induction seekChange before bus with
  | case1 => cases closed
  | case2 bus same asleep =>
    cases closed
    exact ⟨Classical.not_not.mp same, bus.runDue_runDue, asleep⟩
  | case3 bus same instant wakes ih => exact ih closed

theorem found_of_differs (ahead : bus.now ≤ time)
    (differs : (bus.waitUntil time).levels ≠ before) :
    ∃ after, bus.seekChange before = .ok () after ∧ after.now ≤ time := by
  fun_induction seekChange before bus with
  | case1 bus differ => exact ⟨bus.runDue, rfl, bus.now_runDue.symm ▸ ahead⟩
  | case2 bus same asleep =>
    have sleeps : bus.runDue.SleepsPast time := fun instant wakes => by
      cases asleep.symm.trans wakes
    rw [waitUntil_of_sleeps sleeps] at differs
    exact absurd differs same
  | case3 bus same instant wakes ih =>
    by_cases due : instant ≤ time
    case pos =>
      rw [waitUntil_of_woken wakes due] at differs
      refine ih ?_ differs
      rw [now_moveTo, now_runDue]
      exact Nat.max_le.mpr ⟨ahead, due⟩
    case neg =>
      have sleeps : bus.runDue.SleepsPast time := fun other woken => by
        cases wakes.symm.trans woken
        exact Nat.not_le.mp due
      rw [waitUntil_of_sleeps sleeps] at differs
      exact absurd differs same

theorem wait_change_iff : LineBus.wait bus .change = .ok () after ↔
    bus.seekChange bus.levels = .ok () after ∧ after.inRange = true := by
  change checkRange (bus.seekChange bus.levels) = _ ↔ _
  unfold checkRange
  constructor
  · intro waited
    split at waited
    case isTrue fits => exact ⟨waited, by rwa [waited] at fits⟩
    case isFalse => cases waited
  · rintro ⟨found, fits⟩
    rw [found, Outcome.state_ok, if_pos fits]

theorem reached_of_found (found : bus.seekChange before = .ok () after) :
    after = bus.waitUntil after.now := by
  have reached := bus.state_seekChange before
  rwa [found] at reached

theorem program_runFrom (bus : Simulation) (program : List Step) :
    (bus.runFrom program).program <:+ program := by
  induction program generalizing bus with
  | nil => exact List.suffix_refl []
  | cons step rest ih =>
    unfold runFrom
    split
    case isTrue => exact List.suffix_refl _
    case isFalse => exact (ih _).trans (List.suffix_cons step rest)

theorem program_waitUntil (bus : Simulation) (time : Nat) :
    (bus.waitUntil time).program <:+ bus.program := by
  induction bus using woken_induct time with
  | sleeps bus asleep =>
    rw [waitUntil_of_sleeps asleep]
    exact bus.program_runFrom bus.program
  | woken bus instant wakes due ih =>
    rw [waitUntil_of_woken wakes due]
    exact ih.trans (bus.program_runFrom bus.program)

/-- The first time at which the levels are not as they are now, in the state of that time. -/
structure FirstChange (bus after : Simulation) : Prop where
  ahead : bus.now ≤ after.now
  changed : after.levels ≠ bus.levels
  reached : LineBus.wait bus (.instant after.now) = .ok () after
  least : ∀ time, bus.now ≤ time → time < after.now →
    ∃ early, LineBus.wait bus (.instant time) = .ok () early ∧ early.levels = bus.levels

/-- A bus on which no wait changes anything any more, at the levels that it had at first. All has been
done that any waits would have brought about. -/
structure Closes (bus stopped : Simulation) : Prop where
  levels : stopped.levels = bus.levels
  reached : LineBus.wait bus (.instant stopped.now) = .ok () stopped
  done : ∀ kinds after, bus.waits kinds = .ok after → stopped.program <:+ after.program
  still : ∀ kinds after, stopped.waits kinds = .ok after → after = stopped.moveTo after.now

theorem firstChange_of_wait (waited : LineBus.wait bus .change = .ok () after) :
    bus.FirstChange after := by
  obtain ⟨found, fits⟩ := wait_change_iff.mp waited
  have reached := reached_of_found found
  refine ⟨now_le_of_reached reached, levels_of_found found, wait_of_reached reached fits, ?_⟩
  intro time ahead early
  obtain ⟨waited, -⟩ :=
    wait_instant_of_later (Nat.le_of_lt early) (wait_of_reached reached fits)
  refine ⟨_, waited, ?_⟩
  by_contra differs
  obtain ⟨other, same, late⟩ := found_of_differs ahead differs
  cases found.symm.trans same
  omega

theorem closes_of_wait (failed : LineBus.wait bus .change = .fail error stopped)
    (apart : error ≠ .overflow .add) : error = .closed ∧ bus.Closes stopped := by
  have fits : stopped.inRange = true := by
    rcases bus.inRange_or_overflow .change with fits | ⟨late, overflow⟩
    · rwa [failed] at fits
    · cases failed.symm.trans overflow
      exact absurd rfl apart
  have closed : bus.seekChange bus.levels = .fail error stopped :=
    (fail_of_checkRange failed).resolve_right apart
  obtain ⟨levels, settled, asleep⟩ := asleep_of_closed closed
  have reached := bus.state_seekChange bus.levels
  rw [closed, Outcome.state_fail] at reached
  -- where nothing goes on by itself, a wait only lets time go by
  have still (time : Nat) : stopped.waitUntil time = stopped.moveTo time := by
    have sleeps : stopped.runDue.SleepsPast time := fun instant wakes => by
      rw [settled, asleep] at wakes
      cases wakes
    rw [waitUntil_of_sleeps sleeps, settled]
  refine ⟨fail_seekChange closed, levels, wait_of_reached reached fits, ?_, ?_⟩
  · intro kinds after waited
    have left : (bus.waitUntil stopped.now).program <:+ after.program := by
      by_cases none : kinds = []
      case pos =>
        subst none
        cases waited
        exact bus.program_waitUntil stopped.now
      case neg =>
        obtain ⟨along, -⟩ := reached_of_waits none waited
        rcases Nat.le_total after.now stopped.now with early | late
        · rw [along, ← bus.waitUntil_waitUntil early]
          exact program_waitUntil _ stopped.now
        · rw [along, ← bus.waitUntil_waitUntil late, ← reached, still]
          exact List.suffix_refl _
    rwa [← reached] at left
  · intro kinds after waited
    by_cases none : kinds = []
    case pos =>
      subst none
      cases waited
      exact (moveTo_now stopped).symm
    case neg =>
      obtain ⟨along, -⟩ := reached_of_waits none waited
      rw [still] at along
      exact along

/-- A wait for a change finds the first one there is, and closes the bus if there is none. -/
theorem stops_at_first_change (bus : Simulation) :
    ((∃ after, LineBus.wait bus .change = .ok () after) ↔
      ∃ time later, bus.now ≤ time ∧ LineBus.wait bus (.instant time) = .ok () later ∧
        later.levels ≠ bus.levels) ∧
    (∀ after, LineBus.wait bus .change = .ok () after → bus.FirstChange after) ∧
    ∀ error stopped, LineBus.wait bus .change = .fail error stopped →
      error = .overflow .add ∨ error = .closed ∧ bus.Closes stopped := by
  refine ⟨⟨?_, ?_⟩, fun after => firstChange_of_wait, fun error stopped failed => ?_⟩
  · rintro ⟨after, waited⟩
    have first := firstChange_of_wait waited
    exact ⟨after.now, after, first.ahead, first.reached, first.changed⟩
  · rintro ⟨time, later, ahead, waited, differs⟩
    obtain ⟨rfl, fits⟩ := wait_instant_iff.mp waited
    obtain ⟨after, found, early⟩ := found_of_differs ahead differs
    have reached := reached_of_found found
    have settled := (bus.settled_waitUntil after.now).1
    rw [← bus.waitUntil_waitUntil early, ← reached] at fits
    rw [← reached] at settled
    exact ⟨after, wait_change_iff.mpr ⟨found, inRange_of_waitUntil settled fits⟩⟩
  · by_cases overflow : error = .overflow .add
    · exact .inl overflow
    · exact .inr (closes_of_wait failed overflow)

/-- A data line that is low for no time at all is passed over. The clock that falls after that is
found, and as it stays low nothing else is. -/
theorem stops_after_glitch :
    let program := [.delay 1000, .drive .data (some false), .drive .data none, .delay 50,
      .drive .clock (some false), .waitClockHigh, .drive .data (some false)]
    ∃ bus after stopped : Simulation, Simulation.ofProgram 0 1 program = .ok bus ∧
      LineBus.wait bus .change = .ok () after ∧ bus.FirstChange after ∧ after.now = 1050 ∧
      LineBus.wait after .change = .fail .closed stopped ∧ after.Closes stopped ∧
      stopped.program = [.drive .data (some false)] := by
  intro program
  have seen : ((Simulation.ofProgram 0 1 program).toOption.bind fun bus =>
      (LineBus.wait bus .change).verdict.toOption.bind fun after =>
      match (LineBus.wait after .change).verdict with
      | .ok _ => none
      | .error (error, stopped) => some (after.now, error, stopped.program)) =
        some (1050, .closed, [.drive .data (some false)]) := by decide +kernel
  obtain ⟨bus, made, seen⟩ := Option.bind_eq_some_iff.mp seen
  obtain ⟨after, waited, seen⟩ := Option.bind_eq_some_iff.mp seen
  have waited := Outcome.eq_ok_of_verdict (eq_ok_of_toOption waited)
  cases failed : LineBus.wait after .change with
  | ok _ later =>
    rw [failed] at seen
    cases seen
  | fail error stopped =>
    rw [failed] at seen
    obtain ⟨now, rfl, left⟩ : after.now = 1050 ∧ error = .closed ∧
        stopped.program = [.drive .data (some false)] := by
      simpa only [Outcome.verdict, Option.some.injEq, Prod.mk.injEq] using seen
    obtain ⟨-, first, -⟩ := bus.stops_at_first_change
    obtain ⟨-, -, none⟩ := after.stops_at_first_change
    have closes := ((none _ stopped failed).resolve_left nofun).2
    exact ⟨bus, after, stopped, eq_ok_of_toOption made, waited, first after waited, now, failed,
      closes, left⟩

end TwoWire.Simulation
