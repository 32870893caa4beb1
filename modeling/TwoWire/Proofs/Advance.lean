import Mathlib.Tactic.ByContra
import TwoWire.Proofs.Forward
import TwoWire.Proofs.Turn

/-! Time on the simulated bus. As long as we drive no line, the state that is reached depends on the
instant alone and not on the waits that led to it (`waits_to_instant`). -/

namespace TwoWire.Simulation

variable {bus after : Simulation} {time early late : Nat}

theorem moveTo_now (bus : Simulation) : bus.moveTo bus.now = bus := by
  unfold moveTo
  rw [Nat.max_self]

theorem moveTo_moveTo (bus : Simulation) (later : early ≤ late) :
    (bus.moveTo early).moveTo late = bus.moveTo late := by
  unfold moveTo
  dsimp only
  rw [Nat.max_assoc, Nat.max_eq_right later]

theorem wake_wake (bus : Simulation) : bus.wake.wake = bus.wake := by
  unfold wake
  dsimp only
  rw [Bool.and_assoc, Bool.and_self]

theorem wake_runFrom (bus : Simulation) (program : List Step) :
    (bus.runFrom program).wake = bus.runFrom program := by
  induction program generalizing bus with
  | nil => exact congrArg (fun awake : Simulation => { awake with program := [] }) bus.wake_wake
  | cons step rest ih =>
    unfold runFrom
    split
    case isTrue =>
      exact congrArg (fun awake : Simulation => { awake with program := step :: rest }) bus.wake_wake
    case isFalse => exact ih _

theorem runDue_of_settled (awake : bus.wake = bus)
    (settled : bus.program = [] ∨ bus.isBlocked = true) : bus.runDue = bus := by
  unfold runDue
  cases left : bus.program with
  | nil => rw [runFrom, awake, ← left]
  | cons step rest =>
    have blocked : bus.isBlocked = true := settled.resolve_left (by rw [left]; nofun)
    rw [runFrom, awake, if_pos blocked, ← left]

theorem runDue_runDue (bus : Simulation) : bus.runDue.runDue = bus.runDue :=
  runDue_of_settled (bus.wake_runFrom bus.program) (bus.runFrom_settled bus.program)

/-- By this time the program does not go on by itself. -/
def SleepsPast (bus : Simulation) (time : Nat) : Prop :=
  ∀ instant, bus.nextWake? = some instant → time < instant

theorem sleepsPast_now (bus : Simulation) : bus.runDue.SleepsPast bus.now := by
  intro instant woken
  obtain ⟨ahead, rfl⟩ := lt_of_nextWake?_runDue woken
  rwa [now_runDue] at ahead

theorem runDue_moveTo (settled : bus.runDue = bus) (sleeps : bus.SleepsPast time) :
    (bus.moveTo time).runDue = bus.moveTo time ∧ (bus.moveTo time).nextWake? = bus.nextWake? := by
  have awake : bus.wake = bus := by
    rw [← settled]
    exact bus.wake_runFrom bus.program
  have idle : bus.program = [] ∨ bus.isBlocked = true := by
    rw [← settled]
    exact bus.runFrom_settled bus.program
  have moved : (bus.moveTo time).wake = bus.moveTo time :=
    congrArg (fun awake : Simulation => { awake with now := max bus.now time }) awake
  cases waiting : bus.waiting with
  | true =>
    refine ⟨runDue_of_settled moved (.inr ?_), ?_⟩
    · simp [isBlocked, moveTo, waiting]
    · simp [nextWake?, moveTo, waiting]
  | false =>
    -- a program that awaits no line is in the middle of a delay, or has come to its end
    by_cases ahead : bus.now < bus.resumeAt
    case pos =>
      have later := sleeps bus.resumeAt (by simp [nextWake?, waiting, ahead])
      have still : max bus.now time < bus.resumeAt := Nat.max_lt.mpr ⟨ahead, later⟩
      refine ⟨runDue_of_settled moved (.inr ?_), ?_⟩
      · simp [isBlocked, moveTo, still]
      · simp [nextWake?, moveTo, waiting, ahead, still]
    case neg =>
      have done : bus.program = [] := idle.resolve_right (by simp [isBlocked, waiting, ahead])
      have resumed : ¬max bus.now time < bus.resumeAt := by omega
      refine ⟨runDue_of_settled moved (.inl done), ?_⟩
      simp [nextWake?, moveTo, waiting, ahead, resumed, done]

theorem waitUntil_of_sleeps (sleeps : bus.runDue.SleepsPast time) :
    bus.waitUntil time = bus.runDue.moveTo time := by
  have passed := (runDue_moveTo bus.runDue_runDue sleeps).1
  rw [waitUntil]
  split
  case h_1 => exact passed
  case h_2 instant woken => rw [if_neg (Nat.not_le.mpr (sleeps instant woken)), passed]

theorem waitUntil_of_woken {instant : Nat} (woken : bus.runDue.nextWake? = some instant)
    (due : instant ≤ time) :
    bus.waitUntil time = (bus.runDue.moveTo instant).waitUntil time := by
  rw [waitUntil]
  split
  case h_1 asleep => cases woken.symm.trans asleep
  case h_2 other same =>
    cases woken.symm.trans same
    rw [if_pos due]

/-- Up to a time, a program that does not sleep is woken at the end of one delay after the other. -/
theorem woken_induct {motive : Simulation → Prop} (time : Nat)
    (sleeps : ∀ bus : Simulation, bus.runDue.SleepsPast time → motive bus)
    (woken : ∀ (bus : Simulation) (instant : Nat), bus.runDue.nextWake? = some instant →
      instant ≤ time → motive (bus.runDue.moveTo instant) → motive bus) (bus : Simulation) :
    motive bus := by
  fun_induction waitUntil bus time with
  | case1 bus asleep =>
    refine sleeps bus fun instant wakes => ?_
    cases asleep.symm.trans wakes
  | case2 bus instant wakes due ih => exact woken bus instant wakes due ih
  | case3 bus instant wakes ahead =>
    refine sleeps bus fun other same => ?_
    cases wakes.symm.trans same
    exact Nat.not_le.mp ahead

theorem settled_waitUntil (bus : Simulation) (time : Nat) :
    (bus.waitUntil time).runDue = bus.waitUntil time ∧ (bus.waitUntil time).SleepsPast time ∧
      (bus.waitUntil time).now = max bus.now time := by
  induction bus using woken_induct time with
  | sleeps bus asleep =>
    obtain ⟨settled, same⟩ := runDue_moveTo bus.runDue_runDue asleep
    rw [waitUntil_of_sleeps asleep]
    refine ⟨settled, fun instant wakes => asleep instant (same ▸ wakes), ?_⟩
    rw [now_moveTo, now_runDue]
  | woken bus instant wakes due ih =>
    rw [waitUntil_of_woken wakes due]
    refine ⟨ih.1, ih.2.1, ?_⟩
    rw [ih.2.2, now_moveTo, now_runDue, Nat.max_assoc, Nat.max_eq_right due]

theorem waitUntil_runDue (bus : Simulation) (time : Nat) :
    bus.runDue.waitUntil time = bus.waitUntil time := by
  induction bus using woken_induct time with
  | sleeps bus asleep =>
    rw [waitUntil_of_sleeps asleep, waitUntil_of_sleeps (bus.runDue_runDue.symm ▸ asleep),
      runDue_runDue]
  | woken bus instant wakes due =>
    rw [waitUntil_of_woken wakes due, waitUntil_of_woken (bus.runDue_runDue.symm ▸ wakes) due,
      runDue_runDue]

theorem sleepsPast_congr (same : after.nextWake? = bus.nextWake?) (sleeps : bus.SleepsPast time) :
    after.SleepsPast time :=
  fun instant woken => sleeps instant (same ▸ woken)

theorem waitUntil_moveTo (settled : bus.runDue = bus) (sleeps : bus.SleepsPast early)
    (later : early ≤ late) : (bus.moveTo early).waitUntil late = bus.waitUntil late := by
  obtain ⟨settled', same⟩ := runDue_moveTo settled sleeps
  by_cases asleep : bus.SleepsPast late
  case pos =>
    have asleep' : (bus.moveTo early).SleepsPast late := sleepsPast_congr same asleep
    have direct := waitUntil_of_sleeps (settled.symm ▸ asleep)
    have passing := waitUntil_of_sleeps (settled'.symm ▸ asleep')
    rw [settled] at direct
    rw [settled', moveTo_moveTo bus later] at passing
    exact passing.trans direct.symm
  case neg =>
    obtain ⟨instant, awake⟩ := Classical.not_forall.mp asleep
    obtain ⟨wakes, ahead⟩ := Classical.not_imp.mp awake
    have due := Nat.not_lt.mp ahead
    have direct := waitUntil_of_woken (settled.symm ▸ wakes) due
    have passing := waitUntil_of_woken (settled'.symm ▸ same.trans wakes) due
    rw [settled] at direct
    rw [settled', moveTo_moveTo bus (Nat.le_of_lt (sleeps instant wakes))] at passing
    exact passing.trans direct.symm

theorem waitUntil_waitUntil (bus : Simulation) (later : early ≤ late) :
    (bus.waitUntil early).waitUntil late = bus.waitUntil late := by
  induction bus using woken_induct early with
  | sleeps bus asleep =>
    rw [waitUntil_of_sleeps asleep, waitUntil_moveTo bus.runDue_runDue asleep later,
      waitUntil_runDue]
  | woken bus instant wakes due ih =>
    rw [waitUntil_of_woken wakes due, ih, ← waitUntil_of_woken wakes (Nat.le_trans due later)]

theorem waitUntil_now (bus : Simulation) : bus.waitUntil bus.now = bus.runDue := by
  have here := moveTo_now bus.runDue
  rw [now_runDue] at here
  rw [waitUntil_of_sleeps bus.sleepsPast_now, here]

theorem state_seekChange (before : Bool × Bool) (bus : Simulation) :
    (bus.seekChange before).state = bus.waitUntil (bus.seekChange before).state.now := by
  fun_induction seekChange before bus with
  | case1 bus differ => rw [Outcome.state_ok, now_runDue, waitUntil_now]
  | case2 bus equal asleep => rw [Outcome.state_fail, now_runDue, waitUntil_now]
  | case3 bus equal instant wakes ih =>
    have ahead := now_seekChange before (bus.runDue.moveTo instant)
    rw [now_moveTo] at ahead
    rw [waitUntil_of_woken wakes (by omega)]
    exact ih

theorem runDue_moveTo_of_awaited
    (awaited : ∀ instant, bus.runDue.nextWake? = some instant → time ≤ instant) :
    (bus.runDue.moveTo time).runDue = bus.waitUntil (bus.runDue.moveTo time).runDue.now := by
  rw [now_runDue]
  by_cases wakes : bus.runDue.nextWake? = some time
  case pos =>
    rw [waitUntil_of_woken wakes (by rw [now_moveTo]; exact Nat.le_max_right ..), waitUntil_now]
  case neg =>
    have sleeps : bus.runDue.SleepsPast (bus.runDue.moveTo time).now := by
      intro instant woken
      have apart : time ≠ instant := fun same => wakes (same ▸ woken)
      rw [now_moveTo, now_runDue]
      exact Nat.max_lt.mpr ⟨bus.sleepsPast_now instant woken,
        Nat.lt_of_le_of_ne (awaited instant woken) apart⟩
    have passed : bus.runDue.SleepsPast time := fun instant woken =>
      Nat.lt_of_le_of_lt (Nat.le_max_right ..) (sleeps instant woken)
    rw [waitUntil_of_sleeps sleeps, (runDue_moveTo bus.runDue_runDue passed).1]
    unfold moveTo
    dsimp only
    rw [← Nat.max_assoc, Nat.max_self]

theorem state_waitCycle (bus : Simulation) :
    bus.waitCycle.state = bus.waitUntil bus.waitCycle.state.now := by
  unfold waitCycle
  dsimp only
  split
  case isTrue => rw [Outcome.state_ok, now_runDue, waitUntil_now]
  case isFalse =>
    split
    case isFalse => rw [Outcome.state_fail, now_runDue, waitUntil_now]
    case isTrue =>
      refine runDue_moveTo_of_awaited fun instant woken => ?_
      rw [woken]
      exact Nat.min_le_right ..

@[simp] theorem state_wait_instant (bus : Simulation) (time : Nat) :
    (LineBus.wait bus (.instant time)).state = bus.waitUntil time :=
  state_checkRange (.ok () (bus.waitUntil time))

/-- A wait of any kind, however it ends, leads to the state of the time it ends at. -/
theorem state_wait (bus : Simulation) (kind : WaitKind) :
    (LineBus.wait bus kind).state = bus.waitUntil (LineBus.wait bus kind).state.now := by
  cases kind with
  | change =>
    change (checkRange bus.waitChange).state = bus.waitUntil (checkRange bus.waitChange).state.now
    rw [state_checkRange]
    exact bus.state_seekChange bus.levels
  | cycle =>
    change (checkRange bus.waitCycle).state = bus.waitUntil (checkRange bus.waitCycle).state.now
    rw [state_checkRange]
    exact bus.state_waitCycle
  | instant time =>
    obtain ⟨settled, -, now⟩ := bus.settled_waitUntil time
    have further := bus.waitUntil_waitUntil (Nat.le_max_right bus.now time)
    have here := waitUntil_now (bus.waitUntil time)
    rw [now, further, settled] at here
    rw [state_wait_instant, now, here]

theorem wait_instant_iff : LineBus.wait bus (.instant time) = .ok () after ↔
    after = bus.waitUntil time ∧ after.inRange = true := by
  change checkRange (.ok () (bus.waitUntil time)) = _ ↔ _
  unfold checkRange
  rw [Outcome.state_ok]
  constructor
  · intro waited
    split at waited
    case isTrue fits =>
      cases waited
      exact ⟨rfl, fits⟩
    case isFalse => cases waited
  · rintro ⟨rfl, fits⟩
    rw [if_pos fits]

theorem inRange_or_overflow (bus : Simulation) (kind : WaitKind) :
    (LineBus.wait bus kind).state.inRange = true ∨
      ∃ stopped, LineBus.wait bus kind = .fail (.overflow .add) stopped := by
  have checked (outcome : Outcome Simulation Unit) : (checkRange outcome).state.inRange = true ∨
      ∃ stopped, checkRange outcome = .fail (.overflow .add) stopped := by
    unfold checkRange
    split
    case isTrue fits => exact .inl fits
    case isFalse => exact .inr ⟨_, rfl⟩
  cases kind <;> exact checked _

theorem inRange_of_waitUntil (settled : bus.runDue = bus)
    (fits : (bus.waitUntil time).inRange = true) : bus.inRange = true := by
  obtain ⟨-, -, later⟩ := bus.settled_waitUntil time
  unfold inRange at fits ⊢
  rw [Bool.and_eq_true, decide_eq_true_eq, decide_eq_true_eq] at fits ⊢
  have now : bus.now < Time.limit := by omega
  refine ⟨now, ?_⟩
  by_contra beyond
  have sleeps : bus.SleepsPast time := by
    intro instant woken
    rw [← settled] at woken
    obtain ⟨-, rfl⟩ := lt_of_nextWake?_runDue woken
    rw [settled]
    omega
  rw [waitUntil_of_sleeps (settled.symm ▸ sleeps), settled] at fits
  exact beyond fits.2

/-- One wait after the other, whether or not the bus turns out to be closed. -/
def waits (bus : Simulation) : List WaitKind → Except Overflow Simulation
  | [] => .ok bus
  | kind :: rest =>
    match LineBus.wait bus kind with
    | .ok _ later => later.waits rest
    | .fail (.overflow overflow) _ => .error overflow
    | .fail _ stopped => stopped.waits rest

theorem waits_cons {kind : WaitKind} {rest : List WaitKind}
    (waited : bus.waits (kind :: rest) = .ok after) :
    (LineBus.wait bus kind).state.waits rest = .ok after ∧
      (LineBus.wait bus kind).state.inRange = true := by
  have fits := bus.inRange_or_overflow kind
  unfold waits at waited
  split at waited
  case h_1 reached =>
    rw [reached] at fits ⊢
    exact ⟨waited, fits.resolve_right nofun⟩
  case h_2 => cases waited
  case h_3 apart reached =>
    refine ⟨by rwa [reached], fits.resolve_right ?_⟩
    rintro ⟨stopped, overflow⟩
    rw [reached] at overflow
    cases overflow
    exact apart _ rfl

theorem now_le_of_reached (reached : after = bus.waitUntil after.now) : bus.now ≤ after.now := by
  have later := (bus.settled_waitUntil after.now).2.2
  rw [← reached] at later
  omega

/-- However many waits there are, they lead to the state of the time they end at, and that is
within the range of time. -/
theorem reached_of_waits {kinds : List WaitKind} (nonempty : kinds ≠ [])
    (waited : bus.waits kinds = .ok after) :
    after = bus.waitUntil after.now ∧ after.inRange = true := by
  induction kinds generalizing bus with
  | nil => exact absurd rfl nonempty
  | cons kind rest ih =>
    obtain ⟨onward, fits⟩ := waits_cons waited
    have first := bus.state_wait kind
    generalize (LineBus.wait bus kind).state = middle at onward first fits
    cases rest with
    | nil =>
      cases onward
      exact ⟨first, fits⟩
    | cons next rest =>
      obtain ⟨second, fits⟩ := ih (List.cons_ne_nil next rest) onward
      have later := now_le_of_reached second
      refine ⟨?_, fits⟩
      calc after = middle.waitUntil after.now := second
        _ = (bus.waitUntil middle.now).waitUntil after.now := by rw [← first]
        _ = bus.waitUntil after.now := bus.waitUntil_waitUntil later

theorem wait_of_reached (reached : after = bus.waitUntil after.now) (fits : after.inRange = true) :
    LineBus.wait bus (.instant after.now) = .ok () after :=
  wait_instant_iff.mpr ⟨reached, fits⟩

theorem wait_instant_of_later (later : early ≤ late)
    (waited : LineBus.wait bus (.instant late) = .ok () after) :
    LineBus.wait bus (.instant early) = .ok () (bus.waitUntil early) ∧
      LineBus.wait (bus.waitUntil early) (.instant late) = .ok () after := by
  obtain ⟨rfl, fits⟩ := wait_instant_iff.mp waited
  have further := bus.waitUntil_waitUntil later
  have early_fits : (bus.waitUntil early).inRange = true :=
    inRange_of_waitUntil (bus.settled_waitUntil early).1 (further.symm ▸ fits)
  exact ⟨wait_instant_iff.mpr ⟨rfl, early_fits⟩, wait_instant_iff.mpr ⟨further.symm, fits⟩⟩

/-- Waits of all kinds, one after the other and with no drive of ours in between, lead to the same
state as one wait for the time that they end at. So the way to a time may be broken anywhere. -/
theorem waits_to_instant (bus : Simulation) :
    (∀ kinds after, kinds ≠ [] → bus.waits kinds = .ok after →
      LineBus.wait bus (.instant after.now) = .ok () after) ∧
    ∀ early late after, early ≤ late →
      (bus.waits [.instant early, .instant late] = .ok after ↔
        LineBus.wait bus (.instant late) = .ok () after) := by
  constructor
  · intro kinds after nonempty waited
    obtain ⟨reached, fits⟩ := reached_of_waits nonempty waited
    exact wait_of_reached reached fits
  · intro early late after later
    constructor
    · intro waited
      obtain ⟨second, -⟩ := waits_cons waited
      obtain ⟨last, fits⟩ := waits_cons second
      cases last
      rw [state_wait_instant, state_wait_instant, bus.waitUntil_waitUntil later] at fits ⊢
      exact wait_instant_iff.mpr ⟨rfl, fits⟩
    · intro waited
      obtain ⟨first, second⟩ := wait_instant_of_later later waited
      unfold waits
      rw [first]
      dsimp only
      unfold waits
      rw [second]
      rfl

/-- A change of the data line that shows in one instant only, a clock that is held low in the end and
waits of all kinds on the way there. -/
theorem waits_to_blocked_clock :
    let program := [.delay 1000, .drive .data (some false), .delay 50, .drive .data none,
      .drive .data (some false), .delay 30, .drive .clock (some false), .waitClockHigh, .sampleData]
    let kinds := [.cycle, .change, .instant 1060, .cycle, .change, .change]
    ∃ bus after : Simulation, Simulation.ofProgram 0 1 program = .ok bus ∧ kinds ≠ [] ∧
      bus.waits kinds = .ok after ∧ LineBus.wait bus (.instant after.now) = .ok () after ∧
      after.now = 1080 ∧ after.program = [.sampleData] ∧
      (bus.waits [.instant 1010, .instant 1080] = .ok after ↔
        LineBus.wait bus (.instant 1080) = .ok () after) := by
  intro program kinds
  have seen : ((Simulation.ofProgram 0 1 program).toOption.bind fun bus =>
      (bus.waits kinds).toOption.map fun after => (after.now, after.program)) =
        some (1080, [.sampleData]) := by decide +kernel
  obtain ⟨bus, made, seen⟩ := Option.bind_eq_some_iff.mp seen
  obtain ⟨after, waited, shows⟩ := Option.map_eq_some_iff.mp seen
  obtain ⟨now, left⟩ := Prod.mk.inj shows
  have waited := eq_ok_of_toOption waited
  have nonempty : kinds ≠ [] := List.cons_ne_nil _ _
  obtain ⟨path, broken⟩ := bus.waits_to_instant
  exact ⟨bus, after, eq_ok_of_toOption made, nonempty, waited, path kinds after nonempty waited, now,
    left, broken 1010 1080 after (by decide)⟩

end TwoWire.Simulation
