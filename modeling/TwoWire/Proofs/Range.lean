import TwoWire.Proofs.Moments

/-! Runs within the range of time: whenever a run looks at its lines the time is an instant. -/

namespace TwoWire

/-- Waits that go through end within the range of time, unless they are told to go beyond it. -/
def LineBus.Ranged {β : Type} [LineBus β] (bus : β) : Prop :=
  ∀ later, Called bus later → ∀ kind after,
    (∀ time, kind = .instant time → time < Time.limit) → LineBus.wait later kind = .ok () after →
      LineBus.now later < Time.limit → LineBus.now after < Time.limit

namespace Simulation

theorem ranged (bus : Simulation) : LineBus.Ranged bus := by
  intro later _ kind after _ waited _
  have checked : ∃ outcome, checkRange outcome = .ok () after := by
    cases kind <;> exact ⟨_, waited⟩
  obtain ⟨outcome, checked⟩ := checked
  have ended := ok_of_checkRange checked
  unfold checkRange at checked
  split at checked
  case isFalse => cases checked
  case isTrue fits =>
    rw [ended] at fits
    exact of_decide_eq_true (Bool.and_eq_true_iff.mp fits).1

end Simulation

namespace Replay

theorem now_replayTo_lt {bus after : Replay} {time : Nat} {trace : List PeerDrive}
    (early : time < Time.limit) (now : bus.now < Time.limit)
    (replayed : bus.replayTo time trace = .ok () after) : after.now < Time.limit := by
  induction trace generalizing bus with
  | nil =>
    cases replayed
    exact Nat.max_lt.mpr ⟨now, early⟩
  | cons entry rest ih =>
    unfold replayTo at replayed
    split at replayed
    case isTrue =>
      cases replayed
      exact Nat.max_lt.mpr ⟨now, early⟩
    case isFalse due =>
      dsimp only at replayed
      split at replayed
      case h_1 => cases replayed
      case h_2 =>
        refine ih ?_ replayed
        rw [now_setPeer]
        exact Nat.max_lt.mpr ⟨now, Nat.lt_of_le_of_lt (Nat.not_lt.mp due) early⟩

theorem ranged {clock data : LineId} {trace : List PeerDrive} {cycle : Nat}
    (instants : ∀ entry ∈ trace, entry.time < Time.limit) :
    LineBus.Ranged ((ofTrace clock data trace).withCycle cycle) := by
  intro later called kind after told waited now
  have replayed : Replayed clock data trace later :=
    Replayed.called called ⟨rfl, rfl, [], rfl, nofun⟩
  obtain ⟨done, read, -⟩ := replayed.read
  cases kind with
  | instant time => exact now_replayTo_lt (told time rfl) now waited
  | change =>
    change later.waitChange = _ at waited
    unfold waitChange at waited
    split at waited
    case h_1 => cases waited
    case h_2 entry rest left =>
      refine now_replayTo_lt (instants entry ?_) now waited
      rw [read, left]
      exact List.mem_append_right _ List.mem_cons_self
  | cycle =>
    change later.waitCycle = _ at waited
    unfold waitCycle at waited
    dsimp only at waited
    split at waited
    case isFalse => cases waited
    case isTrue early =>
      split at waited
      · exact now_replayTo_lt early now waited
      · exact now_replayTo_lt (Nat.lt_of_le_of_lt (Nat.min_le_right ..) early) now waited

end Replay

namespace Probe

variable {β : Type} [LineBus β] {start : β} {probe after : Probe β}

theorem inRange_wait {kind : WaitKind} (ranged : LineBus.Ranged start)
    (called : LineBus.Called start probe.bus)
    (told : ∀ time, kind = .instant time → time < Time.limit) (now : probe.now < Time.limit)
    (waited : probe.wait kind = .ok () after) : after.now < Time.limit := by
  obtain ⟨bus, reached, rfl⟩ := wait_ok waited
  exact ranged _ called _ _ told reached now

theorem inRange_pause (ranged : LineBus.Ranged start) (called : LineBus.Called start probe.bus)
    (now : probe.now < Time.limit) (paused : probe.pause = .ok () after) :
    after.now < Time.limit := by
  cases wakes_of_pause paused with
  | change _ waited refreshed | held _ waited _ refreshed =>
    rw [refreshed.still.now]
    exact inRange_wait ranged called (fun _ told => by cases told) now waited
  | @released middle free _ waited _ driven refreshed =>
    have same := middle.now_drive .clock true
    rw [driven, Outcome.state_ok] at same
    rw [refreshed.still.now]
    change free.now < Time.limit
    rw [same]
    exact inRange_wait ranged called (fun _ told => by cases told) now waited

theorem inRange_awaitIdle (ranged : LineBus.Ranged start)
    (called : LineBus.Called start probe.bus) (now : probe.now < Time.limit)
    (awaited : probe.awaitIdle = .ok () after) : after.now < Time.limit := by
  fun_induction awaitIdle probe with
  | case1 => cases awaited
  | case2 =>
    cases awaited
    exact now
  | case3 => cases awaited
  | case4 probe sight look busy _ woken woke ih =>
    refine ih (called.trans (called_of_acts (acts_wake woke))) ?_ awaited
    obtain ⟨_, late, waited, refreshing⟩ := Outcome.of_andThen woke
    have refreshed := late.refreshed_refresh
    rw [refreshing, Outcome.state_ok] at refreshed
    rw [refreshed.still.now]
    exact inRange_wait ranged called (fun _ told => by cases told) now waited

theorem inRange_settle (ranged : LineBus.Ranged probe.bus) (now : probe.now < Time.limit)
    {time : Nat} (instant : time < Time.limit) (settled : probe.settle time = .ok () after) :
    after.now < Time.limit := by
  unfold settle at settled
  obtain ⟨_, free, clock, settled⟩ := Outcome.of_andThen settled
  obtain ⟨_, both, data, settled⟩ := Outcome.of_andThen settled
  obtain ⟨_, late, waited, settled⟩ := Outcome.of_andThen settled
  have early := probe.now_drive .clock true
  have same := free.now_drive .data true
  rw [clock, Outcome.state_ok] at early
  rw [data, Outcome.state_ok, early] at same
  have called : LineBus.Called probe.bus both.bus :=
    called_of_acts ((Acts.drive clock).trans (.drive data))
  refine inRange_awaitIdle ranged (called.trans (called_of_acts (.wait waited))) ?_ settled
  refine inRange_wait ranged called ?_ (same ▸ now) waited
  rintro _ ⟨⟩
  exact instant

end Probe

namespace Checker

variable {β : Type} [LineBus β] {checker ready before : Checker β} {n : Nat}

theorem inRange_turn {bus : β} {next : Checker β} (ranged : LineBus.Ranged bus)
    (called : LineBus.Called bus before.probe.bus) (now : before.now < Time.limit)
    (turned : before.turn = .ok next) : next.now < Time.limit := by
  rcases turn_cases turned with ⟨change, committed, commits, react⟩ | ⟨woken, paused, rfl⟩
  · have same := now_react ({ before with probe := committed } : Checker β) change
    rw [react, Outcome.state_ok] at same
    rw [same, commits.after]
    exact now
  · exact Probe.inRange_pause ranged called now paused

theorem inRange_turns {config : Config} {bus : β} (made : ofConfig config bus = .ok checker)
    (ranged : LineBus.Ranged bus) (now : LineBus.now bus < Time.limit)
    (settled : config.settleTime < Time.limit) (idle : checker.startUp = .ok () ready)
    (run : ready.turns n = .ok before) : before.now < Time.limit := by
  have began : LineBus.Called bus ready.probe.bus := by
    have called := Probe.called_of_acts (acts_startUp idle)
    rwa [(configured_of_ofConfig made).bus] at called
  induction n generalizing before with
  | succ n ih =>
    obtain ⟨early, run, turned⟩ := exists_of_turns_succ run
    exact inRange_turn ranged (began.trans (Probe.called_of_acts (acts_turns run))) (ih run) turned
  | zero =>
    cases run
    obtain ⟨same, -⟩ := fresh_of_made made
    obtain ⟨late, settles, rfl⟩ := ready_of_startUp idle
    rw [same] at settles
    obtain rfl := (configured_of_ofConfig made).bus
    exact @Probe.inRange_settle _ _ (checker.note (.started config)).probe _ ranged now _ settled
      settles

end Checker
end TwoWire
