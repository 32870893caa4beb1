import TwoWire.Proofs.Advance
import TwoWire.Proofs.Calls

/-! How far our drives reach: to their line on both kinds of bus, and below a layer that fails calls
unless it is one of those. Waits do not change what we drive. -/

namespace TwoWire

namespace LineBus

variable {β : Type} [LineBus β]

/-- A drive of ours gets to its line, if the bus has that line, and to no other. -/
def Reaches (bus : β) (id : LineId) (level : Bool) : Prop :=
  ∀ other, weak? (LineBus.drive bus id level).state other =
    (weak? bus other).map fun weak => if other = id then level else weak

def Holds (β : Type) [LineBus β] : Prop :=
  ∀ (bus : β) (kind : WaitKind) (id : LineId),
    weak? (LineBus.wait bus kind).state id = weak? bus id

theorem reaches_of_drive {bus : β} {id : LineId} {level : Bool}
    (through : weak? bus id ≠ none → ∃ after, LineBus.drive bus id level = .ok () after ∧
      ∀ other, weak? after other = if other = id then some level else weak? bus other)
    (refused : weak? bus id = none → (LineBus.drive bus id level).state = bus) :
    Reaches bus id level := by
  intro other
  by_cases known : weak? bus id = none
  case pos =>
    rw [refused known]
    by_cases same : other = id
    · rw [same, known]
      rfl
    · simp only [if_neg same, Option.map_id']
  case neg =>
    obtain ⟨after, driven, levels⟩ := through known
    rw [driven, Outcome.state_ok, levels]
    by_cases same : other = id
    · obtain ⟨weak, some⟩ := Option.ne_none_iff_exists'.mp known
      simp only [if_pos same]
      rw [same, some]
      rfl
    · simp only [if_neg same, Option.map_id']

end LineBus

namespace Replay

theorem reaches (bus : Replay) (id : LineId) (level : Bool) : LineBus.Reaches bus id level := by
  refine LineBus.reaches_of_drive (fun known => ?_) fun unknown => ?_
  · obtain ⟨pin, some⟩ := Option.ne_none_iff_exists'.mp fun none =>
      known (Option.map_eq_none_iff.mpr none)
    obtain ⟨after, driven⟩ : ∃ after, bus.drive id level = .ok () after := by
      unfold drive
      rw [show bus.pin? id = _ from some]
      exact ⟨_, rfl⟩
    exact ⟨after, driven, weak?_drive driven⟩
  · change (bus.drive id level).state = bus
    unfold drive
    rw [show bus.pin? id = none from Option.map_eq_none_iff.mp unknown]
    rfl

theorem weak?_state_replayTo (bus : Replay) (time : Nat) (trace : List PeerDrive) (id : LineId) :
    LineBus.weak? (bus.replayTo time trace).state id = LineBus.weak? bus id := by
  induction trace generalizing bus with
  | nil => rfl
  | cons entry rest ih =>
    unfold replayTo
    split
    · rfl
    · dsimp only
      split
      · rfl
      · refine (ih _).trans ?_
        rw [weak?_setPeer]
        rfl

theorem holds : LineBus.Holds Replay := by
  intro bus kind id
  cases kind with
  | instant time => exact bus.weak?_state_replayTo time bus.trace id
  | change =>
    change LineBus.weak? bus.waitChange.state id = _
    unfold waitChange
    split
    · rfl
    · exact bus.weak?_state_replayTo _ _ id
  | cycle =>
    change LineBus.weak? bus.waitCycle.state id = _
    unfold waitCycle
    dsimp only
    split
    · split <;> exact bus.weak?_state_replayTo _ _ id
    · rfl

theorem weak?_fresh (clock data : LineId) (trace : List PeerDrive) (cycle : Nat) :
    LineBus.weak? ((ofTrace clock data trace).withCycle cycle) clock = some true ∧
      LineBus.weak? ((ofTrace clock data trace).withCycle cycle) data = some true := by
  constructor
  · exact congrArg (Option.map Pin.weak) (if_pos rfl)
  · change Option.map Pin.weak (if data = clock then some { id := clock }
      else if data = data then some { id := data } else none) = some true
    split
    · rfl
    · exact congrArg (Option.map Pin.weak) (if_pos rfl)

end Replay

namespace Simulation

theorem weak?_fresh {clock data : LineId} {program : List Step} {bus : Simulation}
    (made : ofProgram clock data program = .ok bus) (cycle : Nat) :
    LineBus.weak? (bus.withCycle cycle) clock = some true ∧
      LineBus.weak? (bus.withCycle cycle) data = some true := by
  unfold ofProgram at made
  split at made
  case isTrue => cases made
  case isFalse =>
    cases made
    rw [weak?_eq, weak?_eq]
    constructor
    · exact if_pos rfl
    · change (if data = clock then some true else if data = data then some true else none) = some true
      split
      · rfl
      · exact if_pos rfl

theorem reaches (bus : Simulation) (id : LineId) (level : Bool) :
    LineBus.Reaches bus id level := by
  have lines : LineBus.weak? bus id = none ↔ bus.line? id = none := by
    change ((bus.line? id).map bus.pin).map Pin.weak = none ↔ _
    rw [Option.map_eq_none_iff, Option.map_eq_none_iff]
  refine LineBus.reaches_of_drive (fun known => ?_) fun unknown => ?_
  · obtain ⟨line, some⟩ := Option.ne_none_iff_exists'.mp fun none => known (lines.mpr none)
    obtain ⟨after, driven⟩ : ∃ after, bus.drive id level = .ok () after := by
      unfold drive
      rw [some]
      exact ⟨_, rfl⟩
    exact ⟨after, driven, weak?_drive driven⟩
  · change (bus.drive id level).state = bus
    unfold drive
    rw [lines.mp unknown]
    rfl

theorem held_moveTo (bus : Simulation) (time : Nat) : Held bus (bus.moveTo time) :=
  ⟨⟨rfl, rfl, rfl⟩, rfl, rfl⟩

theorem held_waitUntil (bus : Simulation) (time : Nat) : Held bus (bus.waitUntil time) := by
  induction bus using woken_induct time with
  | sleeps bus asleep =>
    rw [waitUntil_of_sleeps asleep]
    exact (held_runFrom bus bus.program).trans (held_moveTo _ time)
  | woken bus instant wakes due ih =>
    rw [waitUntil_of_woken wakes due]
    exact (held_runFrom bus bus.program).trans ((held_moveTo _ instant).trans ih)

theorem holds : LineBus.Holds Simulation := by
  intro bus kind id
  rw [state_wait]
  obtain ⟨kin, clock, data⟩ := bus.held_waitUntil (LineBus.wait bus kind).state.now
  rw [weak?_eq, weak?_eq, kin.clock, kin.data, clock, data]

end Simulation

namespace Faulty

variable {β : Type} {faulty : Faulty β}

/-- After so many drives, none has been lost so far. -/
def Spared (faulty : Faulty β) (since : Nat) : Prop :=
  ∀ fault ∈ faulty.faults, fault.sort = .drive →
    ¬(since < fault.number ∧ fault.number ≤ faulty.drives)

theorem Spared.later {since later : Nat} (spared : faulty.Spared since) (le : since ≤ later) :
    faulty.Spared later :=
  fun fault mem sort late => spared fault mem sort ⟨Nat.lt_of_le_of_lt le late.1, late.2⟩

theorem Spared.earlier {before after : Faulty β} {since : Nat} (spared : after.Spared since)
    (faults : after.faults = before.faults) (drives : before.drives ≤ after.drives) :
    before.Spared since :=
  fun fault mem sort late =>
    spared fault (faults ▸ mem) sort ⟨late.1, Nat.le_trans late.2 drives⟩

variable [LineBus β]

theorem drives_drive (faulty : Faulty β) (id : LineId) (level : Bool) :
    (LineBus.drive faulty id level).state.drives = faulty.drives + 1 ∧
      (LineBus.drive faulty id level).state.faults = faulty.faults := by
  change (faulty.drive id level).state.drives = _ ∧ (faulty.drive id level).state.faults = _
  unfold drive
  dsimp only
  split
  · rw [state_answer]
    exact ⟨rfl, rfl⟩
  · rw [Outcome.state_mapState]
    exact ⟨rfl, rfl⟩

theorem drives_wait (faulty : Faulty β) (kind : WaitKind) :
    (LineBus.wait faulty kind).state.drives = faulty.drives ∧
      (LineBus.wait faulty kind).state.faults = faulty.faults := by
  change (faulty.wait kind).state.drives = _ ∧ (faulty.wait kind).state.faults = _
  unfold wait
  dsimp only
  split
  · rw [state_answer]
    exact ⟨rfl, rfl⟩
  · rw [Outcome.state_mapState]
    exact ⟨rfl, rfl⟩

theorem reaches_of_spared (below : ∀ (bus : β) id level, LineBus.Reaches bus id level)
    {id : LineId} {level : Bool}
    (spared : (LineBus.drive faulty id level).state.Spared faulty.drives) :
    LineBus.Reaches faulty id level := by
  obtain ⟨drives, faults⟩ := faulty.drives_drive id level
  unfold Spared at spared
  rw [drives, faults] at spared
  intro other
  change LineBus.weak? (faulty.drive id level).state other = _
  unfold drive
  dsimp only
  split
  case h_1 fault chosen =>
    have found := List.find?_some chosen
    rw [Bool.and_eq_true, decide_eq_true_eq, decide_eq_true_eq] at found
    exact absurd ⟨found.2 ▸ Nat.lt_succ_self _, Nat.le_of_eq found.2⟩
      (spared fault (List.mem_of_find?_eq_some chosen) found.1)
  case h_2 =>
    rw [Outcome.state_mapState]
    exact below faulty.bus id level other

theorem weak?_drive_of_ne (faulty : Faulty β)
    (below : ∀ (bus : β) id level, LineBus.Reaches bus id level) {id other : LineId} (apart : other ≠ id) (level : Bool) :
    LineBus.weak? (LineBus.drive faulty id level).state other = LineBus.weak? faulty other := by
  change LineBus.weak? (faulty.drive id level).state.bus other = LineBus.weak? faulty.bus other
  rcases faulty.bus_drive id level with lost | driven
  · rw [lost]
  · rw [driven, below]
    simp only [if_neg apart, Option.map_id']

theorem holds (below : LineBus.Holds β) : LineBus.Holds (Faulty β) := by
  intro faulty kind id
  change LineBus.weak? (faulty.wait kind).state id = _
  unfold wait
  dsimp only
  split
  · rw [state_answer]
    rfl
  · rw [Outcome.state_mapState]
    exact below faulty.bus kind id

end Faulty

end TwoWire
