import TwoWire.Bus.Faults
import TwoWire.Bus.Replay
import TwoWire.Proofs.Elapse
import TwoWire.Proofs.Pace

/-! Buses under calls that go through: both kinds keep what we drive, and a peer that only pulls
lines low and lets them go never drives one high. -/

namespace TwoWire

namespace LineBus

variable {β : Type} [LineBus β]

def weak? (bus : β) (id : LineId) : Option Bool := (pin? bus id).map Pin.weak

inductive Called : β → β → Prop
  | none (bus : β) : Called bus bus
  | drive {first before next : β} {id : LineId} {level : Bool} (early : Called first before)
      (driven : LineBus.drive before id level = .ok () next) : Called first next
  | wait {first before next : β} {kind : WaitKind} (early : Called first before)
      (waited : LineBus.wait before kind = .ok () next) : Called first next

theorem Called.trans {a b c : β} (first : Called a b) (second : Called b c) : Called a c := by
  induction second with
  | none => exact first
  | drive _ driven ih => exact ih.drive driven
  | wait _ waited ih => exact ih.wait waited

/-- Every drive that goes through reaches its line, and nothing else changes what we drive. -/
structure KeepsDrives (bus : β) : Prop where
  drive {later next : β} {id : LineId} {level : Bool} : Called bus later →
    LineBus.drive later id level = .ok () next →
      ∀ other, weak? next other = if other = id then some level else weak? later other
  wait {later next : β} {kind : WaitKind} : Called bus later →
    LineBus.wait later kind = .ok () next → ∀ id, weak? next id = weak? later id

theorem KeepsDrives.later {bus later : β} (keeps : KeepsDrives bus) (called : Called bus later) :
    KeepsDrives later where
  drive further := keeps.drive (called.trans further)
  wait further := keeps.wait (called.trans further)

/-- The peer pulls lines low and lets them go, and never drives one high. -/
def OpenDrain (bus : β) : Prop :=
  ∀ later, Called bus later → ∀ id, peer? later id ≠ some (some true)

end LineBus

namespace Replay

variable {bus after : Replay}

theorem weak?_drive {id : LineId} {level : Bool} (driven : bus.drive id level = .ok () after)
    (other : LineId) :
    LineBus.weak? after other = if other = id then some level else LineBus.weak? bus other := by
  unfold drive at driven
  split at driven
  case h_1 => cases driven
  case h_2 pin known =>
    cases driven
    change ((bus.setWeak id level).pin? other).map Pin.weak = ite _ _ ((bus.pin? other).map _)
    unfold pin? at known ⊢
    unfold setWeak
    by_cases clock : id = bus.clock.id
    · subst clock
      rw [if_pos rfl]
      dsimp only
      by_cases same : other = bus.clock.id <;> simp [same]
    · rw [if_neg clock] at known ⊢
      have data : id = bus.data.id := by
        split at known
        · assumption
        · cases known
      subst data
      dsimp only
      by_cases same : other = bus.data.id
      · subst same
        simp [clock]
      · simp [same]

theorem weak?_setPeer (bus : Replay) (id : LineId) (level : Option Bool) (other : LineId) :
    LineBus.weak? (bus.setPeer id level) other = LineBus.weak? bus other := by
  change ((bus.setPeer id level).pin? other).map Pin.weak = (bus.pin? other).map Pin.weak
  unfold setPeer pin?
  split <;> dsimp only <;> split <;> (try split) <;> rfl

theorem weak?_replayTo {time : Nat} {trace : List PeerDrive}
    (replayed : bus.replayTo time trace = .ok () after) (id : LineId) :
    LineBus.weak? after id = LineBus.weak? bus id := by
  induction trace generalizing bus with
  | nil =>
    cases replayed
    rfl
  | cons entry rest ih =>
    unfold replayTo at replayed
    split at replayed
    · cases replayed
      rfl
    · dsimp only at replayed
      split at replayed
      · cases replayed
      · refine (ih replayed).trans ?_
        rw [weak?_setPeer]
        rfl

theorem replayTo_of_wait {kind : WaitKind} (waited : bus.wait kind = .ok () after) :
    ∃ time, bus.replayTo time bus.trace = .ok () after := by
  cases kind with
  | instant time => exact ⟨time, waited⟩
  | change =>
    change bus.waitChange = _ at waited
    unfold waitChange at waited
    split at waited
    · cases waited
    · exact ⟨_, waited⟩
  | cycle =>
    change bus.waitCycle = _ at waited
    unfold waitCycle at waited
    dsimp only at waited
    split at waited
    · split at waited <;> exact ⟨_, waited⟩
    · cases waited

theorem keepsDrives (bus : Replay) : LineBus.KeepsDrives bus where
  drive _ := weak?_drive
  wait _ waited := by
    obtain ⟨time, replayed⟩ := replayTo_of_wait waited
    exact weak?_replayTo replayed

/-- So many pulses of the peer's clock, one every 200 ns. -/
def pulses (start count : Nat) : List PeerDrive :=
  (List.range count).flatMap fun i =>
    [⟨start + 200 * i, 0, none⟩, ⟨start + 200 * i + 100, 0, some false⟩]

/-- A start and the command of a read, with so many clock pulses from its last bit on. -/
def readTrace (count : Nat) : List PeerDrive :=
  [⟨200, 1, some false⟩, ⟨300, 0, some false⟩] ++ pulses 400 7 ++ [⟨1750, 1, none⟩] ++
    pulses 1800 count

structure Sinks (bus : Replay) : Prop where
  trace : ∀ entry ∈ bus.trace, entry.level ≠ some true
  clock : bus.clock.peer ≠ some true
  data : bus.data.peer ≠ some true

theorem sinks_replayTo {time : Nat} {trace : List PeerDrive}
    (low : ∀ entry ∈ trace, entry.level ≠ some true) (clock : bus.clock.peer ≠ some true)
    (data : bus.data.peer ≠ some true) (replayed : bus.replayTo time trace = .ok () after) :
    after.Sinks := by
  induction trace generalizing bus with
  | nil =>
    cases replayed
    exact ⟨nofun, clock, data⟩
  | cons entry rest ih =>
    unfold replayTo at replayed
    split at replayed
    · cases replayed
      exact ⟨low, clock, data⟩
    · dsimp only at replayed
      split at replayed
      · cases replayed
      · have first := low entry List.mem_cons_self
        refine ih (fun other mem => low other (List.mem_cons_of_mem _ mem)) ?_ ?_ replayed <;>
          unfold setPeer <;> dsimp only <;> split <;> assumption

theorem Sinks.drive (sinks : bus.Sinks) {id : LineId} {level : Bool}
    (driven : bus.drive id level = .ok () after) : after.Sinks := by
  unfold Replay.drive at driven
  split at driven
  · cases driven
  · cases driven
    obtain ⟨trace, clock, data⟩ := sinks
    unfold setWeak
    split <;> exact ⟨trace, clock, data⟩

theorem Sinks.peer? (sinks : bus.Sinks) (id : LineId) :
    LineBus.peer? bus id ≠ some (some true) := by
  change (bus.pin? id).map Pin.peer ≠ _
  unfold pin?
  split
  · exact fun high => sinks.clock (Option.some.inj high)
  · split
    · exact fun high => sinks.data (Option.some.inj high)
    · exact nofun

theorem Sinks.called {later : Replay} (called : LineBus.Called bus later) (sinks : bus.Sinks) :
    later.Sinks := by
  induction called with
  | none => exact sinks
  | drive _ driven ih => exact ih.drive driven
  | wait _ waited ih =>
    obtain ⟨time, replayed⟩ := replayTo_of_wait waited
    obtain ⟨trace, clock, data⟩ := ih
    exact sinks_replayTo trace clock data replayed

/-- A trace whose drives only pull low or let go. -/
theorem openDrain_ofTrace (clock data : LineId) {trace : List PeerDrive}
    (low : ∀ entry ∈ trace, entry.level ≠ some true) (cycle : Nat) :
    LineBus.OpenDrain ((ofTrace clock data trace).withCycle cycle) :=
  fun _ called => Sinks.peer? (Sinks.called called ⟨low, nofun, nofun⟩)

end Replay

namespace Simulation

variable {bus after : Simulation}

/-- To wait is to let the program do what is due and time go by, in turns. -/
theorem wait_induct {motive : Simulation → Prop} (due : ∀ {bus}, motive bus → motive bus.runDue)
    (move : ∀ {bus} time, motive bus → motive (bus.moveTo time)) {kind : WaitKind}
    (waited : bus.wait kind = .ok () after) (start : motive bus) : motive after := by
  cases kind with
  | change =>
    have sought := ok_of_checkRange waited
    clear waited
    unfold waitChange at sought
    generalize bus.levels = before at sought
    fun_induction seekChange before bus with
    | case1 =>
      cases sought
      exact due start
    | case2 => cases sought
    | case3 _ _ time _ ih => exact ih (move time (due start)) sought
  | cycle =>
    have cycled := ok_of_checkRange waited
    unfold waitCycle at cycled
    dsimp only at cycled
    split at cycled
    · cases cycled
      exact due start
    · split at cycled
      · cases cycled
        exact due (move _ (due start))
      · cases cycled
  | instant time =>
    cases ok_of_checkRange waited
    clear waited
    fun_induction waitUntil bus time with
    | case1 => exact due (move time (due start))
    | case2 _ wake _ _ ih => exact ih (move wake (due start))
    | case3 => exact due (move time (due start))

structure Held (before after : Simulation) : Prop where
  kin : Kin before after
  clock : after.clock.weak = before.clock.weak
  data : after.data.weak = before.data.weak

theorem Held.trans {a b c : Simulation} (first : Held a b) (second : Held b c) : Held a c where
  kin := first.kin.trans second.kin
  clock := second.clock.trans first.clock
  data := second.data.trans first.data

theorem held_runFrom (bus : Simulation) (program : List Step) :
    Held bus (bus.runFrom program) := by
  have stage := bus.stage_runFrom program
  have weak := bus.stage.weak_run program
  rw [← stage] at weak
  exact ⟨bus.kin_runFrom program, weak.1, weak.2⟩

theorem held_wait {kind : WaitKind} (waited : bus.wait kind = .ok () after) : Held bus after :=
  wait_induct (motive := Held bus) (fun held => held.trans (held_runFrom _ _))
    (fun _ held => held.trans ⟨⟨rfl, rfl, rfl⟩, rfl, rfl⟩) waited ⟨.refl bus, rfl, rfl⟩

theorem weak?_eq (bus : Simulation) (id : LineId) : LineBus.weak? bus id =
    if id = bus.clock.id then some bus.clock.weak
    else if id = bus.data.id then some bus.data.weak else none := by
  change ((bus.line? id).map bus.pin).map Pin.weak = _
  unfold line?
  split
  · rfl
  · split <;> rfl

theorem weak?_wait {kind : WaitKind} (waited : bus.wait kind = .ok () after) (id : LineId) :
    LineBus.weak? after id = LineBus.weak? bus id := by
  obtain ⟨kin, clock, data⟩ := held_wait waited
  rw [weak?_eq, weak?_eq, kin.clock, kin.data, clock, data]

theorem weak?_drive {id : LineId} {level : Bool}
    (driven : bus.drive id level = .ok () after) (other : LineId) :
    LineBus.weak? after other = if other = id then some level else LineBus.weak? bus other := by
  unfold drive at driven
  cases known : bus.line? id with
  | none =>
    rw [known] at driven
    cases driven
  | some line =>
    rw [known] at driven
    cases driven
    have stage := bus.stage_hold line level
    have kin := bus.kin_hold line level
    rw [weak?_eq, weak?_eq]
    change ite (other = (bus.hold line level).clock.id) (some (bus.hold line level).stage.weakClock)
      (ite (other = (bus.hold line level).data.id)
        (some (bus.hold line level).stage.weakData) none) = _
    rw [stage, kin.clock, kin.data]
    unfold line? at known
    by_cases clock : id = bus.clock.id
    · rw [if_pos clock] at known
      cases known
      subst clock
      by_cases same : other = bus.clock.id <;> simp [same]
      rfl
    · rw [if_neg clock] at known
      have data : id = bus.data.id := by
        split at known
        · assumption
        · cases known
      rw [if_pos data] at known
      cases known
      subst data
      by_cases same : other = bus.data.id
      · subst same
        simp [clock]
      · simp [same]
        rfl

theorem keepsDrives (bus : Simulation) : LineBus.KeepsDrives bus where
  drive _ := weak?_drive
  wait _ := weak?_wait

structure Sinks (bus : Simulation) : Prop where
  program : ∀ line, .drive line (some true) ∉ bus.program
  clock : bus.clock.peer ≠ some true
  data : bus.data.peer ≠ some true

theorem sinks_update {line : Line} {pin : Pin} (sinks : bus.Sinks) (low : pin.peer ≠ some true) :
    (bus.update line pin).Sinks := by
  obtain ⟨program, clock, data⟩ := sinks
  unfold update
  split <;> cases line <;> first | exact ⟨program, low, data⟩ | exact ⟨program, clock, low⟩

theorem sinks_execute {step : Step} (sinks : bus.Sinks)
    (low : ∀ line, step ≠ .drive line (some true)) : (bus.execute step).Sinks := by
  cases step with
  | drive line level =>
    refine sinks_update sinks fun high => ?_
    change level = some true at high
    subst high
    exact low line rfl
  | delay | waitClockHigh | sampleData | sampleAck =>
    exact ⟨sinks.program, sinks.clock, sinks.data⟩

theorem sinks_runFrom {program : List Step} (sinks : bus.Sinks)
    (low : ∀ line, .drive line (some true) ∉ program) : (bus.runFrom program).Sinks := by
  induction program generalizing bus with
  | nil => exact ⟨low, sinks.clock, sinks.data⟩
  | cons step rest ih =>
    unfold runFrom
    split
    · exact ⟨low, sinks.clock, sinks.data⟩
    · have awake : bus.wake.Sinks := ⟨sinks.program, sinks.clock, sinks.data⟩
      refine ih (sinks_execute awake ?_) fun line mem => low line (List.mem_cons_of_mem _ mem)
      rintro line rfl
      exact low line List.mem_cons_self

theorem Sinks.called {later : Simulation} (called : LineBus.Called bus later)
    (sinks : bus.Sinks) : later.Sinks := by
  induction called with
  | none => exact sinks
  | @drive before next id level early driven ih =>
    change before.drive id level = _ at driven
    unfold Simulation.drive at driven
    split at driven
    · cases driven
    · rename_i line known
      cases driven
      refine sinks_update ih ?_
      cases line
      · exact ih.clock
      · exact ih.data
  | wait _ waited ih =>
    exact wait_induct (motive := Sinks) (fun sinks => sinks_runFrom sinks sinks.program)
      (fun _ sinks => ⟨sinks.program, sinks.clock, sinks.data⟩) waited ih

theorem Sinks.peer? (sinks : bus.Sinks) (id : LineId) :
    LineBus.peer? bus id ≠ some (some true) := by
  change ((bus.line? id).map bus.pin).map Pin.peer ≠ _
  cases bus.line? id with
  | none => exact nofun
  | some line =>
    cases line with
    | clock => exact fun high => sinks.clock (Option.some.inj high)
    | data => exact fun high => sinks.data (Option.some.inj high)

theorem openDrain_ofProgram {clock data : LineId} {program : List Step}
    (low : ∀ line, .drive line (some true) ∉ program)
    (made : ofProgram clock data program = .ok bus) (cycle : Nat) :
    LineBus.OpenDrain (bus.withCycle cycle) := by
  have sinks : (bus.withCycle cycle).Sinks := by
    unfold ofProgram at made
    split at made
    · cases made
    · cases made
      have free : (none : Option Bool) ≠ some true := (Option.some_ne_none true).symm
      exact ⟨low, free, free⟩
  exact fun _ called => Sinks.peer? (Sinks.called called sinks)

end Simulation

def Move.sinks : Move → Bool
  | .act (.drive _ level) | .lowPhase level => decide (level ≠ some true)
  | _ => true

theorem Move.sinks_moves (timing : ControllerTiming) {call : Call} (low : call ≠ .bit (some true)) :
    ∀ move ∈ call.moves timing, move.sinks = true := by
  have common : Move.Common timing (·.sinks = true) :=
    ⟨by decide, fun _ _ => rfl, fun _ low => decide_eq_true low⟩
  refine common.moves fun move mem => ?_
  cases call with
  | bit level =>
    rw [List.mem_singleton.mp mem]
    refine decide_eq_true ?_
    rintro rfl
    exact low rfl
  | idle | jitter | shortenNextLow => rw [List.mem_singleton.mp mem]; rfl
  | _ => cases mem

namespace Layout

variable [RandomSource] {layout : Layout}

def Sinks (layout : Layout) : Prop := ∀ line, .drive line (some true) ∉ layout.steps

theorem Sinks.act (sinks : layout.Sinks) {step : Step}
    (low : ∀ line, step ≠ .drive line (some true)) : (layout.act step).Sinks := by
  intro line mem
  rcases List.mem_cons.mp mem with same | mem
  · exact low line same.symm
  · exact sinks line mem

theorem Sinks.pause (sinks : layout.Sinks) (duration : Nat) : (layout.pause duration).Sinks := by
  have extra : layout.extra.2.Sinks := by
    unfold Layout.extra
    split
    · exact sinks
    · split
      · exact sinks
      · exact sinks
  unfold Layout.pause
  dsimp only
  split
  · exact extra
  · exact extra.act nofun

theorem Sinks.apply (sinks : layout.Sinks) (timing : ControllerTiming) {move : Move}
    (low : move.sinks = true) : (layout.apply timing move).Sinks := by
  cases move with
  | act step =>
    refine sinks.act ?_
    rintro line rfl
    cases low
  | pause duration => exact sinks.pause duration
  | lowPhase level =>
    have lowered : ({ layout with nextLow := none } : Layout).Sinks := sinks
    refine Sinks.act (Sinks.pause (Sinks.act (lowered.pause _) ?_) _) nofun
    rintro line same
    cases same
    cases low
  | shortenNextLow | jitter => exact sinks

end Layout

/-- The programs of scenarios drive no line high, unless a bit alone is written so. -/
theorem Program.sinks_ofCalls [RandomSource] (timing : ControllerTiming) {calls : List Call}
    (low : .bit (some true) ∉ calls) (line : Line) :
    .drive line (some true) ∉ ofCalls timing calls := by
  have sunk : ∀ moves : List Move, (∀ move ∈ moves, move.sinks = true) → ∀ layout : Layout,
      layout.Sinks → (moves.foldl (Layout.apply timing) layout).Sinks := by
    intro moves
    induction moves with
    | nil => exact fun _ _ sinks => sinks
    | cons move rest ih =>
      intro sinks layout start
      exact ih (fun other mem => sinks other (List.mem_cons_of_mem _ mem)) _
        (start.apply timing (sinks move List.mem_cons_self))
  intro mem
  refine sunk (calls.flatMap (Call.moves timing)) (fun move mem => ?_) {} (fun _ => nofun) line
    (List.mem_reverse.mp mem)
  obtain ⟨call, called, mem⟩ := List.mem_flatMap.mp mem
  exact Move.sinks_moves timing (fun high => low (high ▸ called)) move mem

namespace Faulty

variable {β : Type} [LineBus β] {faulty after : Faulty β}

theorem bus_of_drive {id : LineId} {level : Bool} (driven : faulty.drive id level = .ok () after) :
    after.faults = faulty.faults ∧
      (LineBus.drive faulty.bus id level = .ok () after.bus ∨
        after.bus = faulty.bus ∧ ∃ fault ∈ faulty.faults, fault.sort = .drive ∧
          fault.error = none) := by
  unfold drive at driven
  dsimp only at driven
  split at driven
  case h_1 fault chosen =>
    unfold answer at driven
    split at driven
    case h_1 silent =>
      cases driven
      have found := List.find?_some chosen
      rw [Bool.and_eq_true, decide_eq_true_eq] at found
      exact ⟨rfl, .inr ⟨rfl, fault, List.mem_of_find?_eq_some chosen, found.1, silent⟩⟩
    case h_2 => cases driven
  case h_2 =>
    cases reached : LineBus.drive faulty.bus id level with
    | fail error bus =>
      rw [reached] at driven
      cases driven
    | ok value bus =>
      rw [reached] at driven
      cases driven
      exact ⟨rfl, .inl rfl⟩

theorem bus_of_wait {kind : WaitKind} (waited : faulty.wait kind = .ok () after) :
    after.faults = faulty.faults ∧
      (LineBus.wait faulty.bus kind = .ok () after.bus ∨ after.bus = faulty.bus) := by
  unfold wait at waited
  dsimp only at waited
  split at waited
  case h_1 fault chosen =>
    unfold answer at waited
    split at waited
    · cases waited
      exact ⟨rfl, .inr rfl⟩
    · cases waited
  case h_2 =>
    cases reached : LineBus.wait faulty.bus kind with
    | fail error bus =>
      rw [reached] at waited
      cases waited
    | ok value bus =>
      rw [reached] at waited
      cases waited
      exact ⟨rfl, .inl rfl⟩

theorem called_bus (called : LineBus.Called faulty after) :
    after.faults = faulty.faults ∧ LineBus.Called faulty.bus after.bus := by
  induction called with
  | none => exact ⟨rfl, .none _⟩
  | drive _ driven ih =>
    obtain ⟨faults, reached | ⟨same, -⟩⟩ := bus_of_drive driven
    · exact ⟨faults.trans ih.1, ih.2.drive reached⟩
    · exact ⟨faults.trans ih.1, same ▸ ih.2⟩
  | wait _ waited ih =>
    obtain ⟨faults, reached | same⟩ := bus_of_wait waited
    · exact ⟨faults.trans ih.1, ih.2.wait reached⟩
    · exact ⟨faults.trans ih.1, same ▸ ih.2⟩

theorem openDrain (below : LineBus.OpenDrain faulty.bus) : LineBus.OpenDrain faulty :=
  fun later called => below later.bus (called_bus called).2

theorem keepsDrives (below : LineBus.KeepsDrives faulty.bus)
    (refused : ∀ fault ∈ faulty.faults, fault.sort = .drive → fault.error ≠ none) :
    LineBus.KeepsDrives faulty where
  drive called driven := by
    obtain ⟨faults, reached⟩ := called_bus called
    obtain ⟨-, through | ⟨-, fault, mem, sort, silent⟩⟩ := bus_of_drive driven
    · exact below.drive reached through
    · rw [faults] at mem
      exact absurd silent (refused fault mem sort)
  wait called waited := by
    obtain ⟨-, reached⟩ := called_bus called
    obtain ⟨-, through | same⟩ := bus_of_wait waited
    · exact below.wait reached through
    · intro id
      have pins := congrArg (fun bus => (LineBus.pin? bus id).map Pin.weak) same
      exact pins

end Faulty

end TwoWire
