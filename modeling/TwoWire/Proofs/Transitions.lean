import TwoWire.Proofs.Advance
import TwoWire.Proofs.Timed

/-! What the simulated bus records of its lines: each drive that changes the level its line resolves
to, at its time, and nothing else (`record_told`). -/

namespace TwoWire

inductive Drive
  | ours (level : Bool)
  /-- `none` lets the line go. -/
  | peers (level : Option Bool)
  deriving DecidableEq, Repr

def Pin.under (pin : Pin) : Drive → Pin
  | .ours level => { pin with weak := level }
  | .peers level => { pin with peer := level }

structure Deed where
  time : Nat
  line : Line
  drive : Drive
  deriving DecidableEq, Repr

namespace Deed

variable {pins : Line → Pin} {deeds : List Deed}

def done (pins : Line → Pin) (deed : Deed) : Line → Pin :=
  Function.update pins deed.line ((pins deed.line).under deed.drive)

/-- The change of the level that comes with a drive, if there is any. -/
def change? (pins : Line → Pin) (deed : Deed) : Option Transition :=
  let level := ((pins deed.line).under deed.drive).level
  if level = (pins deed.line).level then none else some ⟨deed.time, deed.line, level⟩

def changes (pins : Line → Pin) : List Deed → List Transition
  | [] => []
  | deed :: rest => (deed.change? pins).toList ++ changes (deed.done pins) rest

theorem changes_append (pins : Line → Pin) (early late : List Deed) :
    changes pins (early ++ late) = changes pins early ++ changes (early.foldl done pins) late := by
  induction early generalizing pins with
  | nil => rfl
  | cons deed rest ih =>
    change (deed.change? pins).toList ++ changes (deed.done pins) (rest ++ late) = _
    rw [ih, ← List.append_assoc]
    rfl

theorem changes_concat (pins : Line → Pin) (deeds : List Deed) (deed : Deed) :
    changes pins (deeds ++ [deed]) =
      changes pins deeds ++ (deed.change? (deeds.foldl done pins)).toList := by
  rw [changes_append]
  exact congrArg (changes pins deeds ++ ·) (List.append_nil _)

theorem times_changes (pins : Line → Pin) (deeds : List Deed) :
    ((changes pins deeds).map Transition.time).Sublist (deeds.map time) := by
  induction deeds generalizing pins with
  | nil => exact List.Sublist.slnil
  | cons deed rest ih =>
    have once : ((deed.change? pins).toList.map Transition.time).Sublist [deed.time] := by
      unfold change?
      dsimp only
      split
      · exact List.nil_sublist _
      · exact List.Sublist.refl _
    rw [changes, List.map_append, List.map_cons]
    exact once.append (ih (deed.done pins))

theorem exists_deed_of_change {change : Transition} (mem : change ∈ changes pins deeds) :
    ∃ deed ∈ deeds, deed.time = change.time :=
  List.mem_map.mp ((times_changes pins deeds).subset (List.mem_map_of_mem mem))

theorem level_of_change? {deed : Deed} {change : Transition} (h : deed.change? pins = some change) :
    change.line = deed.line ∧ change.level = (deed.done pins deed.line).level ∧
      change.level = !(pins deed.line).level := by
  unfold change? at h
  dsimp only at h
  split at h
  case isTrue => cases h
  case isFalse differ =>
    cases h
    refine ⟨rfl, ?_, Bool.eq_not.mpr differ⟩
    unfold done
    rw [Function.update_self]

theorem level_of_unchanged {deed : Deed} (h : deed.change? pins = none) (line : Line) :
    (deed.done pins line).level = (pins line).level := by
  unfold change? at h
  dsimp only at h
  split at h
  case isFalse => cases h
  case isTrue same =>
    unfold done
    by_cases own : line = deed.line
    · rw [own, Function.update_self, same]
    · rw [Function.update_of_ne own]

theorem done_of_other (pins : Line → Pin) {deed : Deed} {line : Line} (other : deed.line ≠ line) :
    deed.done pins line = pins line :=
  Function.update_of_ne other.symm ..

/-- The changes of a line that is high at first alternate, and the last is to the level that it has
in the end. -/
theorem alternates_changes (high : ∀ line, (pins line).level = true) (deeds : List Deed)
    (line : Line) :
    Transition.Alternates (Transition.on line (changes pins deeds)) ∧
      ((Transition.last? line (changes pins deeds)).map Transition.level).getD true =
        (deeds.foldl done pins line).level := by
  induction deeds using List.reverseRecOn with
  | nil => exact ⟨nofun, (high line).symm⟩
  | append_singleton deeds deed ih =>
    obtain ⟨alternates, last⟩ := ih
    rw [changes_concat, List.foldl_concat]
    unfold Transition.last? at last ⊢
    cases seen : deed.change? (deeds.foldl done pins) with
    | none =>
      rw [Option.toList_none, List.append_nil, level_of_unchanged seen]
      exact ⟨alternates, last⟩
    | some change =>
      obtain ⟨own, now, turns⟩ := level_of_change? seen
      rw [Option.toList_some, Transition.on_concat, own]
      split
      case isTrue here =>
        subst here
        rw [List.getLast?_concat, ← now]
        exact ⟨alternates.concat (last ▸ turns), rfl⟩
      case isFalse other =>
        rw [done_of_other _ other]
        exact ⟨alternates, last⟩

end Deed

def Step.drive? : Step → Option (Line × Drive)
  | .drive line level => some (line, .peers level)
  | _ => none

/-- What can be asked of a bus that changes it. -/
inductive BusCall
  | drive (id : LineId) (level : Bool)
  | wait (kind : WaitKind)
  deriving DecidableEq, Repr

def LineBus.call {β : Type} [LineBus β] (bus : β) : BusCall → Outcome β Unit
  | .drive id level => LineBus.drive bus id level
  | .wait kind => LineBus.wait bus kind

namespace Simulation

variable {bus middle after : Simulation} {steps first second : List Step}
  {deeds early late : List Deed}

/-- From one state to another these drives are done, and the record tells of them. -/
structure Records (bus : Simulation) (deeds : List Deed) (after : Simulation) : Prop where
  pins : after.pin = deeds.foldl Deed.done bus.pin
  record : after.transitions.toList = bus.transitions.toList ++ Deed.changes bus.pin deeds
  sorted : deeds.Pairwise (·.time ≤ ·.time)
  since : ∀ deed ∈ deeds, bus.now ≤ deed.time
  past : ∀ deed ∈ deeds, deed.time ≤ after.now
  later : bus.now ≤ after.now

theorem Records.trans (one : bus.Records early middle) (two : middle.Records late after) :
    bus.Records (early ++ late) after where
  pins := by rw [two.pins, one.pins, List.foldl_append]
  record := by rw [two.record, one.record, one.pins, Deed.changes_append, List.append_assoc]
  sorted := List.pairwise_append.mpr ⟨one.sorted, two.sorted, fun before mem next mem' =>
    Nat.le_trans (one.past before mem) (two.since next mem')⟩
  since deed mem := (List.mem_append.mp mem).elim (one.since deed)
    fun mem => Nat.le_trans one.later (two.since deed mem)
  past deed mem := (List.mem_append.mp mem).elim
    (fun mem => Nat.le_trans (one.past deed mem) two.later) (two.past deed)
  later := Nat.le_trans one.later two.later

theorem records_idle (pins : after.pin = bus.pin) (record : after.transitions = bus.transitions)
    (later : bus.now ≤ after.now) : bus.Records [] after :=
  ⟨pins, by rw [record]; exact (List.append_nil _).symm, .nil, nofun, nofun, later⟩

theorem records_moveTo (bus : Simulation) (time : Nat) : bus.Records [] (bus.moveTo time) :=
  records_idle rfl rfl (Nat.le_max_left ..)

theorem pin_update (bus : Simulation) (line : Line) (pin : Pin) :
    (bus.update line pin).pin = Function.update bus.pin line pin := by
  funext other
  unfold update
  split <;> cases line <;> cases other <;> rfl

theorem transitions_update (bus : Simulation) (line : Line) (drive : Drive) :
    (bus.update line ((bus.pin line).under drive)).transitions.toList =
      bus.transitions.toList ++ (Deed.change? bus.pin ⟨bus.now, line, drive⟩).toList := by
  unfold update Deed.change?
  dsimp only
  split
  · rw [Option.toList_none, List.append_nil]
    cases line <;> rfl
  · rw [Array.toList_push]
    cases line <;> rfl

theorem records_update (bus : Simulation) (line : Line) (drive : Drive) :
    bus.Records [⟨bus.now, line, drive⟩] (bus.update line ((bus.pin line).under drive)) where
  pins := pin_update ..
  record := by rw [transitions_update, Deed.changes, Deed.changes, List.append_nil]
  sorted := List.pairwise_singleton ..
  since deed mem := by rw [List.mem_singleton.mp mem]
  past deed mem := by rw [List.mem_singleton.mp mem, update_now]
  later := by rw [update_now]

structure Performs (bus : Simulation) (steps : List Step) (deeds : List Deed)
    (after : Simulation) : Prop extends bus.Records deeds after where
  driven : deeds.map (fun deed => (deed.line, deed.drive)) = steps.filterMap Step.drive?

theorem Performs.trans (one : bus.Performs first early middle)
    (two : middle.Performs second late after) :
    bus.Performs (first ++ second) (early ++ late) after where
  toRecords := one.toRecords.trans two.toRecords
  driven := by rw [List.map_append, one.driven, two.driven, List.filterMap_append]

theorem performs_execute (bus : Simulation) (step : Step) :
    ∃ deeds, bus.Performs [step] deeds (bus.execute step) := by
  cases step with
  | drive line level => exact ⟨_, bus.records_update line (.peers level), rfl⟩
  | delay | waitClockHigh | sampleData | sampleAck =>
    exact ⟨[], records_idle rfl rfl (Nat.le_refl _), rfl⟩

theorem performs_runFrom (bus : Simulation) (program : List Step) :
    ∃ steps deeds, program = steps ++ (bus.runFrom program).program ∧
      bus.Performs steps deeds (bus.runFrom program) := by
  induction program generalizing bus with
  | nil => exact ⟨[], [], rfl, records_idle rfl rfl (Nat.le_refl _), rfl⟩
  | cons step rest ih =>
    unfold runFrom
    split
    case isTrue => exact ⟨[], [], rfl, records_idle rfl rfl (Nat.le_refl _), rfl⟩
    case isFalse =>
      obtain ⟨deeds, now⟩ := bus.wake.performs_execute step
      obtain ⟨steps, more, split, next⟩ := ih (bus.wake.execute step)
      have awake : bus.Performs [] [] bus.wake := ⟨records_idle rfl rfl (Nat.le_refl _), rfl⟩
      exact ⟨step :: steps, deeds ++ more, congrArg (step :: ·) split, awake.trans (now.trans next)⟩

theorem performs_waitUntil (bus : Simulation) (time : Nat) :
    ∃ steps deeds, bus.program = steps ++ (bus.waitUntil time).program ∧
      bus.Performs steps deeds (bus.waitUntil time) := by
  induction bus using woken_induct time with
  | sleeps bus asleep =>
    obtain ⟨steps, deeds, split, due⟩ := bus.performs_runFrom bus.program
    rw [waitUntil_of_sleeps asleep]
    have passed : bus.runDue.Performs [] [] (bus.runDue.moveTo time) :=
      ⟨bus.runDue.records_moveTo time, rfl⟩
    refine ⟨steps, deeds, split, ?_⟩
    simpa only [List.append_nil] using due.trans passed
  | woken bus instant wakes due ih =>
    obtain ⟨steps, deeds, split, now⟩ := bus.performs_runFrom bus.program
    obtain ⟨rest, more, onward, next⟩ := ih
    have passed : bus.runDue.Performs [] [] (bus.runDue.moveTo instant) :=
      ⟨bus.runDue.records_moveTo instant, rfl⟩
    rw [waitUntil_of_woken wakes due]
    refine ⟨steps ++ rest, deeds ++ more, ?_, ?_⟩
    · calc bus.program = steps ++ bus.runDue.program := split
        _ = steps ++ (rest ++ ((bus.runDue.moveTo instant).waitUntil time).program) :=
          congrArg (steps ++ ·) onward
        _ = _ := (List.append_assoc ..).symm
    · exact now.trans (passed.trans next)

theorem performs_wait (bus : Simulation) (kind : WaitKind) :
    ∃ steps deeds, bus.program = steps ++ (LineBus.wait bus kind).state.program ∧
      bus.Performs steps deeds (LineBus.wait bus kind).state := by
  rw [state_wait]
  exact bus.performs_waitUntil _

theorem drive_of_fail {id : LineId} {level : Bool} {error : BusError}
    (failed : LineBus.drive bus id level = .fail error after) :
    after = bus ∧ error = .unknownLine id ∧ bus.line? id = none := by
  change Simulation.drive bus id level = _ at failed
  unfold drive at failed
  split at failed
  case h_1 unknown =>
    cases failed
    exact ⟨rfl, rfl, unknown⟩
  case h_2 => cases failed

theorem records_drive (bus : Simulation) (id : LineId) (level : Bool) :
    bus.Records ((bus.line? id).toList.map fun line => ⟨bus.now, line, .ours level⟩)
      (LineBus.drive bus id level).state := by
  change bus.Records _ (Simulation.drive bus id level).state
  unfold drive
  cases bus.line? id with
  | none => exact records_idle rfl rfl (Nat.le_refl _)
  | some line => exact bus.records_update line (.ours level)

/-- The bus after one call after the other. Calls go on after one that fails. -/
def afterCalls (bus : Simulation) (calls : List BusCall) : Simulation :=
  calls.foldl (fun bus call => (LineBus.call bus call).state) bus

theorem afterCalls_concat (bus : Simulation) (calls : List BusCall) (call : BusCall) :
    bus.afterCalls (calls ++ [call]) = (LineBus.call (bus.afterCalls calls) call).state :=
  List.foldl_concat ..

theorem afterCalls_wait (bus : Simulation) (calls : List BusCall) (kind : WaitKind) :
    bus.afterCalls (calls ++ [.wait kind]) = (LineBus.wait (bus.afterCalls calls) kind).state :=
  bus.afterCalls_concat calls (.wait kind)

/-- The drives that are done in one call. A drive of ours is done at once if the bus has the line. In
a wait a first part of what is left of the program is done, one step after the other. -/
inductive Response (bus : Simulation) : BusCall → List Deed → Prop
  | drive (id : LineId) (level : Bool) :
      Response bus (.drive id level)
        ((bus.line? id).toList.map fun line => ⟨bus.now, line, .ours level⟩)
  | wait (kind : WaitKind) (steps : List Step) (deeds : List Deed)
      (split : bus.program = steps ++ (LineBus.wait bus kind).state.program)
      (driven : deeds.map (fun deed => (deed.line, deed.drive)) = steps.filterMap Step.drive?)
      (during : ∀ deed ∈ deeds, bus.now ≤ deed.time ∧
        deed.time ≤ (LineBus.wait bus kind).state.now) :
      Response bus (.wait kind) deeds

inductive History (bus : Simulation) : List BusCall → List Deed → Prop
  | start : History bus [] []
  | call {calls : List BusCall} {deeds more : List Deed} (call : BusCall) :
      History bus calls deeds → Response (bus.afterCalls calls) call more →
      History bus (calls ++ [call]) (deeds ++ more)

theorem response_of_call (bus : Simulation) (call : BusCall) :
    ∃ deeds, bus.Response call deeds ∧ bus.Records deeds (LineBus.call bus call).state := by
  cases call with
  | drive id level => exact ⟨_, .drive id level, bus.records_drive id level⟩
  | wait kind =>
    obtain ⟨steps, deeds, split, performs⟩ := bus.performs_wait kind
    refine ⟨deeds, .wait kind steps deeds split performs.driven fun deed mem => ?_,
      performs.toRecords⟩
    exact ⟨performs.since deed mem, performs.past deed mem⟩

theorem history_of_calls (bus : Simulation) (calls : List BusCall) :
    ∃ deeds, bus.History calls deeds ∧ bus.Records deeds (bus.afterCalls calls) := by
  induction calls using List.reverseRecOn with
  | nil => exact ⟨[], .start, records_idle rfl rfl (Nat.le_refl _)⟩
  | append_singleton calls call ih =>
    obtain ⟨deeds, history, so_far⟩ := ih
    obtain ⟨more, response, now⟩ := (bus.afterCalls calls).response_of_call call
    rw [afterCalls_concat]
    exact ⟨deeds ++ more, history.call call response, so_far.trans now⟩

theorem later_of_settled (settled : bus.runDue = bus) (sleeps : bus.SleepsPast bus.now)
    (time : Nat) : ∃ changes, (bus.waitUntil time).transitions.toList =
      bus.transitions.toList ++ changes ∧ ∀ change ∈ changes, bus.now < change.time := by
  by_cases asleep : bus.SleepsPast time
  case pos =>
    rw [waitUntil_of_sleeps (settled.symm ▸ asleep), settled]
    exact ⟨[], (List.append_nil _).symm, nofun⟩
  case neg =>
    obtain ⟨instant, awake⟩ := Classical.not_forall.mp asleep
    obtain ⟨wakes, due⟩ := Classical.not_imp.mp awake
    have ahead := sleeps instant wakes
    have woken := waitUntil_of_woken (settled.symm ▸ wakes) (Nat.not_lt.mp due)
    rw [settled] at woken
    obtain ⟨steps, deeds, -, performs⟩ := (bus.moveTo instant).performs_waitUntil time
    rw [woken]
    refine ⟨_, performs.record, fun change mem => ?_⟩
    obtain ⟨deed, done, same⟩ := Deed.exists_deed_of_change mem
    have since := performs.since deed done
    rw [now_moveTo] at since
    omega

/-- A wait that ends earlier records what a longer one records up to then. -/
theorem record_of_shorter_wait (kind : WaitKind) {time : Nat}
    (past : ∀ change ∈ (bus.waitUntil time).transitions.toList, change.time ≤ time)
    (early : bus.now ≤ time) (late : time ≤ (LineBus.wait bus kind).state.now) :
    (bus.waitUntil time).transitions.toList =
      (LineBus.wait bus kind).state.transitions.toList.filter fun change => change.time ≤ time := by
  obtain ⟨settled, sleeps, now⟩ := bus.settled_waitUntil time
  rw [Nat.max_eq_right early] at now
  obtain ⟨changes, record, later⟩ := later_of_settled settled (now.symm ▸ sleeps)
    (LineBus.wait bus kind).state.now
  rw [bus.waitUntil_waitUntil late, ← state_wait] at record
  rw [record, List.filter_append, List.filter_eq_self.mpr fun change mem => ?_,
    List.filter_eq_nil_iff.mpr fun change mem => ?_, List.append_nil]
  · have := later change mem
    rw [decide_eq_true_eq]
    omega
  · exact decide_eq_true (past change mem)

/-- What the record of a bus shows of calls that began with nothing recorded and both lines high. -/
structure Recorded (bus : Simulation) (calls : List BusCall) (after : Simulation) : Prop where
  /-- The first change of a line is its fall, and each turns what the one before it left. -/
  alternates : ∀ line, Transition.Alternates (Transition.on line after.transitions.toList)
  level : ∀ line, (after.pin line).level =
    ((Transition.last? line after.transitions.toList).map Transition.level).getD true
  sorted : after.transitions.toList.Pairwise (·.time ≤ ·.time)
  past : ∀ change ∈ after.transitions.toList, change.time ≤ after.now
  /-- The drives in the order in which they are done, each with the change that it makes. -/
  told : ∃ deeds, bus.History calls deeds ∧ deeds.Pairwise (·.time ≤ ·.time) ∧
    after.transitions.toList = Deed.changes bus.pin deeds
  /-- A change is recorded at the time that it happens: a wait up to a time records those until then. -/
  dated : ∀ kind time, after.now ≤ time → time ≤ (LineBus.wait after kind).state.now →
    (LineBus.wait after (.instant time)).state.transitions.toList =
      (LineBus.wait after kind).state.transitions.toList.filter fun change => change.time ≤ time
  /-- A drive that is refused changes nothing. -/
  refused : ∀ id level error stopped, LineBus.drive after id level = .fail error stopped →
    stopped = after

theorem past_of_fresh (fresh : bus.transitions = #[]) (calls : List BusCall) :
    ∀ change ∈ (bus.afterCalls calls).transitions.toList,
      change.time ≤ (bus.afterCalls calls).now := by
  obtain ⟨deeds, -, records⟩ := bus.history_of_calls calls
  intro change mem
  rw [records.record, fresh] at mem
  obtain ⟨deed, done, same⟩ := Deed.exists_deed_of_change mem
  exact same ▸ records.past deed done

theorem recorded_of_fresh (high : ∀ line, (bus.pin line).level = true)
    (fresh : bus.transitions = #[]) (calls : List BusCall) :
    bus.Recorded calls (bus.afterCalls calls) := by
  obtain ⟨deeds, history, records⟩ := bus.history_of_calls calls
  have record : (bus.afterCalls calls).transitions.toList = Deed.changes bus.pin deeds := by
    rw [records.record, fresh]
    rfl
  have alternates (line : Line) := Deed.alternates_changes high deeds line
  have times := Deed.times_changes bus.pin deeds
  rw [← record] at alternates times
  refine ⟨fun line => (alternates line).1, fun line => ?_, ?_, past_of_fresh fresh calls,
    ⟨deeds, history, records.sorted, record⟩, fun kind time early late => ?_,
    fun _ _ _ _ failed => (drive_of_fail failed).1⟩
  · rw [(alternates line).2, records.pins]
  · have sorted := (List.pairwise_map.mpr records.sorted).sublist times
    exact List.pairwise_map.mp sorted
  · have past := past_of_fresh fresh (calls ++ [.wait (.instant time)])
    rw [afterCalls_wait, state_wait_instant, (settled_waitUntil _ time).2.2,
      Nat.max_eq_right early] at past
    rw [state_wait_instant]
    exact record_of_shorter_wait kind past early late

/-- In every program and over every sequence of calls, drives of ours of either line at any point and
waits of all kinds, whether they fail or not, the record of the bus is the list of the changes of
level that the drives of the two sides make. -/
theorem record_told (clock data : LineId) (program : List Step) (cycle : Nat) (bus : Simulation)
    (made : Simulation.ofProgram clock data program = .ok bus) (calls : List BusCall) :
    (bus.withCycle cycle).Recorded calls ((bus.withCycle cycle).afterCalls calls) := by
  unfold ofProgram at made
  split at made
  case isTrue => cases made
  case isFalse =>
    cases made
    refine recorded_of_fresh (fun line => ?_) rfl calls
    cases line <;> rfl

/-- A data line that both sides pull low, so that our letting it go does not show, two lines that are
let go at one instant, a line that the bus does not have and a wait that fails. -/
theorem record_told_of_shared_data :
    let program := [.delay 100, .drive .data (some false), .drive .clock (some false), .delay 50,
      .drive .data none, .drive .clock none]
    let calls := [.drive 1 false, .wait .change, .drive 7 false, .drive 1 true,
      .wait (.instant 150), .drive 0 false, .wait .change, .wait .cycle]
    ∃ bus : Simulation, Simulation.ofProgram 0 1 program = .ok bus ∧
      ((bus.withCycle 20).afterCalls calls).transitions.toList =
        [⟨0, .data, false⟩, ⟨100, .clock, false⟩, ⟨150, .data, true⟩, ⟨150, .clock, true⟩,
          ⟨150, .clock, false⟩] ∧
      (bus.withCycle 20).Recorded calls ((bus.withCycle 20).afterCalls calls) := by
  intro program calls
  have seen : (Simulation.ofProgram 0 1 program).toOption.map (fun bus =>
      ((bus.withCycle 20).afterCalls calls).transitions.toList) =
        some [⟨0, .data, false⟩, ⟨100, .clock, false⟩, ⟨150, .data, true⟩, ⟨150, .clock, true⟩,
          ⟨150, .clock, false⟩] := by decide +kernel
  obtain ⟨bus, made, shown⟩ := Option.map_eq_some_iff.mp seen
  have made := eq_ok_of_toOption made
  exact ⟨bus, made, shown, record_told 0 1 program 20 bus made calls⟩

end Simulation
end TwoWire
