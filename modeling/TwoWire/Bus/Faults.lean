import TwoWire.Bus.Basic

/-! A layer over a bus that fails chosen calls: each sort is counted from one, and a chosen call
does not reach the bus, whether it then fails or not. -/

namespace TwoWire

inductive CallSort
  | wait
  | drive
  deriving DecidableEq, Repr

structure Fault where
  sort : CallSort
  number : Nat
  /-- `none` for a call that seems to succeed. -/
  error : Option BusError
  deriving DecidableEq, Repr

structure Faulty (β : Type) where
  bus : β
  faults : List Fault
  waits : Nat := 0
  drives : Nat := 0

namespace Faulty

variable {β : Type}

def fault? (faulty : Faulty β) (sort : CallSort) (number : Nat) : Option Fault :=
  faulty.faults.find? fun fault => fault.sort = sort && fault.number = number

def answer (fault : Fault) (faulty : Faulty β) : Outcome (Faulty β) Unit :=
  match fault.error with
  | none => .ok () faulty
  | some error => .fail error faulty

/-- Wait calls still to come that will not reach the bus. -/
def waitFaults (faulty : Faulty β) : Nat :=
  faulty.faults.countP fun fault => fault.sort = .wait && decide (faulty.waits < fault.number)

@[simp] theorem state_answer (fault : Fault) (faulty : Faulty β) :
    (answer fault faulty).state = faulty := by
  unfold answer
  split <;> rfl

theorem waitFaults_count_le (faulty : Faulty β) (bus : β) :
    waitFaults { faulty with waits := faulty.waits + 1, bus } ≤ faulty.waitFaults := by
  refine List.countP_mono_left fun fault _ h => ?_
  simp only [Bool.and_eq_true, decide_eq_true_eq] at h ⊢
  exact ⟨h.1, by omega⟩

theorem waitFaults_count_lt (faulty : Faulty β) {fault : Fault}
    (h : faulty.fault? .wait (faulty.waits + 1) = some fault) :
    waitFaults { faulty with waits := faulty.waits + 1 } < faulty.waitFaults := by
  have found := List.find?_some h
  have member := List.mem_of_find?_eq_some h
  simp only [Bool.and_eq_true, decide_eq_true_eq] at found
  unfold waitFaults
  dsimp only
  obtain ⟨before, after, split⟩ := List.append_of_mem member
  rw [split, List.countP_append, List.countP_append, List.countP_cons, List.countP_cons]
  have mono : ∀ faults : List Fault,
      faults.countP (fun fault => fault.sort = .wait && decide (faulty.waits + 1 < fault.number)) ≤
        faults.countP
          (fun fault => fault.sort = .wait && decide (faulty.waits < fault.number)) := by
    refine fun faults => List.countP_mono_left fun fault _ h => ?_
    simp only [Bool.and_eq_true, decide_eq_true_eq] at h ⊢
    exact ⟨h.1, by omega⟩
  have hbefore := mono before
  have hafter := mono after
  simp only [found.1, found.2, decide_true, Bool.true_and, Nat.lt_irrefl, decide_false,
    Nat.lt_succ_self, if_true]
  simp only [Bool.false_eq_true, if_false]
  omega

variable [LineBus β]

def drive (faulty : Faulty β) (id : LineId) (level : Bool) : Outcome (Faulty β) Unit :=
  let counted := { faulty with drives := faulty.drives + 1 }
  match counted.fault? .drive counted.drives with
  | some fault => answer fault counted
  | none => (LineBus.drive faulty.bus id level).mapState fun bus => { counted with bus }

def wait (faulty : Faulty β) (kind : WaitKind) : Outcome (Faulty β) Unit :=
  let counted := { faulty with waits := faulty.waits + 1 }
  match counted.fault? .wait counted.waits with
  | some fault => answer fault counted
  | none => (LineBus.wait faulty.bus kind).mapState fun bus => { counted with bus }

def work (faulty : Faulty β) : Nat := LineBus.work faulty.bus + faulty.waitFaults

theorem bus_drive (faulty : Faulty β) (id : LineId) (level : Bool) :
    (faulty.drive id level).state.bus = faulty.bus ∨
      (faulty.drive id level).state.bus = (LineBus.drive faulty.bus id level).state := by
  unfold drive
  dsimp only
  split
  · exact .inl (by rw [state_answer])
  · exact .inr (by rw [Outcome.state_mapState])

theorem waitFaults_drive (faulty : Faulty β) (id : LineId) (level : Bool) :
    (faulty.drive id level).state.waitFaults = faulty.waitFaults := by
  unfold drive
  dsimp only
  split
  · rw [state_answer]
    rfl
  · rw [Outcome.state_mapState]
    rfl

theorem wait_change_work {faulty after : Faulty β} (h : faulty.wait .change = .ok () after) :
    after.work < faulty.work := by
  unfold wait at h
  dsimp only at h
  split at h
  case h_1 fault chosen =>
    unfold answer at h
    split at h
    · cases h
      have := faulty.waitFaults_count_lt chosen
      unfold work
      dsimp only
      omega
    · cases h
  case h_2 =>
    cases reached : LineBus.wait faulty.bus .change with
    | fail error bus =>
      rw [reached] at h
      cases h
    | ok value bus =>
      rw [reached] at h
      cases h
      have := LineBus.wait_change_work reached
      have := faulty.waitFaults_count_le bus
      unfold work
      dsimp only
      omega

theorem wait_cycle_work {faulty after : Faulty β} (h : faulty.wait .cycle = .ok () after) :
    after.work < faulty.work ∨
      after.work ≤ faulty.work ∧ LineBus.now faulty.bus < LineBus.now after.bus ∧
        ∀ id, (LineBus.pin? after.bus id).map Pin.peer =
          (LineBus.pin? faulty.bus id).map Pin.peer := by
  unfold wait at h
  dsimp only at h
  split at h
  case h_1 fault chosen =>
    unfold answer at h
    split at h
    · cases h
      have := faulty.waitFaults_count_lt chosen
      unfold work
      dsimp only
      exact .inl (by omega)
    · cases h
  case h_2 =>
    cases reached : LineBus.wait faulty.bus .cycle with
    | fail error bus =>
      rw [reached] at h
      cases h
    | ok value bus =>
      rw [reached] at h
      cases h
      have := faulty.waitFaults_count_le bus
      unfold work
      dsimp only
      rcases LineBus.wait_cycle_work reached with less | ⟨same, later, peers⟩
      · exact .inl (by omega)
      · exact .inr ⟨by omega, later, peers⟩

instance : LineBus (Faulty β) where
  now faulty := LineBus.now faulty.bus
  pin? faulty := LineBus.pin? faulty.bus
  drive := Faulty.drive
  wait := Faulty.wait
  moves faulty := LineBus.moves faulty.bus
  work := Faulty.work
  drive_now faulty id level := by
    rcases faulty.bus_drive id level with same | driven
    · rw [same]
    · rw [driven, LineBus.drive_now]
  drive_peer faulty id level other := by
    rcases faulty.bus_drive id level with same | driven
    · rw [same]
    · rw [driven, LineBus.drive_peer]
  drive_work faulty id level := by
    unfold work
    rw [waitFaults_drive]
    rcases faulty.bus_drive id level with same | driven
    · rw [same]
    · rw [driven, LineBus.drive_work]
  wait_change_work := Faulty.wait_change_work
  wait_cycle_work := Faulty.wait_cycle_work

end Faulty
end TwoWire
