import TwoWire.Proofs.Sound

/-! What notes say. Their talk is the events among them but for the speeds, which depend on time
alone; clean notes complain of nothing. -/

namespace TwoWire

/-- An event other than a speed. -/
def Finding.spoken? : Finding → Option Event
  | .event (.speed _) => none
  | .event other => some other
  | .violation _ => none

namespace Note

def talk (notes : List Note) : List Event := (findings notes).filterMap Finding.spoken?

@[simp] theorem talk_nil : talk [] = [] := rfl

@[simp] theorem talk_append (first second : List Note) :
    talk (first ++ second) = talk first ++ talk second := by
  simp [talk]

@[simp] theorem talk_event (event : Event) (notes : List Note) :
    talk (.event event :: notes) = (Finding.spoken? (.event event)).toList ++ talk notes := by
  cases spoken : Finding.spoken? (.event event) <;> simp [talk, Note.event, spoken]

@[simp] theorem talk_violation (broken : Violation) (notes : List Note) :
    talk (.violation broken :: notes) = talk notes := rfl

@[simp] theorem talk_fault (fault : SequenceFault) (notes : List Note) :
    talk (.fault fault :: notes) = talk notes := rfl

theorem talk_map_violation (broken : List Violation) : talk (broken.map violation) = [] := by
  induction broken with
  | nil => rfl
  | cons first rest ih => exact ih

@[simp] theorem talk_judged (judge : Int → Option Violation) (elapsed : Except Overflow Int) :
    talk (judged judge elapsed) = [] := by
  cases elapsed with
  | error kind => rfl
  | ok interval => exact talk_map_violation _

@[simp] theorem talk_measure (judge : Int → Option Violation) (start? : Option Nat) (stop : Nat) :
    talk (measure judge start? stop) = [] := by
  cases start? with
  | none => rfl
  | some start => exact talk_judged judge (Time.elapsed start stop)

@[simp] theorem talk_measureBetween (judge : Int → Option Violation) (start? stop? : Option Nat) :
    talk (measureBetween judge start? stop?) = [] := by
  cases stop? with
  | none => rfl
  | some stop => exact talk_measure judge start? stop

def Clean (notes : List Note) : Prop := ∀ broken, violation broken ∉ notes

theorem clean_nil : Clean [] := fun _ => List.not_mem_nil

theorem clean_append {first second : List Note} (left : Clean first) (right : Clean second) :
    Clean (first ++ second) := by
  intro broken h
  rcases List.mem_append.mp h with h | h
  · exact left broken h
  · exact right broken h

theorem clean_event {event : Event} {notes : List Note} (rest : Clean notes) :
    Clean (.event event :: notes) := by
  intro broken h
  rcases List.mem_cons.mp h with same | h
  · cases same
  · exact rest broken h

theorem clean_measure {judge : Int → Option Violation} {start? : Option Nat} {stop : Nat}
    (early : stop < Time.half)
    (allowed : ∀ start, start? = some start →
      start < Time.half ∧ judge ((stop : Int) - start) = none) :
    Clean (measure judge start? stop) := by
  cases start? with
  | none => exact clean_nil
  | some start =>
    obtain ⟨past, none⟩ := allowed start rfl
    change Clean (judged judge (Time.elapsed start stop))
    rw [Time.elapsed_of_lt past early]
    change Clean ((judge _).toList.map violation)
    rw [none]
    exact clean_nil

theorem not_mem_findings {notes : List Note} (clean : Clean notes) (broken : Violation) :
    .violation broken ∉ findings notes := by
  intro h
  obtain ⟨note, mem, same⟩ := List.mem_filterMap.mp h
  cases note with
  | overflow => cases same
  | found finding =>
    cases same
    exact clean broken mem

/-- All that is found are violations, each of one of some classes. -/
def Within (classes : List ViolationClass) (notes : List Note) : Prop :=
  ∀ finding, found finding ∈ notes → ∃ broken, finding = .violation broken ∧ broken.kind ∈ classes

variable {classes : List ViolationClass}

theorem within_nil (classes : List ViolationClass) : Within classes [] := nofun

theorem within_append {first second : List Note} (left : Within classes first)
    (right : Within classes second) : Within classes (first ++ second) := by
  intro finding h
  rcases List.mem_append.mp h with h | h
  · exact left finding h
  · exact right finding h

theorem within_violation {broken : Violation} (h : broken.kind ∈ classes) :
    Within classes [violation broken] := by
  intro finding mem
  cases List.mem_singleton.mp mem
  exact ⟨broken, rfl, h⟩

theorem within_fault {fault : SequenceFault} (h : .sequence ∈ classes) :
    Within classes [.fault fault] := within_violation h

theorem Within.mono {more : List ViolationClass} {notes : List Note} (within : Within classes notes)
    (h : classes ⊆ more) : Within more notes := by
  intro finding mem
  obtain ⟨broken, same, kind⟩ := within finding mem
  exact ⟨broken, same, h kind⟩

theorem within_measure {judge : Int → Option Violation}
    (judges : ∀ interval broken, judge interval = some broken → broken.kind ∈ classes)
    (start? : Option Nat) (stop : Nat) : Within classes (measure judge start? stop) := by
  cases start? with
  | none => exact within_nil classes
  | some start =>
    unfold measure
    dsimp only
    cases Time.elapsed start stop with
    | error kind => exact nofun
    | ok interval =>
      intro finding mem
      obtain ⟨broken, found, same⟩ := List.mem_map.mp mem
      cases same
      exact ⟨broken, rfl, judges interval broken (Option.mem_toList.mp found)⟩

theorem within_measureBetween {judge : Int → Option Violation}
    (judges : ∀ interval broken, judge interval = some broken → broken.kind ∈ classes)
    (start? stop? : Option Nat) : Within classes (measureBetween judge start? stop?) := by
  cases stop? with
  | none => exact within_nil classes
  | some stop => exact within_measure judges start? stop

end Note

theorem Violation.kind_ofInterval? {speed : Option SpeedClass} {param : TimingParam}
    {interval : Int} {broken : Violation} (h : ofInterval? speed param interval = some broken) :
    broken.kind = .timing := by
  unfold ofInterval? at h
  split at h
  · cases h
  · split at h <;> cases h
    rfl

theorem Violation.kind_ofDataValid? {speed : Option SpeedClass} {interval : Int}
    {broken : Violation} (h : ofDataValid? speed interval = some broken) :
    broken.kind = .timing := by
  unfold ofDataValid? at h
  split at h
  · cases h
  · exact kind_ofInterval? h

def View.Fits (view : View) (phase : Phase) : Prop :=
  ∀ line level, phase.expected line = some level → view.level line = level

namespace Protocol

open Note

variable {protocol : Protocol} {view : View}

theorem judge_eq_none {speed : SpeedClass} {param : TimingParam} {least : Nat} {start stop : Nat}
    (class_ : protocol.speed = some speed) (bound : param.bound speed.limits = .min least)
    (h : start + least ≤ stop) : protocol.judge param ((stop : Int) - start) = none := by
  have allowed : (param.bound speed.limits).allows ((stop : Int) - start) = true := by
    rw [bound]
    simp [Bound.allows]
    omega
  simp [judge, Violation.ofInterval?, class_, allowed]

theorem clean_judge {speed : SpeedClass} {param : TimingParam} {least : Nat} {start? : Option Nat}
    {stop : Nat} (class_ : protocol.speed = some speed)
    (bound : param.bound speed.limits = .min least) (early : stop < Time.half)
    (h : ∀ start, start? = some start → start + least ≤ stop) :
    Clean (Note.measure (protocol.judge param) start? stop) := by
  apply clean_measure early
  intro start known
  have := h start known
  exact ⟨by omega, judge_eq_none class_ bound this⟩

theorem within_judge {protocol : Protocol} {param : TimingParam} (interval : Int)
    (broken : Violation) (h : protocol.judge param interval = some broken) :
    broken.kind ∈ [ViolationClass.timing] := by
  rw [Violation.kind_ofInterval? h]
  exact List.mem_singleton_self _

theorem clean_dataValid {speed : SpeedClass} {start? : Option Nat} {stop : Nat}
    (class_ : protocol.speed = some speed) (early : stop < Time.half)
    (h : ∀ start, start? = some start → start ≤ stop ∧
      ∀ most, speed.limits.dataValidMax = some most → stop ≤ start + most) :
    Clean (Note.measure (Violation.ofDataValid? protocol.speed) start? stop) := by
  apply clean_measure early
  intro start known
  obtain ⟨past, soon⟩ := h start known
  have allowed : (TimingParam.dataValid.bound speed.limits).allows ((stop : Int) - start) =
      true := by
    unfold TimingParam.bound
    cases limit : speed.limits.dataValidMax with
    | none => rfl
    | some most =>
      have := soon most limit
      simp [Bound.allows]
      omega
  refine ⟨by omega, ?_⟩
  unfold Violation.ofDataValid?
  rw [if_neg (by omega)]
  simp [Violation.ofInterval?, class_, allowed]

@[simp] theorem talk_mismatch (phase : Phase) (view : View) (line : Line) :
    talk (mismatch phase view line) = [] := by
  unfold mismatch
  split
  · rfl
  · split <;> rfl

theorem mismatch_of_fits {phase : Phase} (fits : view.Fits phase) (line : Line) :
    mismatch phase view line = [] := by
  unfold mismatch
  cases expected : phase.expected line with
  | none => rfl
  | some level => simp [fits line level expected]

@[simp] theorem talk_speedNotes (protocol : Protocol) : talk protocol.speedNotes = [] := by
  unfold speedNotes
  split
  · rfl
  · rw [talk_event]
    split
    · rfl
    · cases Throughput.verdict? _ _ <;> rfl

theorem clean_speedNotes (h : protocol.expectedSpeed = none) : Clean protocol.speedNotes := by
  unfold speedNotes
  rw [h]
  split
  · exact clean_nil
  · exact clean_event clean_nil

@[simp] theorem talk_edgeNotes (protocol : Protocol) (view : View) (edge : Edge) :
    talk (protocol.edgeNotes view edge) = [] := by
  unfold edgeNotes
  split
  · exact talk_measure ..
  · split
    · rfl
    · exact talk_measure ..

@[simp] theorem talk_simultaneousNotes (edge : Edge) :
    talk (Checker.simultaneousNotes edge) = [] := by
  unfold Checker.simultaneousNotes
  split <;> rfl

theorem within_mismatch (phase : Phase) (view : View) (line : Line) :
    Within [.lineMismatch] (mismatch phase view line) := by
  unfold mismatch
  split
  · exact within_nil _
  · split
    · exact within_nil _
    · exact within_violation (List.mem_singleton_self _)

theorem within_setupNotes (protocol : Protocol) (view : View) :
    Within [.timing] (protocol.setupNotes view) := by
  unfold setupNotes
  split
  · exact within_measure within_judge _ _
  · exact within_nil _

theorem within_edgeNotes (protocol : Protocol) (view : View) (edge : Edge) :
    Within [.timing] (protocol.edgeNotes view edge) := by
  unfold edgeNotes
  split
  · exact within_measure within_judge _ _
  · split
    · exact within_nil _
    · refine within_measure (fun interval broken h => ?_) _ _
      rw [Violation.kind_ofDataValid? h]
      exact List.mem_singleton_self _

theorem within_simultaneousNotes (edge : Edge) :
    Within [.sequence] (Checker.simultaneousNotes edge) := by
  unfold Checker.simultaneousNotes
  split
  · exact within_fault (List.mem_singleton_self _)
  · exact within_nil _

end Protocol
end TwoWire
