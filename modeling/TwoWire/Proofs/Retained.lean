import Mathlib.Algebra.Order.Ring.Nat
import Mathlib.Data.List.DropRight
import TwoWire.Report.RecordLog

/-! What a record log keeps of what is pushed: every record is held still, was handed out, was
thrown away with the rest or is counted as lost (`records_conserved`). -/

namespace TwoWire.RecordLog

inductive Action
  | push (record : Record)
  | drain
  | clear
  deriving DecidableEq, Repr

def Action.pushed? : Action → Option Record
  | push record => some record
  | drain | clear => none

def Action.isPush (action : Action) : Bool := action.pushed?.isSome

def pushes (actions : List Action) : List Record := actions.filterMap Action.pushed?

/-- The records pushed since the last time that the log was emptied. -/
def recent (actions : List Action) : List Record := pushes (actions.rtakeWhile Action.isPush)

def act (log : RecordLog) : Action → RecordLog
  | .push record => log.push record
  | .drain => log.drain.2
  | .clear => log.clear

def after (log : RecordLog) (actions : List Action) : RecordLog := actions.foldl act log

def steps (log : RecordLog) : List Action → List (RecordLog × Action)
  | [] => []
  | action :: rest => (log, action) :: (log.act action).steps rest

/-- How many pushes find the log full. -/
def crowded (log : RecordLog) (actions : List Action) : Nat :=
  (log.steps actions).countP fun (found, action) => action.isPush && found.size = 512

def drained (log : RecordLog) (actions : List Action) : List Record :=
  (log.steps actions).flatMap fun (found, action) =>
    if action = .drain then found.drain.1 else []

def cleared (log : RecordLog) (actions : List Action) : List Record :=
  (log.steps actions).flatMap fun (found, action) =>
    if action = .clear then found.records else []

section Concat

variable (log : RecordLog) (actions : List Action) (action : Action)

theorem after_concat : log.after (actions ++ [action]) = (log.after actions).act action :=
  List.foldl_concat ..

theorem after_append (more : List Action) :
    log.after (actions ++ more) = (log.after actions).after more :=
  List.foldl_append

theorem steps_append (more : List Action) :
    log.steps (actions ++ more) = log.steps actions ++ (log.after actions).steps more := by
  induction actions generalizing log with
  | nil => rfl
  | cons first rest ih => exact congrArg ((log, first) :: ·) (ih (log.act first))

theorem steps_concat :
    log.steps (actions ++ [action]) = log.steps actions ++ [(log.after actions, action)] :=
  log.steps_append actions [action]

theorem crowded_append (more : List Action) :
    log.crowded (actions ++ more) = log.crowded actions + (log.after actions).crowded more := by
  unfold crowded
  rw [steps_append, List.countP_append]

theorem crowded_concat :
    log.crowded (actions ++ [action]) = log.crowded actions +
      if action.isPush && (log.after actions).size = 512 then 1 else 0 := by
  unfold crowded
  rw [steps_concat, List.countP_append, List.countP_singleton]

theorem drained_concat :
    log.drained (actions ++ [action]) =
      log.drained actions ++ if action = .drain then (log.after actions).drain.1 else [] := by
  unfold drained
  rw [steps_concat, List.flatMap_append, List.flatMap_singleton]

theorem cleared_concat :
    log.cleared (actions ++ [action]) =
      log.cleared actions ++ if action = .clear then (log.after actions).records else [] := by
  unfold cleared
  rw [steps_concat, List.flatMap_append, List.flatMap_singleton]

end Concat

theorem pushes_concat (actions : List Action) (action : Action) :
    pushes (actions ++ [action]) = pushes actions ++ action.pushed?.toList := by
  unfold pushes
  rw [List.filterMap_append]
  cases action <;> rfl

theorem recent_push (actions : List Action) (record : Record) :
    recent (actions ++ [.push record]) = recent actions ++ [record] := by
  unfold recent
  rw [List.rtakeWhile_concat_pos _ _ _ rfl, pushes_concat]
  rfl

theorem recent_of_emptied (actions : List Action) {action : Action}
    (empties : action.isPush = false) : recent (actions ++ [action]) = [] := by
  unfold recent
  rw [List.rtakeWhile_concat_neg _ _ _ (Bool.not_eq_true _ ▸ empties)]
  rfl

theorem held_after (actions : List Action) :
    (empty.after actions).held = (recent actions).reverse.take capacity := by
  induction actions using List.reverseRecOn with
  | nil => rfl
  | append_singleton actions action ih =>
    rw [after_concat]
    cases action with
    | push record =>
      have kept : ((empty.after actions).push record).held =
          (record :: (empty.after actions).held).take capacity := rfl
      rw [recent_push, List.reverse_concat, act, kept, ih]
      simp [capacity, List.take_take]
    | drain | clear =>
      rw [recent_of_emptied actions rfl]
      rfl

theorem records_after (actions : List Action) :
    (empty.after actions).records = (recent actions).rtake 512 := by
  unfold records
  rw [held_after, List.rtake_eq_reverse_take_reverse]
  rfl

theorem size_after (actions : List Action) :
    (empty.after actions).size = min 512 (recent actions).length := by
  unfold size
  rw [held_after, List.length_take, List.length_reverse]
  rfl

theorem size_push (log : RecordLog) (record : Record) :
    (log.push record).size = min 512 (log.size + 1) := by
  unfold size push
  rw [List.length_take, List.length_cons]
  rfl

theorem lost_after (actions : List Action) :
    (empty.after actions).lost = min (empty.crowded actions) (2 ^ 32 - 1) := by
  induction actions using List.reverseRecOn with
  | nil => rfl
  | append_singleton actions action ih =>
    rw [after_concat, crowded_concat]
    cases action with
    | push record =>
      have counted : ((empty.after actions).push record).lost =
          if (empty.after actions).size = 512 then
            min ((empty.after actions).lost + 1) (2 ^ 32 - 1)
          else (empty.after actions).lost := rfl
      rw [act, counted, ih]
      by_cases full : (empty.after actions).size = 512
      · simp only [full, Action.isPush, Action.pushed?, Option.isSome_some, decide_true,
          Bool.and_self, if_true]
        omega
      · simp [full]
    | drain | clear => exact ih

theorem length_pushes (actions : List Action) :
    (pushes actions).length = (empty.after actions).size + (empty.drained actions).length +
      (empty.cleared actions).length + empty.crowded actions := by
  induction actions using List.reverseRecOn with
  | nil => rfl
  | append_singleton actions action ih =>
    have room : (empty.after actions).size ≤ 512 := size_after actions ▸ Nat.min_le_left ..
    rw [after_concat, crowded_concat, drained_concat, cleared_concat, pushes_concat,
      List.length_append, ih]
    cases action with
    | push record =>
      rw [act, size_push]
      by_cases full : (empty.after actions).size = 512
      · simp [full, Action.isPush, Action.pushed?]
        omega
      · simp [full, Action.pushed?]
        omega
    | drain =>
      simp [act, drain, clear, size, records, Action.isPush, Action.pushed?]
      omega
    | clear =>
      simp [act, clear, size, records, Action.isPush, Action.pushed?]
      omega

theorem recent_of_pushes (records : List Record) : recent (records.map .push) = records := by
  induction records using List.reverseRecOn with
  | nil => rfl
  | append_singleton records record ih =>
    rw [List.map_append]
    exact (recent_push _ record).trans (congrArg (· ++ [record]) ih)

theorem crowded_of_pushes (records : List Record) :
    empty.crowded (records.map .push) = records.length - 512 := by
  induction records using List.reverseRecOn with
  | nil => rfl
  | append_singleton records record ih =>
    have size := size_after (records.map .push)
    rw [recent_of_pushes] at size
    rw [List.map_append, List.map_singleton, crowded_concat, ih, List.length_append,
      List.length_singleton, size]
    simp only [Action.isPush, Action.pushed?, Option.isSome_some, Bool.true_and, decide_eq_true_eq]
    split <;> omega

theorem lost_le_after (actions more : List Action) :
    (empty.after actions).lost ≤ ((empty.after actions).after more).lost := by
  rw [← after_append, lost_after, lost_after, crowded_append]
  omega

/-- Whatever is done to a log, it holds the last 512 of the records pushed since it was last drained or
cleared, and shows them as lines and as violations; the pushes that found it full are counted once and
for all, as far as the counter goes; and with them all the records ever pushed are accounted for. -/
theorem records_conserved (actions : List Action) :
    let log := empty.after actions
    log.records = (recent actions).rtake 512 ∧
    log.size = min 512 (recent actions).length ∧
    log.lines = ((recent actions).rtake 512).map Record.text ∧
    log.violations = ((recent actions).rtake 512).filterMap Record.violation? ∧
    log.lost = min (empty.crowded actions) (2 ^ 32 - 1) ∧
    (∀ more, log.lost ≤ (log.after more).lost) ∧
    (log.lost < 2 ^ 32 - 1 →
      (pushes actions).length = log.size + (empty.drained actions).length +
        (empty.cleared actions).length + log.lost) := by
  intro log
  have records := records_after actions
  have lost := lost_after actions
  have whole := length_pushes actions
  refine ⟨records, size_after actions, congrArg (List.map Record.text) records,
    congrArg (List.filterMap Record.violation?) records, lost, lost_le_after actions,
    fun below => ?_⟩
  have every : log.lost = empty.crowded actions := by
    change log.lost = min (empty.crowded actions) (2 ^ 32 - 1) at lost
    omega
  rw [every]
  exact whole

/-- A log that overflows twice, is drained, is filled a little, cleared and filled a little again. -/
theorem records_conserved_of_overflow :
    let record (time : Nat) : Record := ⟨time, .stopped, .event .byteSent⟩
    let actions := ((List.range 514).map record).map .push ++
      [.drain, .push (record 600), .push (record 601), .clear, .push (record 700)]
    let log := empty.after actions
    log.lost = 2 ∧ log.lost < 2 ^ 32 - 1 ∧ (pushes actions).length = 517 ∧
      (pushes actions).length = log.size + (empty.drained actions).length +
        (empty.cleared actions).length + log.lost := by
  intro record actions log
  have crowded : empty.crowded actions = 2 := by
    unfold actions
    rw [crowded_append, crowded_of_pushes, List.length_map, List.length_range]
    rfl
  have lost : log.lost = 2 := by
    unfold log
    rw [lost_after, crowded]
    decide
  have below : log.lost < 2 ^ 32 - 1 := by omega
  have pushed : (pushes actions).length = 517 := by
    unfold actions pushes
    rw [List.filterMap_append, List.filterMap_map, List.length_append]
    change (((List.range 514).map record).filterMap some).length + 3 = 517
    rw [List.filterMap_some, List.length_map, List.length_range]
  obtain ⟨-, -, -, -, -, -, whole⟩ := records_conserved actions
  exact ⟨lost, below, pushed, whole below⟩

end TwoWire.RecordLog
