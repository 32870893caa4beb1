import TwoWire.Bus.Replay
import TwoWire.Proofs.Finite
import TwoWire.Proofs.Stutters

/-! A call that fails. Up to it the run goes as it would on the bus below; then it returns the error
and has nothing more to tell (`cut_short_by_failure`). -/

namespace TwoWire

def Entry.asks : CallSort → Entry → Bool
  | .wait, waited _ => true
  | .drive, drove .. => true
  | _, _ => false

/-- How many calls of a sort have been made, with or without success. -/
def Journal.asked (journal : Journal) (sort : CallSort) : Nat := journal.countP (Entry.asks sort)

/-- A journal ends with the call that fails, and the other one goes on from there. -/
def Journal.EndsAt (fault : Fault) : Break := fun error journal whole =>
  fault.error = some error ∧ journal <:+ whole ∧ ∃ (call : Entry) (before : Journal),
    journal = call :: before ∧ call.asks fault.sort = true ∧
      before.asked fault.sort + 1 = fault.number

theorem Entry.asks_of_told {entry : Entry} (told : entry.isTold = true) (sort : CallSort) :
    entry.asks sort = false := by
  cases entry <;> cases sort <;> first | rfl | cases told

theorem Journal.asked_cons_of_told {entry : Entry} (told : entry.isTold = true)
    (journal : Journal) (sort : CallSort) :
    Journal.asked (entry :: journal) sort = journal.asked sort :=
  List.countP_cons_of_neg (by simp [Entry.asks_of_told told])

namespace Faulty

variable {β : Type}

def made (faulty : Faulty β) : CallSort → Nat
  | .wait => faulty.waits
  | .drive => faulty.drives

/-- One bus under a call that is still to fail, next to the same bus without it. -/
structure Awaits (fault : Fault) (faulty : Faulty β) (journal : Journal) (bus : β)
    (journal' : Journal) : Prop where
  bus : faulty.bus = bus
  faults : faulty.faults = [fault]
  made : ∀ sort, faulty.made sort = journal.asked sort
  same : journal' = journal
  early : journal.asked fault.sort < fault.number

structure Counts (sort : CallSort) (faulty counted : Faulty β) : Prop where
  bus : counted.bus = faulty.bus
  faults : counted.faults = faulty.faults
  made : ∀ other, counted.made other = faulty.made other + if other = sort then 1 else 0

def call (counted : Faulty β) (sort : CallSort) (outcome : Outcome β Unit) :
    Outcome (Faulty β) Unit :=
  match counted.fault? sort (counted.made sort) with
  | some fault => answer fault counted
  | none => outcome.mapState fun bus => { counted with bus }

theorem fault?_of_single {faulty : Faulty β} {fault : Fault} (single : faulty.faults = [fault])
    (sort : CallSort) (number : Nat) :
    faulty.fault? sort number =
      if fault.sort = sort ∧ fault.number = number then some fault else none := by
  unfold fault?
  rw [single]
  by_cases chosen : fault.sort = sort ∧ fault.number = number
  · rw [if_pos chosen, List.find?_cons_of_pos (by simp [chosen])]
  · rw [if_neg chosen, List.find?_cons_of_neg (by simpa using chosen)]
    rfl

end Faulty

namespace Probe

open Faulty (Awaits Counts)

variable {β : Type} [LineBus β] {fault : Fault} {first : Probe (Faulty β)} {second : Probe β}

theorem asked_called (probe : Probe β) (entry : Entry) (bus : β) (sort : CallSort) :
    (probe.called entry bus).journal.asked sort =
      probe.journal.asked sort + if entry.asks sort then 1 else 0 := by
  refine probe.countP_called (fun transition => ?_) entry bus
  cases sort <;> rfl

/-- A call goes alike on both sides, or it is the one that fails. -/
theorem call_abreast {error : BusError} (fails : fault.error = some error)
    (beside : first.Beside (Awaits fault) second) {sort : CallSort} {entry : Entry}
    (asks : ∀ other, entry.asks other = decide (other = sort)) {counted : Faulty β}
    (counts : Counts sort first.bus counted) (outcome : Outcome β Unit) :
    Probe.Abreast (Awaits fault) (Journal.EndsAt fault)
      ((counted.call sort outcome).mapState (first.called entry))
      (outcome.mapState (second.called entry)) := by
  have single := counts.faults.trans beside.bond.faults
  have number := counts.made sort
  rw [if_pos rfl, beside.bond.made] at number
  unfold Faulty.call
  rw [Faulty.fault?_of_single single, number]
  by_cases chosen : fault.sort = sort ∧ fault.number = first.journal.asked sort + 1
  case pos =>
    rw [if_pos chosen]
    have answered : Faulty.answer fault counted = .fail error counted := by
      unfold Faulty.answer
      rw [fails]
    have unmoved : LineBus.moves counted = LineBus.moves first.bus :=
      congrArg (LineBus.moves (β := β)) counts.bus
    dsimp only
    rw [answered, Outcome.mapState_fail]
    refine .cut ⟨fails, ?_, entry, first.journal, journal_called_of_unmoved unmoved entry, ?_, ?_⟩
    · rw [Outcome.state_mapState, journal_called_of_unmoved unmoved, ← beside.bond.same]
      exact List.suffix_append _ _
    · rw [asks, chosen.1, decide_eq_true rfl]
    · rw [chosen.1, chosen.2]
  case neg =>
    rw [if_neg chosen]
    have still (bus : β) : (first.called entry { counted with bus }).Beside (Awaits fault)
        (second.called entry bus) := by
      refine ⟨⟨rfl, single, fun other => ?_, ?_, ?_⟩, beside.lines, beside.detector,
        beside.stretch⟩
      · rw [asked_called, asks, ← beside.bond.made]
        simp only [decide_eq_true_eq]
        refine Eq.trans ?_ (counts.made other)
        cases other <;> rfl
      · have moves : LineBus.moves second.bus = LineBus.moves first.bus :=
          congrArg LineBus.moves beside.bond.bus.symm
        unfold called
        dsimp only
        rw [moves, beside.bond.same]
        rfl
      · rw [asked_called, asks]
        have early := beside.bond.early
        by_cases same : fault.sort = sort
        · rw [same] at chosen early ⊢
          simp only [true_and] at chosen
          simp
          omega
        · simpa [same] using early
    cases outcome with
    | ok _ bus => exact .ok (still bus)
    | fail reason bus => exact .fail (still bus)

end Probe

namespace Faulty

open Probe (Beside)

variable {β : Type} [LineBus β] {fault : Fault} {first : Probe (Faulty β)} {second : Probe β}

theorem wait_abreast {error : BusError} (fails : fault.error = some error)
    (beside : first.Beside (Awaits fault) second) (kind : WaitKind) :
    Probe.Abreast (Awaits fault) (Journal.EndsAt fault) (first.wait kind) (second.wait kind) := by
  have counts : Counts .wait first.bus { first.bus with waits := first.bus.waits + 1 } :=
    ⟨rfl, rfl, fun other => by cases other <;> rfl⟩
  have asks (other : CallSort) : (Entry.waited kind).asks other = decide (other = .wait) := by
    cases other <;> rfl
  have called := Probe.call_abreast fails beside asks counts (LineBus.wait first.bus.bus kind)
  unfold Probe.wait
  rw [← beside.bond.bus]
  exact called

theorem drive_abreast {error : BusError} (fails : fault.error = some error)
    (beside : first.Beside (Awaits fault) second) (line : Line) (level : Bool) :
    Probe.Abreast (Awaits fault) (Journal.EndsAt fault) (first.drive line level)
      (second.drive line level) := by
  have counts : Counts .drive first.bus { first.bus with drives := first.bus.drives + 1 } :=
    ⟨rfl, rfl, fun other => by cases other <;> rfl⟩
  have asks (other : CallSort) :
      (Entry.drove line level).asks other = decide (other = .drive) := by
    cases other <;> rfl
  have set : Beside (Awaits fault) { first with lines := first.lines.setWeak line level }
      { second with lines := first.lines.setWeak line level } :=
    ⟨beside.bond, rfl, beside.detector, beside.stretch⟩
  have called := Probe.call_abreast fails set asks counts
    (LineBus.drive first.bus.bus ((first.lines.setWeak line level).id line) level)
  have below : LineBus.drive second.bus = LineBus.drive first.bus.bus :=
    congrArg LineBus.drive beside.bond.bus.symm
  unfold Probe.drive
  rw [below, beside.lines]
  exact called

theorem linked {error : BusError} (fails : fault.error = some error) :
    Linked (Awaits (β := β) fault) (Journal.EndsAt fault) where
  now bond := congrArg LineBus.now bond.bus.symm
  peer bond id := congrArg (fun bus => LineBus.peer? bus id) bond.bus.symm
  note told bond := ⟨bond.bus, bond.faults,
    fun sort => (bond.made sort).trans (Journal.asked_cons_of_told told _ sort).symm,
    congrArg _ bond.same, by rw [Journal.asked_cons_of_told told]; exact bond.early⟩
  drive line level beside := drive_abreast fails beside line level
  goes later broken := ⟨broken.1, broken.2.1.trans later, broken.2.2⟩

theorem stutters {error : BusError} (fails : fault.error = some error) :
    Stutters (Awaits (β := β) fault) (Journal.EndsAt fault) (fun _ => True)
      (Beside (Awaits fault)) where
  toLinked := linked fails
  kept _ _ _ := trivial
  rests _ := trivial
  begins beside _ := beside
  alike beside := Probe.alike_of_linked (linked fails) beside
  wakes beside := .inr ((linked fails).pause beside.stretch (wait_abreast fails beside _))

end Faulty

namespace Checker

variable {β : Type} [LineBus β]

/-- A run on a bus of which no call has failed is the run on the bus itself. -/
structure Undisturbed (plain : BusError × Checker β) (faulty : BusError × Checker (Faulty β)) :
    Prop where
  error : faulty.1 = plain.1
  bus : faulty.2.probe.bus.bus = plain.2.probe.bus
  lines : faulty.2.probe.lines = plain.2.probe.lines
  detector : faulty.2.probe.detector = plain.2.probe.detector
  stretch : faulty.2.probe.stretch = plain.2.probe.stretch
  journal : faulty.2.probe.journal = plain.2.probe.journal
  protocol : faulty.2.protocol = plain.2.protocol

/-- A run that returns the error of a call, with nothing more to tell than that, next to the run that
goes on. Journals have the newest first. -/
structure CutShort (sort : CallSort) (before : Nat) (error : BusError)
    (plain : BusError × Checker β) (faulty : BusError × Checker (Faulty β)) : Prop where
  returns : faulty.1 = error
  journals : ∃ (call : Entry) (early late : Journal), call.asks sort = true ∧
    early.asked sort = before ∧ plain.2.probe.journal = late ++ call :: early ∧
    faulty.2.probe.journal = .ended error faulty.2.now :: call :: early
  /-- The records are a beginning of those of the whole run. -/
  pushed : faulty.2.probe.journal.pushed <:+ plain.2.probe.journal.pushed

/-- A call that fails, whichever it is and whatever it fails with, ends the run with that error; up to
that call the run is as it would have been, and after it there is nothing more. -/
theorem cut_short_by_failure (config : Config) (sort : CallSort) (n : Nat) (error : BusError)
    {bus : β} {plain : Checker β} {faulty : Checker (Faulty β)}
    (made : ofConfig config bus = .ok plain)
    (made' : ofConfig config { bus, faults := [⟨sort, n + 1, some error⟩] } = .ok faulty) :
    plain.run.2.probe.journal.asked sort ≤ n ∧ Undisturbed plain.run faulty.run ∨
      CutShort sort n error plain.run faulty.run := by
  have fails : (Fault.mk sort (n + 1) (some error)).error = some error := rfl
  have stutters := Faulty.stutters (β := β) fails
  have start : faulty.start.Beside (Faulty.Awaits ⟨sort, n + 1, some error⟩) plain.start := by
    refine beside_of_made made' made ⟨rfl, rfl, fun other => ?_, rfl, ?_⟩
    · cases other <;> rfl
    · exact (Journal.asked_cons_of_told rfl [] sort).trans_lt (Nat.succ_pos n)
  have settles : Probe.Abreast (Faulty.Awaits ⟨sort, n + 1, some error⟩) _
      (faulty.start.letGo config.settleTime) (plain.start.letGo config.settleTime) :=
    stutters.letGo start fun _ _ beside _ => Faulty.wait_abreast fails beside _
  have stop := stutters.stop_of_made made' made settles (fun _ _ => trivial)
    fun _ _ _ _ _ => trivial
  rw [run_eq_stop, run_eq_stop]
  generalize faulty.stop = cut at stop ⊢
  generalize plain.stop = whole at stop ⊢
  obtain ⟨reason, stopped⟩ := cut
  obtain ⟨reason', stopped'⟩ := whole
  cases stop with
  | fail beside =>
    have now : stopped'.now = stopped.now := (Faulty.linked rfl).same_now beside.probe
    obtain ⟨⟨bond, lines, detector, stretch⟩, -, protocol⟩ := beside
    have journal : .ended reason stopped.now :: stopped.probe.journal =
        .ended reason stopped'.now :: stopped'.probe.journal := by rw [now, bond.same]
    refine .inl ⟨?_, rfl, bond.bus, lines.symm, detector.symm, stretch.symm, journal,
      protocol.symm⟩
    have few := bond.early
    rw [← bond.same] at few
    exact (Journal.asked_cons_of_told rfl _ sort).trans_le (Nat.lt_succ_iff.mp few)
  | cut broken =>
    obtain ⟨fails, further, call, early, ends, asks, number⟩ := broken
    cases Option.some.inj fails
    refine .inr ⟨rfl, ?_, ?_⟩
    · obtain ⟨late, whole⟩ := further
      refine ⟨call, early, .ended reason' stopped'.now :: late, asks, Nat.succ.inj number, ?_,
        congrArg _ ends⟩
      exact congrArg _ (whole.symm.trans (congrArg (late ++ ·) ends))
    · exact further.filterMap Entry.record?

/-- The clock has just fallen and is to be held low when the bus refuses that. -/
theorem cut_short_while_stretching :
    let bus := Replay.ofTrace 0 1 [⟨200, 1, some false⟩, ⟨300, 0, some false⟩, ⟨400, 0, none⟩]
    let config : Config := { clock := 0, data := 1, clockStretch := 50 }
    ∃ (plain : Checker Replay) (faulty : Checker (Faulty Replay)),
      ofConfig config bus = .ok plain ∧
      ofConfig config { bus, faults := [⟨.drive, 4, some (.backend "refused")⟩] } = .ok faulty ∧
      CutShort .drive 3 (.backend "refused") plain.run faulty.run := by
  intro bus config
  have found : ((ofConfig config bus).toOption.bind fun plain => (plain.end? 30).map
      fun stop => stop.2.probe.journal.asked .drive) = some 7 := by decide +kernel
  obtain ⟨plain, made, drives⟩ := exists_run found
  obtain ⟨faulty, made'⟩ : ∃ faulty, ofConfig config
      ({ bus, faults := [⟨.drive, 4, some (.backend "refused")⟩] } : Faulty Replay) = .ok faulty :=
    ⟨_, rfl⟩
  refine ⟨plain, faulty, made, made', ?_⟩
  rcases cut_short_by_failure config .drive 3 (.backend "refused") made made' with ⟨few, -⟩ | cut
  · rw [drives] at few
    omega
  · exact cut

end Checker
end TwoWire
