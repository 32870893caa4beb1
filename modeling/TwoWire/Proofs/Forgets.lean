import TwoWire.Proofs.Abreast
import TwoWire.Proofs.Wired

/-! What a run does not see of its bus, and what it may do to a bus without consequences. -/

namespace TwoWire

/-- What `forget` takes away from a bus, a run on it does not see; nor does it make a difference to
drive a line at the level it is driven at. -/
structure LineBus.Forgets {β : Type} [LineBus β] (forget : β → β) : Prop where
  now (bus : β) : LineBus.now (forget bus) = LineBus.now bus
  pin? (bus : β) (id : LineId) : LineBus.pin? (forget bus) id = LineBus.pin? bus id
  drive (bus : β) (id : LineId) (level : Bool) :
    (LineBus.drive (forget bus) id level).mapState forget =
      (LineBus.drive bus id level).mapState forget
  wait (bus : β) (kind : WaitKind) :
    LineBus.wait (forget bus) kind = (LineBus.wait bus kind).mapState forget
  again {bus : β} {id : LineId} {level : Bool} : LineBus.weak? bus id = some level →
    ∃ after, LineBus.drive bus id level = .ok () after ∧ forget after = forget bus

theorem Outcome.abreast_of_mapState {first : Outcome σ α} {second : Outcome τ α} {f : σ → υ}
    {g : τ → υ} (cut : BusError → σ → τ → Prop) (same : first.mapState f = second.mapState g) :
    Abreast (fun state other => f state = g other) cut first second := by
  cases first <;> cases second <;> simp at same
  · obtain ⟨rfl, states⟩ := same
    exact .ok states
  · obtain ⟨rfl, states⟩ := same
    exact .fail states

namespace Replay

/-- Which drives have reached the bus is of no consequence. -/
def unlogged (bus : Replay) : Replay := { bus with drives := [] }

theorem unlogged_setPeer (bus : Replay) (id : LineId) (level : Option Bool) :
    bus.unlogged.setPeer id level = (bus.setPeer id level).unlogged := by
  unfold setPeer unlogged
  split <;> rfl

theorem unlogged_replayTo (bus : Replay) (time : Nat) (trace : List PeerDrive) :
    bus.unlogged.replayTo time trace = (bus.replayTo time trace).mapState unlogged := by
  induction trace generalizing bus with
  | nil => rfl
  | cons entry rest ih =>
    unfold replayTo
    split
    case isTrue => rfl
    case isFalse =>
      dsimp only
      generalize taken : ({ bus with now := max bus.now entry.time, trace := rest } : Replay) = late
      have same : ({ bus.unlogged with now := max bus.unlogged.now entry.time, trace := rest } :
          Replay) = late.unlogged := by
        rw [← taken]
        rfl
      rw [same, show late.unlogged.pin? entry.line = late.pin? entry.line from rfl]
      cases late.pin? entry.line with
      | none => rfl
      | some pin =>
        dsimp only
        rw [unlogged_setPeer]
        exact ih _

theorem unlogged_wait (bus : Replay) (kind : WaitKind) :
    bus.unlogged.wait kind = (bus.wait kind).mapState unlogged := by
  have trace : bus.unlogged.trace = bus.trace := rfl
  have reach (time : Nat) :
      bus.unlogged.waitUntil time = (bus.waitUntil time).mapState unlogged :=
    bus.unlogged_replayTo time bus.trace
  cases kind with
  | instant time => exact reach time
  | change =>
    change bus.unlogged.waitChange = bus.waitChange.mapState unlogged
    unfold waitChange
    rw [trace]
    cases bus.trace with
    | nil => rfl
    | cons entry rest => exact reach entry.time
  | cycle =>
    change bus.unlogged.waitCycle = bus.waitCycle.mapState unlogged
    have stop : bus.unlogged.now + bus.unlogged.cycle = bus.now + bus.cycle := rfl
    unfold waitCycle
    dsimp only
    rw [trace, stop]
    split
    · cases bus.trace <;> exact reach _
    · rfl

theorem unlogged_drive (bus : Replay) (id : LineId) (level : Bool) :
    (bus.unlogged.drive id level).mapState unlogged =
      (bus.drive id level).mapState unlogged := by
  have known : bus.unlogged.pin? id = bus.pin? id := rfl
  unfold drive
  rw [known]
  cases bus.pin? id with
  | none => rfl
  | some pin =>
    dsimp only
    unfold setWeak unlogged
    dsimp only
    split <;> rfl

theorem unlogged_again {bus : Replay} {id : LineId} {level : Bool}
    (driven : LineBus.weak? bus id = some level) :
    ∃ after, bus.drive id level = .ok () after ∧ after.unlogged = bus.unlogged := by
  obtain ⟨pin, known, weak⟩ := Option.map_eq_some_iff.mp driven
  change bus.pin? id = some pin at known
  refine ⟨{ bus.setWeak id level with drives := ⟨(bus.setWeak id level).now, id, level⟩ ::
    (bus.setWeak id level).drives }, ?_, ?_⟩
  · unfold drive
    rw [known]
  · unfold pin? at known
    unfold setWeak unlogged
    by_cases clock : id = bus.clock.id
    · rw [if_pos clock] at known ⊢
      cases known
      rw [← weak]
    · rw [if_neg clock] at known ⊢
      split at known
      · cases known
        rw [← weak]
      · cases known

theorem forgets : LineBus.Forgets unlogged where
  now _ := rfl
  pin? _ _ := rfl
  drive := unlogged_drive
  wait := unlogged_wait
  again := unlogged_again

end Replay

theorem Simulation.forgets : LineBus.Forgets (id : Simulation → Simulation) where
  now _ := rfl
  pin? _ _ := rfl
  drive _ _ _ := rfl
  wait bus kind := by
    change LineBus.wait bus kind = _
    cases LineBus.wait bus kind <;> rfl
  again {bus line level} driven := by
    obtain ⟨pin, known, weak⟩ := Option.map_eq_some_iff.mp driven
    obtain ⟨wired, found, rfl⟩ := Option.map_eq_some_iff.mp known
    refine ⟨bus, ?_, rfl⟩
    change bus.drive line level = _
    unfold Simulation.drive
    rw [found, ← weak]
    exact congrArg (Outcome.ok ()) (bus.hold_weak wired)

namespace LineBus.Forgets

variable {β : Type} [LineBus β] {forget : β → β} {bus other : β}

theorem same_now (forgets : Forgets forget) (same : forget bus = forget other) :
    LineBus.now other = LineBus.now bus := by
  rw [← forgets.now, ← same, forgets.now]

theorem same_pin? (forgets : Forgets forget) (same : forget bus = forget other) (id : LineId) :
    LineBus.pin? other id = LineBus.pin? bus id := by
  rw [← forgets.pin?, ← same, forgets.pin?]

theorem drive_abreast (forgets : Forgets forget) (same : forget bus = forget other) (id : LineId)
    (level : Bool) : Outcome.Abreast (fun bus other => forget bus = forget other)
      (fun _ _ _ => False) (LineBus.drive bus id level) (LineBus.drive other id level) := by
  refine Outcome.abreast_of_mapState _ ?_
  rw [← forgets.drive, same, forgets.drive]

theorem wait_abreast (forgets : Forgets forget) (same : forget bus = forget other)
    (kind : WaitKind) : Outcome.Abreast (fun bus other => forget bus = forget other)
      (fun _ _ _ => False) (LineBus.wait bus kind) (LineBus.wait other kind) := by
  refine Outcome.abreast_of_mapState _ ?_
  rw [← forgets.wait, same, forgets.wait]

end LineBus.Forgets

end TwoWire
