import TwoWire.Probe.Still

/-! Waiting for an edge. Wake-ups without one come to an end: each takes work off the bus or brings
the end of the pending stretch nearer. -/

namespace TwoWire

namespace ClockStretch

theorem remaining_lt {stretch : ClockStretch} {before after : Nat} (pending : stretch.isPending)
    (early : stretch.isDue after = false) (later : before < after) :
    stretch.remaining after < stretch.remaining before := by
  unfold isPending isDue remaining at *
  cases deadline : stretch.deadline? with
  | none => simp [deadline] at pending
  | some deadline =>
    simp only [deadline, Option.any_some, decide_eq_false_iff_not] at early ⊢
    omega

theorem remaining_pos {stretch : ClockStretch} (pending : stretch.isPending) (now : Nat) :
    0 < stretch.remaining now := by
  unfold isPending remaining at *
  cases deadline : stretch.deadline? with
  | none => simp [deadline] at pending
  | some deadline => exact Nat.succ_pos _

end ClockStretch

namespace Probe

variable {β : Type} [LineBus β]

/-- Wake-ups that took no work off the bus: the peer did nothing, and the only thing that may have
happened is that the clock was let go. -/
structure Idled (before after : Probe β) : Prop where
  work : LineBus.work after.bus ≤ LineBus.work before.bus
  remaining : after.stretch.remaining after.now < before.stretch.remaining before.now
  peer : ∀ id, LineBus.peer? after.bus id = LineBus.peer? before.bus id
  detector : after.detector = before.detector
  lines : after.lines = before.lines ∨ after.lines = before.lines.setWeak .clock true

theorem Idled.id {before after : Probe β} (idled : Idled before after) (line : Line) :
    after.lines.id line = before.lines.id line := by
  rcases idled.lines with same | free
  · rw [same]
  · rw [free, Lines.id_setWeak]

theorem Idled.refreshed {a b c : Probe β} (idled : Idled a b) (refreshed : Refreshed b c) :
    Idled a c where
  work := refreshed.still.work ▸ idled.work
  remaining := by
    rw [refreshed.stretch, refreshed.still.now]
    exact idled.remaining
  peer id := (refreshed.still.peer id).trans (idled.peer id)
  detector := refreshed.still.detector.trans idled.detector
  lines := refreshed.lines ▸ idled.lines

theorem Idled.trans {a b c : Probe β} (first : Idled a b) (second : Idled b c) : Idled a c where
  work := Nat.le_trans second.work first.work
  remaining := Nat.lt_trans second.remaining first.remaining
  peer id := (second.peer id).trans (first.peer id)
  detector := second.detector.trans first.detector
  lines := by
    rcases first.lines with same | free <;> rcases second.lines with same' | free'
    · exact .inl (same'.trans same)
    · exact .inr (same ▸ free')
    · exact .inr (same'.trans free)
    · exact .inr (by rw [free', free]; rfl)

theorem releaseWhenDue_work (probe : Probe β) :
    LineBus.work probe.releaseWhenDue.state.bus = LineBus.work probe.bus := by
  unfold releaseWhenDue
  split
  · have still := probe.still_drive .clock true
    cases h : probe.drive .clock true with
    | ok _ driven =>
      rw [h] at still
      exact still.work
    | fail _ driven =>
      rw [h] at still
      exact still.work
  · rfl

theorem waitCycle_cases {probe after : Probe β} (pending : probe.stretch.isPending)
    (h : ((probe.wait .cycle).andThen fun _ probe => probe.releaseWhenDue) = .ok () after) :
    LineBus.work after.bus < LineBus.work probe.bus ∨ Idled probe after := by
  cases waited : probe.wait .cycle with
  | fail _ _ =>
    rw [waited] at h
    cases h
  | ok _ woken =>
    rw [waited] at h
    obtain ⟨bus, reached, rfl⟩ := wait_ok waited
    have released := (probe.called (.waited .cycle) bus).releaseWhenDue_work
    rw [Outcome.andThen_ok] at h
    rw [h] at released
    change LineBus.work after.bus = LineBus.work bus at released
    rcases LineBus.wait_cycle_work reached with less | ⟨same, later, peers⟩
    · exact .inl (released ▸ less)
    · refine .inr ?_
      unfold releaseWhenDue at h
      split at h
      case isFalse early =>
        cases h
        exact ⟨same, ClockStretch.remaining_lt pending (by simpa using early) later, peers, rfl,
          .inl rfl⟩
      case isTrue =>
        have still := (probe.called (.waited .cycle) bus).still_drive .clock true
        have lines := (probe.called (.waited .cycle) bus).lines_drive .clock true
        cases driven : (probe.called (.waited .cycle) bus).drive .clock true with
        | fail _ _ =>
          rw [driven] at h
          cases h
        | ok _ free =>
          rw [driven] at h still lines
          cases h
          exact ⟨still.work ▸ same, ClockStretch.remaining_pos pending _,
            fun id => (still.peer id).trans (peers id), still.detector, .inr lines⟩

theorem pause_cases {probe after : Probe β} (h : probe.pause = .ok () after) :
    LineBus.work after.bus < LineBus.work probe.bus ∨ Idled probe after := by
  unfold pause at h
  dsimp only at h
  generalize wake : (if probe.stretch.isPending then
    (probe.wait .cycle).andThen fun _ probe => probe.releaseWhenDue
    else probe.wait .change) = outcome at h
  cases outcome with
  | fail _ _ => cases h
  | ok _ woken =>
    rw [Outcome.andThen_ok] at h
    have refreshed := woken.refreshed_refresh
    rw [h] at refreshed
    split at wake
    case isTrue pending =>
      rcases waitCycle_cases pending wake with less | idled
      · exact .inl (refreshed.still.work ▸ less)
      · exact .inr (idled.refreshed refreshed)
    case isFalse =>
      obtain ⟨bus, reached, rfl⟩ := wait_ok wake
      exact .inl (refreshed.still.work ▸ LineBus.wait_change_work reached)

theorem pause_lt {probe after : Probe β} (h : probe.pause = .ok () after) :
    Prod.Lex (· < ·) (· < ·) (LineBus.work after.bus, after.stretch.remaining after.now)
      (LineBus.work probe.bus, probe.stretch.remaining probe.now) := by
  rcases pause_cases h with less | idled
  · exact .left _ _ less
  · rcases Nat.lt_or_eq_of_le idled.work with less | same
    · exact .left _ _ less
    · rw [same]
      exact .right _ idled.remaining

/-- Wait until one of the lines differs from its committed level, and commit it. If one differs
already, the bus is not asked for anything. -/
def awaitChange (probe : Probe β) : Outcome (Probe β) Change :=
  match probe.look with
  | .error error => .fail error probe
  | .ok sight =>
    match probe.detector.edge? probe.lines sight with
    | some edge => .ok ⟨edge, sight⟩ (probe.commit sight edge)
    | none =>
      match _ : probe.pause with
      | .fail error woken => .fail error woken
      | .ok _ woken => woken.awaitChange
termination_by (LineBus.work probe.bus, probe.stretch.remaining probe.now)
decreasing_by exact pause_lt ‹_›

structure Commits (probe : Probe β) (change : Change) (after : Probe β) : Prop where
  look : probe.look = .ok change.sight
  edge : probe.detector.edge? probe.lines change.sight = some change.edge
  after : after = probe.commit change.sight change.edge

theorem awaitChange_cases {probe after : Probe β} {change : Change}
    (h : probe.awaitChange = .ok change after) :
    Commits probe change after ∨
      ∃ woken, Commits woken change after ∧
        (LineBus.work woken.bus < LineBus.work probe.bus ∨
          Idled probe woken ∧
            ∃ sight, probe.look = .ok sight ∧ probe.detector.edge? probe.lines sight = none) := by
  fun_induction awaitChange probe with
  | case1 => cases h
  | case2 probe sight look edge seen =>
    cases h
    exact .inl ⟨look, seen, rfl⟩
  | case3 => cases h
  | case4 probe sight look unseen _ woken paused ih =>
    refine .inr ?_
    rcases ih h with now | ⟨later, commits, further⟩
    · refine ⟨woken, now, ?_⟩
      rcases pause_cases paused with less | idled
      · exact .inl less
      · exact .inr ⟨idled, sight, look, unseen⟩
    · refine ⟨later, commits, ?_⟩
      rcases pause_cases paused with less | idled <;> rcases further with less' | ⟨idled', _⟩
      · exact .inl (Nat.lt_trans less' less)
      · exact .inl (Nat.lt_of_le_of_lt idled'.work less)
      · exact .inl (Nat.lt_of_lt_of_le less' idled.work)
      · exact .inr ⟨idled.trans idled', sight, look, unseen⟩

end Probe
end TwoWire
