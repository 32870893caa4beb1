import TwoWire.Proofs.Simultaneous

/-! Waiting for an edge, whatever the probe and its bus have come from: a wait that returns commits
one line, and one that fails commits nothing (`one_edge_committed`). -/

namespace TwoWire.Probe

variable {β : Type} [LineBus β] {probe after : Probe β} {change : Change} {line : Line}

def Apart (probe : Probe β) (line : Line) : Prop :=
  ∃ reading, probe.lines.read probe.bus line = .ok reading ∧
    reading.level ≠ (probe.detector.sample line).level

/-- What a wait that returns has done to the committed levels. -/
structure Notices (before : Probe β) (change : Change) (after : Probe β) : Prop where
  sample : after.detector.sample change.line =
    { level := !(before.detector.sample change.line).level
      changedAt := some change.time
      previousChange := (before.detector.sample change.line).changedAt }
  shows : ∃ reading, after.lines.read after.bus change.line = .ok reading ∧
    reading.level = (after.detector.sample change.line).level
  now : change.time = after.now
  others : ∀ other, other ≠ change.line →
    after.detector.sample other = before.detector.sample other
  both : change.edge = .simultaneous ↔ change.line = .clock ∧ after.Apart .data

theorem read_eq_ok_iff {level : Bool} :
    (∃ reading, probe.lines.read probe.bus line = .ok reading ∧ reading.level = level) ↔
      probe.level? line = some level := by
  unfold Lines.read level?
  cases LineBus.peer? probe.bus (probe.lines.id line) with
  | none => simp
  | some peer => simp

theorem apart_iff : probe.Apart line ↔ probe.differs line = true := by
  unfold differs
  rw [beq_iff_eq, ← read_eq_ok_iff]
  simp only [Apart, Bool.eq_not_iff]

theorem awaitChange_of_edge {sight : Sight} {edge : Edge} (look : probe.look = .ok sight)
    (seen : probe.detector.edge? probe.lines sight = some edge) :
    probe.awaitChange = .ok ⟨edge, sight⟩ (probe.commit sight edge) := by
  rw [awaitChange, look]
  dsimp only
  rw [seen]

theorem awaitChange_of_missing {error : BusError} (missing : probe.look = .error error) :
    probe.awaitChange = .fail error probe := by
  rw [awaitChange, missing]

theorem awaitChange_of_pause {sight : Sight} {woken : Probe β} (look : probe.look = .ok sight)
    (unseen : probe.detector.edge? probe.lines sight = none)
    (paused : probe.pause = .ok () woken) : probe.awaitChange = woken.awaitChange := by
  rw [awaitChange, look]
  dsimp only
  rw [unseen]
  dsimp only
  split
  case h_1 failed =>
    rw [paused] at failed
    cases failed
  case h_2 other woke =>
    rw [paused] at woke
    cases woke
    rfl

theorem missing_of_look {error : BusError} (missing : probe.look = .error error) :
    ∃ line, LineBus.peer? probe.bus (probe.lines.id line) = none ∧
      error = .unknownLine (probe.lines.id line) := by
  unfold look Lines.look at missing
  split at missing
  case h_1 clock =>
    cases missing
    exact ⟨.clock, clock, rfl⟩
  case h_2 data =>
    cases missing
    exact ⟨.data, data, rfl⟩
  case h_3 => cases missing

theorem exists_edge_of_differs {sight : Sight} (look : probe.look = .ok sight)
    (differs : probe.differs line = true) :
    ∃ edge, probe.detector.edge? probe.lines sight = some edge := by
  rw [edge?_of_differs look]
  cases line with
  | clock => exact ⟨_, if_pos differs⟩
  | data =>
    rw [differs]
    by_cases clock : probe.differs .clock = true
    · exact ⟨_, if_pos clock⟩
    · exact ⟨_, if_neg clock⟩

theorem detector_state_pause (probe : Probe β) : probe.pause.state.detector = probe.detector := by
  have waited (kind : WaitKind) : (probe.wait kind).state.detector = probe.detector := by
    unfold wait
    rw [Outcome.state_mapState]
    rfl
  unfold pause
  refine Outcome.state_andThen
    (motive := fun after : Probe β => after.detector = probe.detector) ?_
    fun _ woken same => woken.refreshed_refresh.still.detector.trans same
  split
  case isFalse => exact waited .change
  case isTrue =>
    exact Outcome.state_andThen (motive := fun after : Probe β => after.detector = probe.detector)
      (waited .cycle) fun _ woken same => woken.detector_releaseWhenDue.trans same

theorem detector_of_failed {error : BusError} (failed : probe.awaitChange = .fail error after) :
    after.detector = probe.detector := by
  fun_induction awaitChange probe with
  | case1 =>
    cases failed
    rfl
  | case2 => cases failed
  | case3 probe sight look unseen error woken paused =>
    have same := probe.detector_state_pause
    rw [paused] at same
    cases failed
    exact same
  | case4 probe sight look unseen _ woken paused ih => exact (ih failed).trans (detector_pause paused)

theorem commits_of_awaited (awaited : probe.awaitChange = .ok change after) :
    ∃ woken, woken.detector = probe.detector ∧ Commits woken change after := by
  fun_induction awaitChange probe with
  | case1 => cases awaited
  | case2 probe sight look edge seen =>
    cases awaited
    exact ⟨probe, rfl, look, seen, rfl⟩
  | case3 => cases awaited
  | case4 probe sight look unseen _ woken paused ih =>
    obtain ⟨late, same, commits⟩ := ih awaited
    exact ⟨late, same.trans (detector_pause paused), commits⟩

theorem Commits.aside (commits : Commits probe change after) :
    after.bus = probe.bus ∧ after.lines = probe.lines ∧ after.stretch = probe.stretch ∧
      after.journal = .committed change :: probe.journal := by
  rw [commits.after]
  exact ⟨rfl, rfl, rfl, rfl⟩

theorem Commits.sample (commits : Commits probe change after) :
    after.detector.sample change.line =
      (probe.detector.sample change.line).commit (!(probe.detector.sample change.line).level)
        change.time := by
  have moved := commits.moved.moved
  rw [← moved, commits.after]
  unfold Change.line Change.time commit
  cases change.edge.line <;> rfl

theorem Commits.sample_other (commits : Commits probe change after) {other : Line}
    (apart : other ≠ change.line) : after.detector.sample other = probe.detector.sample other := by
  rw [commits.after]
  unfold Change.line at apart
  unfold commit
  cases line : change.edge.line <;> rw [line] at apart <;> cases other <;>
    first | rfl | exact absurd rfl apart

theorem Commits.both (commits : Commits probe change after) :
    change.edge = .simultaneous ↔ change.line = .clock ∧ after.differs .data = true := by
  have edge := commits.edge
  rw [edge?_of_differs commits.look] at edge
  -- with the clock committed, the data line stands to its committed level as it did before
  have still (clock : change.line = .clock) : after.differs .data = probe.differs .data := by
    obtain ⟨bus, lines, -⟩ := commits.aside
    have apart : Line.data ≠ change.line := by
      rw [clock]
      decide
    have same := commits.sample_other apart
    unfold differs Probe.level?
    rw [bus, lines, same]
  constructor
  · intro simultaneous
    have clock : change.line = .clock := by simp [Change.line, simultaneous, Edge.line]
    refine ⟨clock, ?_⟩
    rw [still clock]
    rw [simultaneous] at edge
    by_contra calm
    simp only [calm] at edge
    split at edge <;> cases edge
  · rintro ⟨clock, differs⟩
    rw [still clock] at differs
    simp only [differs, if_true] at edge
    split at edge
    · exact (Option.some.inj edge).symm
    · rw [Change.line, ← Option.some.inj edge] at clock
      cases clock

theorem Commits.notices (commits : Commits probe change after) : probe.Notices change after where
  sample := commits.sample
  shows := read_eq_ok_iff.mpr commits.level?
  now := by
    rw [commits.after]
    exact now_of_look commits.look
  others _ := commits.sample_other
  both := by rw [apart_iff, commits.both]

/-- An edge is waited for by one look after the other. The look that shows it commits one line, and only
that; a line that differs from the start is not waited for; and nothing is committed by a wait that
fails. -/
theorem one_edge_committed (probe : Probe β) :
    (∀ change after, probe.awaitChange = .ok change after → probe.Notices change after) ∧
    (∀ line, probe.Apart line →
      (∃ change after, probe.awaitChange = .ok change after ∧ after.bus = probe.bus ∧
        after.lines = probe.lines ∧ after.stretch = probe.stretch ∧
        after.journal = .committed change :: probe.journal) ∨
      ∃ other, LineBus.peer? probe.bus (probe.lines.id other) = none ∧
        probe.awaitChange = .fail (.unknownLine (probe.lines.id other)) probe) ∧
    ∀ error after, probe.awaitChange = .fail error after → after.detector = probe.detector := by
  refine ⟨fun change after awaited => ?_, fun line apart => ?_, fun _ _ => detector_of_failed⟩
  · obtain ⟨woken, same, commits⟩ := commits_of_awaited awaited
    obtain ⟨sample, shows, now, others, both⟩ := commits.notices
    rw [same] at sample others
    exact ⟨sample, shows, now, others, both⟩
  · rw [apart_iff] at apart
    cases look : probe.look with
    | error error =>
      obtain ⟨other, missing, rfl⟩ := missing_of_look look
      exact .inr ⟨other, missing, awaitChange_of_missing look⟩
    | ok sight =>
      obtain ⟨edge, seen⟩ := exists_edge_of_differs look apart
      have commits : Commits probe ⟨edge, sight⟩ (probe.commit sight edge) := ⟨look, seen, rfl⟩
      exact .inl ⟨_, _, awaitChange_of_edge look seen, commits.aside⟩

/-- Both lines fall at once while a stretch is pending. The clock is committed first, and the data line
then without another call. -/
theorem one_edge_committed_of_both :
    let start : Probe Replay :=
      { bus := .ofTrace 0 1 [⟨5, 0, some false⟩, ⟨5, 1, some false⟩]
        lines := { clock := 0, data := 1 }
        stretch := { duration := 20, deadline? := some 100 } }
    ∃ (first second : Change) (middle last : Probe Replay),
      start.awaitChange = .ok first middle ∧ first.edge = .simultaneous ∧ first.time = 5 ∧
      start.Notices first middle ∧ middle.Apart .data ∧
      middle.awaitChange = .ok second last ∧ second.edge = .data ∧ middle.Notices second last ∧
      last.journal = .committed second :: middle.journal := by
  intro start
  let woken := start.pause.state
  let middle := woken.commit ⟨5, some false, some false⟩ .simultaneous
  have look : start.look = .ok ⟨0, none, none⟩ := rfl
  have paused : start.pause = .ok () woken := rfl
  have first : start.awaitChange = .ok ⟨.simultaneous, ⟨5, some false, some false⟩⟩ middle :=
    (awaitChange_of_pause look rfl paused).trans (awaitChange_of_edge rfl rfl)
  have second : middle.awaitChange = .ok ⟨.data, ⟨5, some false, some false⟩⟩
      (middle.commit ⟨5, some false, some false⟩ .data) := awaitChange_of_edge rfl rfl
  obtain ⟨notices, -, -⟩ := start.one_edge_committed
  obtain ⟨notices', atOnce, -⟩ := middle.one_edge_committed
  have apart : middle.Apart .data := ((notices _ _ first).both.mp rfl).2
  refine ⟨_, _, _, _, first, rfl, rfl, notices _ _ first, apart, second, rfl, notices' _ _ second, ?_⟩
  rcases atOnce .data apart with ⟨change, last, awaited, -, -, -, journal⟩ | ⟨other, missing, -⟩
  · cases second.symm.trans awaited
    exact journal
  · cases other <;> cases missing

end TwoWire.Probe
