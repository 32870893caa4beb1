import TwoWire.Proofs.Moments

/-! Runs that end in no overflow. Before `Time.half` every interval can be measured, so on a bus
that fails no call of its own accord only a wait overflows (`measured_turn`). -/

namespace TwoWire

def Outcome.Measured (outcome : Outcome σ α) : Prop :=
  ∀ kind state, outcome ≠ .fail (.overflow kind) state

namespace Outcome

theorem measured_ok (value : α) (state : σ) : (ok value state).Measured := fun _ _ => nofun

theorem measured_unknown (id : LineId) (state : σ) :
    (fail (.unknownLine id) state : Outcome σ α).Measured := fun _ _ => nofun

theorem Measured.andThen {outcome : Outcome σ α} {next : α → σ → Outcome σ β}
    (first : outcome.Measured)
    (second : ∀ value state, outcome = .ok value state → (next value state).Measured) :
    (outcome.andThen next).Measured := by
  cases outcome with
  | ok value state => exact second value state rfl
  | fail error state =>
    intro kind stopped failed
    cases failed
    exact first kind state rfl

theorem Measured.mapState {outcome : Outcome σ α} (measured : outcome.Measured) (f : σ → τ) :
    (outcome.mapState f).Measured := by
  cases outcome with
  | ok value state => exact measured_ok value (f state)
  | fail error state =>
    intro kind stopped failed
    cases failed
    exact measured kind state rfl

end Outcome

open Outcome (measured_ok measured_unknown)

namespace Probe

variable {β : Type} [LineBus β]

theorem measured_drive (plain : LineBus.Plain β) (probe : Probe β) (line : Line) (level : Bool) :
    (probe.drive line level).Measured := by
  refine Outcome.Measured.mapState (fun kind stopped failed => ?_) _
  cases (plain.drive failed).2

theorem measured_refreshLine (plain : LineBus.Plain β) (probe : Probe β) (line : Line) :
    (probe.refreshLine line).Measured := by
  unfold refreshLine
  split
  case h_1 error unseen =>
    unfold LineBus.isDriven at unseen
    split at unseen
    · cases unseen
    · cases unseen
      exact measured_unknown _ _
  case h_2 => exact measured_ok _ _
  case h_3 => exact probe.measured_drive plain line _

theorem measured_refresh (plain : LineBus.Plain β) (probe : Probe β) : probe.refresh.Measured :=
  (probe.measured_refreshLine plain .clock).andThen
    fun _ middle _ => middle.measured_refreshLine plain .data

theorem measured_releaseWhenDue (plain : LineBus.Plain β) (probe : Probe β) :
    probe.releaseWhenDue.Measured := by
  unfold releaseWhenDue
  split
  case isFalse => exact measured_ok _ _
  case isTrue =>
    exact (probe.measured_drive plain .clock true).andThen fun _ _ _ => measured_ok _ _

theorem measured_wait {probe : Probe β} {kind : WaitKind}
    (waits : (LineBus.wait probe.bus kind).Measured) : (probe.wait kind).Measured :=
  waits.mapState _

theorem measured_pause (plain : LineBus.Plain β) {probe : Probe β}
    (waits : (LineBus.wait probe.bus
      (if probe.stretch.isPending then .cycle else .change)).Measured) :
    probe.pause.Measured := by
  refine Outcome.Measured.andThen ?_ fun _ woken _ => woken.measured_refresh plain
  split
  case isFalse free =>
    rw [if_neg free] at waits
    exact measured_wait waits
  case isTrue pending =>
    rw [if_pos pending] at waits
    exact (measured_wait waits).andThen fun _ woken _ => woken.measured_releaseWhenDue plain

theorem measured_look {probe : Probe β} {error : BusError} (missing : probe.look = .error error) :
    ∀ kind, error ≠ .overflow kind := by
  unfold look Lines.look at missing
  split at missing <;> cases missing <;> exact nofun

theorem measured_awaitIdle (plain : LineBus.Plain β)
    (waits : ∀ bus : β, (LineBus.wait bus .change).Measured) (probe : Probe β) :
    probe.awaitIdle.Measured := by
  have woken (probe : Probe β) :
      ((probe.wait .change).andThen fun _ probe => probe.refresh).Measured :=
    (measured_wait (waits probe.bus)).andThen fun _ woken _ => woken.measured_refresh plain
  fun_induction awaitIdle probe with
  | case1 probe error missing =>
    intro kind stopped failed
    cases failed
    exact measured_look missing kind rfl
  | case2 => exact measured_ok _ _
  | case3 probe sight look busy error stopped failed =>
    have measured := woken probe
    rw [failed] at measured
    intro kind state same
    cases same
    exact measured kind stopped rfl
  | case4 probe sight look busy _ later waited ih => exact ih

theorem measured_settle (plain : LineBus.Plain β)
    (waits : ∀ (bus : β) (kind : WaitKind), kind ≠ .cycle → (LineBus.wait bus kind).Measured)
    (probe : Probe β) (time : Nat) : (probe.settle time).Measured := by
  refine (probe.measured_drive plain .clock true).andThen fun _ free _ => ?_
  refine (free.measured_drive plain .data true).andThen fun _ both _ => ?_
  refine (measured_wait (waits both.bus (.instant time) nofun)).andThen fun _ late _ => ?_
  exact late.measured_awaitIdle plain fun bus => waits bus .change nofun

end Probe

namespace Checker

variable {β : Type} [LineBus β] {checker before : Checker β}

theorem measured_report {notes : List Note} (sound : Note.Sound notes) :
    (checker.report notes).Measured := by
  obtain ⟨after, reported⟩ := checker.report_of_sound sound
  rw [reported]
  exact measured_ok _ _

theorem measured_drive (plain : LineBus.Plain β) (line : Line) (level : Bool) :
    (checker.drive line level).Measured :=
  (checker.probe.measured_drive plain line level).mapState _

theorem measured_enter (plain : LineBus.Plain β) {sight : Sight}
    (dated : (checker.view sight).Dated) (phase : Phase) :
    (checker.enter sight phase).Measured := by
  unfold enter
  dsimp only
  refine (measured_report (Protocol.sound_enter dated phase)).andThen fun _ told _ => ?_
  refine Outcome.Measured.andThen ?_ fun _ _ _ => measured_ok _ _
  unfold driveData
  split
  · exact measured_ok _ _
  · exact measured_drive plain .data _

omit [LineBus β] in
theorem dated_of_still {after : Checker β} {sight : Sight} (dated : (before.view sight).Dated)
    (detector : after.probe.detector = before.probe.detector) : (after.view sight).Dated := by
  refine ⟨?_, dated.early⟩
  unfold view
  rw [detector]
  exact dated.past

theorem measured_follow (plain : LineBus.Plain β) {sight : Sight}
    (dated : (checker.view sight).Dated) (phase : Phase) :
    (checker.follow sight phase).Measured := by
  refine (measured_enter plain dated phase).andThen fun forced? middle entered => ?_
  cases forced? with
  | none => exact measured_ok _ _
  | some forced =>
    have still := (enter_ok entered).still.detector
    exact (measured_enter plain (dated_of_still dated still) forced).andThen
      fun _ _ _ => measured_ok _ _

theorem measured_clockEdge (plain : LineBus.Plain β) (change : Change) :
    (checker.clockEdge change).Measured := by
  unfold clockEdge
  split
  case isFalse => exact measured_ok _ _
  case isTrue =>
    unfold clockFell
    dsimp only
    split
    case isFalse => exact measured_ok _ _
    case isTrue => exact (measured_drive plain .clock false).andThen fun _ _ _ => measured_ok _ _

theorem measured_react (plain : LineBus.Plain β) {change : Change}
    (dated : (checker.view change.sight).Dated) : (checker.react change).Measured := by
  refine (measured_report (Protocol.sound_edgeNotes dated _)).andThen fun _ judged reported => ?_
  have first : judged.probe.detector = checker.probe.detector := by rw [report_ok reported]
  refine (measured_clockEdge plain change).andThen fun _ clocked edged => ?_
  have second := (clockEdge_ok edged).still.detector
  refine (measured_report (sound_simultaneousNotes _)).andThen fun _ told reported => ?_
  have third : told.probe.detector = clocked.probe.detector := by rw [report_ok reported]
  exact measured_follow plain (dated_of_still dated ((third.trans second).trans first)) _

/-- A turn does not end a run in an overflow, unless the wait for the next cycle does. -/
theorem measured_turn (plain : LineBus.Plain β)
    (dated : ∀ change committed, before.probe.Commits change committed →
      (before.sees change).Dated)
    (waits : (LineBus.wait before.probe.bus
      (if before.probe.stretch.isPending then .cycle else .change)).Measured)
    (kind : Overflow) (stopped : Checker β) : before.turn ≠ .error (.overflow kind, stopped) := by
  intro ended
  unfold turn at ended
  cases look : before.probe.look with
  | error error =>
    rw [look] at ended
    cases ended
    exact Probe.measured_look look kind rfl
  | ok sight =>
    rw [look] at ended
    dsimp only at ended
    cases seen : before.probe.detector.edge? before.probe.lines sight with
    | some edge =>
      rw [seen] at ended
      dsimp only at ended
      have early := dated ⟨edge, sight⟩ _ ⟨look, seen, rfl⟩
      have measured : (react (β := β) { before with probe := before.probe.commit sight edge }
          ⟨edge, sight⟩).Measured := measured_react plain early
      revert ended measured
      cases react (β := β) _ ⟨edge, sight⟩ with
      | ok => exact nofun
      | fail error last =>
        intro ended measured
        cases ended
        exact measured kind _ rfl
    | none =>
      rw [seen] at ended
      dsimp only at ended
      have measured := Probe.measured_pause plain waits
      revert ended measured
      cases before.probe.pause with
      | ok => exact nofun
      | fail error last =>
        intro ended measured
        cases ended
        exact measured kind _ rfl

theorem measured_startUp (plain : LineBus.Plain β)
    (waits : ∀ (bus : β) (kind : WaitKind), kind ≠ .cycle → (LineBus.wait bus kind).Measured)
    (checker : Checker β) : checker.startUp.Measured := by
  refine Outcome.Measured.andThen ?_ fun _ _ _ => measured_ok _ _
  exact (Probe.measured_settle plain waits _ _).mapState _

end Checker

namespace Replay

variable {bus : Replay}

theorem measured_replayTo (bus : Replay) (time : Nat) (trace : List PeerDrive) :
    (bus.replayTo time trace).Measured := by
  intro kind stopped failed
  obtain ⟨id, same⟩ := fail_replayTo failed
  cases same

theorem measured_wait (bus : Replay) {kind : WaitKind} (other : kind ≠ .cycle) :
    (bus.wait kind).Measured := by
  cases kind with
  | cycle => exact absurd rfl other
  | instant time => exact bus.measured_replayTo time bus.trace
  | change =>
    change bus.waitChange.Measured
    unfold waitChange
    split
    · exact fun _ _ => nofun
    · exact bus.measured_replayTo _ bus.trace

theorem measured_waitCycle (early : bus.now + bus.cycle < Time.limit) :
    bus.waitCycle.Measured := by
  unfold waitCycle
  dsimp only
  rw [if_pos early]
  split <;> exact bus.measured_replayTo _ _

end Replay
end TwoWire
