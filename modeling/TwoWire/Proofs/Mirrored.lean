import TwoWire.Proofs.Reach
import TwoWire.Proofs.Retraced

/-! What is remembered of our own drives, and what the bus makes of them. A lost drive sets the two
apart until the next refresh that gets through (`lines_mirrored`). -/

namespace TwoWire

namespace Probe

variable {β : Type} [LineBus β] {probe first middle last before after : Probe β} {line : Line}

/-- What survives every call survives a run, if it is a matter of the bus and of our side of the
lines. -/
structure Kept (motive : Probe β → Prop) : Prop where
  side {first last : Probe β} : SameSide first last → motive first → motive last
  drive {probe : Probe β} (line : Line) (level : Bool) : motive probe →
    motive (probe.drive line level).state
  wait {probe : Probe β} (kind : WaitKind) : motive probe → motive (probe.wait kind).state

section Kept

variable {motive : Probe β → Prop} (kept : Kept motive)

include kept

theorem Kept.retrace (start : motive first) (asked : Journal) : motive (first.retrace asked) := by
  induction asked with
  | nil => exact start
  | cons entry past ih =>
    cases entry with
    | drove line level => exact kept.drive line level ih
    | waited kind => exact kept.wait kind ih
    | _ => exact ih

theorem Kept.retraced (start : motive first) (retraced : Retraced first last) : motive last := by
  obtain ⟨asked, -, side⟩ := retraced
  exact kept.side side (kept.retrace start asked)

end Kept

structure Attached (probe : Probe β) : Prop where
  distinct : probe.lines.clock ≠ probe.lines.data
  known : ∀ line, LineBus.pin? probe.bus (probe.lines.id line) ≠ none

def AgreesOn (probe : Probe β) (line : Line) : Prop :=
  LineBus.weak? probe.bus (probe.lines.id line) = some (probe.lines.weak line)

theorem kept_attached (holds : LineBus.Holds β) :
    Kept fun probe : Probe β => probe.Attached where
  side side attached := by
    obtain ⟨distinct, known⟩ := attached
    rw [← side.bus, ← side.lines] at known
    exact ⟨side.lines ▸ distinct, known⟩
  drive {probe} line level attached := by
    refine ⟨?_, fun other => ?_⟩
    · rw [lines_drive]
      exact (Lines.id_setWeak probe.lines line level .clock).trans_ne
        (attached.distinct.trans_eq (Lines.id_setWeak probe.lines line level .data).symm)
    · have peers := LineBus.drive_peer probe.bus (probe.lines.id line) level (probe.lines.id other)
      rw [bus_drive, lines_drive, Lines.id_setWeak]
      intro none
      rw [none] at peers
      exact attached.known other (Option.map_eq_none_iff.mp peers.symm)
  wait {probe} kind attached := by
    refine ⟨by rw [lines_wait]; exact attached.distinct, fun line => ?_⟩
    have levels := holds probe.bus kind (probe.lines.id line)
    unfold LineBus.weak? at levels
    rw [bus_wait, lines_wait]
    intro none
    rw [none] at levels
    exact attached.known line (Option.map_eq_none_iff.mp levels.symm)

theorem AgreesOn.side (agrees : first.AgreesOn line) (side : SameSide first last) :
    last.AgreesOn line := by
  unfold AgreesOn
  rw [side.bus, side.lines]
  exact agrees

theorem Attached.agreesOn_drive (attached : probe.Attached) {level : Bool}
    (reaches : LineBus.Reaches probe.bus (probe.lines.id line) level) :
    (probe.drive line level).state.AgreesOn line := by
  obtain ⟨pin, known⟩ := Option.ne_none_iff_exists'.mp (attached.known line)
  have settled := reaches (probe.lines.id line)
  unfold AgreesOn
  rw [bus_drive, lines_drive, Lines.id_setWeak, Lines.weak_setWeak_self, settled]
  unfold LineBus.weak?
  rw [known, Option.map_some, Option.map_some]
  exact congrArg some (if_pos rfl)

theorem AgreesOn.drive {other : Line} (agrees : probe.AgreesOn other) (attached : probe.Attached)
    (apart : other ≠ line) {level : Bool}
    (reaches : LineBus.Reaches probe.bus (probe.lines.id line) level) :
    (probe.drive line level).state.AgreesOn other := by
  have apart' := id_ne_of_distinct attached.distinct apart
  unfold AgreesOn
  rw [bus_drive, lines_drive, Lines.id_setWeak, weak_setWeak_of_ne _ apart, reaches]
  simp only [if_neg apart', Option.map_id']
  exact agrees

theorem AgreesOn.wait (holds : LineBus.Holds β) (agrees : probe.AgreesOn line) (kind : WaitKind) :
    (probe.wait kind).state.AgreesOn line := by
  unfold AgreesOn
  rw [bus_wait, lines_wait, holds]
  exact agrees

/-- A line that both sides agreed on to begin with, or that has been driven since. -/
def Settled (first : Probe β) (asked : Journal) (line : Line) : Prop :=
  first.AgreesOn line ∨ ∃ level, .drove line level ∈ asked

/-- If the drives get to their lines, both sides agree on a line from its first drive on. -/
theorem agreesOn_retrace (holds : LineBus.Holds β) (attached : first.Attached) {asked : Journal}
    (reaches : ∀ line level past, .drove line level :: past <:+ asked →
      LineBus.Reaches (first.retrace past).bus ((first.retrace past).lines.id line) level)
    (settled : first.Settled asked line) : (first.retrace asked).AgreesOn line := by
  induction asked with
  | nil => exact settled.resolve_right nofun
  | cons entry past ih =>
    have before := ih fun line level past early => reaches line level past
      (early.trans (List.suffix_cons ..))
    -- a line that this entry does not drive was settled before it
    have earlier (other : ∀ level, entry ≠ .drove line level) : first.Settled past line := by
      refine settled.imp_right fun ⟨level, mem⟩ => ⟨level, ?_⟩
      exact (List.mem_cons.mp mem).resolve_left fun same => other level same.symm
    have there := (kept_attached holds).retrace attached past
    cases entry with
    | drove driven level =>
      have reached := reaches driven level past List.suffix_rfl
      by_cases own : line = driven
      case pos =>
        subst own
        exact there.agreesOn_drive reached
      case neg =>
        refine (before (earlier fun _ same => ?_)).drive there own reached
        cases same
        exact own rfl
    | waited kind => exact (before (earlier nofun)).wait holds kind
    | _ => exact before (earlier nofun)

theorem kept_drives (first : Probe (Faulty β)) : Kept fun probe : Probe (Faulty β) =>
    probe.bus.faults = first.bus.faults ∧ first.bus.drives ≤ probe.bus.drives where
  side side known := by rwa [side.bus]
  drive {probe} line level known := by
    obtain ⟨drives, faults⟩ := probe.bus.drives_drive (probe.lines.id line) level
    rw [bus_drive, drives, faults]
    exact ⟨known.1, Nat.le_succ_of_le known.2⟩
  wait {probe} kind known := by
    obtain ⟨drives, faults⟩ := probe.bus.drives_wait kind
    rw [bus_wait, drives, faults]
    exact known

theorem drives_retrace (first : Probe (Faulty β)) (asked : Journal) :
    (first.retrace asked).bus.faults = first.bus.faults ∧
      first.bus.drives ≤ (first.retrace asked).bus.drives :=
  (kept_drives first).retrace ⟨rfl, Nat.le_refl _⟩ asked

theorem reaches_of_spared_retrace {first : Probe (Faulty β)} {asked : Journal}
    (reaches : ∀ (bus : β) id level, LineBus.Reaches bus id level)
    (spared : (first.retrace asked).bus.Spared first.bus.drives) (line : Line) (level : Bool)
    (past : Journal) (early : .drove line level :: past <:+ asked) :
    LineBus.Reaches (first.retrace past).bus ((first.retrace past).lines.id line) level := by
  obtain ⟨late, rfl⟩ := early
  rw [retrace_append] at spared
  obtain ⟨faults, drives⟩ := drives_retrace (first.retrace (.drove line level :: past)) late
  have here := spared.earlier faults drives
  have driven : (first.retrace (.drove line level :: past)).bus =
      (LineBus.drive (first.retrace past).bus ((first.retrace past).lines.id line) level).state :=
    bus_drive ..
  rw [driven] at here
  exact Faulty.reaches_of_spared reaches (here.later (drives_retrace first past).2)

/-- A line as the bus has it, and what is read of it on either side. -/
structure Reads (probe : Probe β) (line : Line) (pin : Pin) : Prop where
  known : LineBus.pin? probe.bus (probe.lines.id line) = some pin
  level : LineBus.read probe.bus (probe.lines.id line) = .ok pin.level
  driven : LineBus.isDriven probe.bus (probe.lines.id line) = .ok pin.isDriven
  reading : probe.lines.read probe.bus line =
    .ok ⟨pin.level, if pin.isDriven then .peer else .ours⟩

structure Sees (probe : Probe β) (line : Line) (pin : Pin) : Prop extends probe.Reads line pin where
  weak : probe.lines.weak line = pin.weak

theorem reads_of_known {pin : Pin} (known : LineBus.pin? probe.bus (probe.lines.id line) = some pin)
    (own : pin.peer = none → probe.lines.weak line = pin.weak) : probe.Reads line pin where
  known := known
  level := by
    unfold LineBus.read
    rw [known]
  driven := by
    unfold LineBus.isDriven
    rw [known]
  reading := by
    unfold Lines.read LineBus.peer?
    rw [known, Option.map_some]
    dsimp only
    unfold Lines.reading Pin.level Pin.isDriven
    cases peer : pin.peer with
    | none =>
      rw [own peer]
      rfl
    | some level => rfl

theorem AgreesOn.sees (agrees : probe.AgreesOn line) : ∃ pin, probe.Sees line pin := by
  obtain ⟨pin, known, weak⟩ := Option.map_eq_some_iff.mp agrees
  exact ⟨pin, reads_of_known known fun _ => weak.symm, weak.symm⟩

/-- The bus has the line, and if the peer has let go of it our drive is known. -/
def InStep (probe : Probe β) (line : Line) : Prop :=
  ∃ pin, LineBus.pin? probe.bus (probe.lines.id line) = some pin ∧
    (pin.peer = none → probe.lines.weak line = pin.weak)

theorem exists_pin {bus : β} {id : LineId} {weak : Bool} {peer : Option Bool}
    (ours : LineBus.weak? bus id = some weak) (theirs : LineBus.peer? bus id = some peer) :
    ∃ pin, LineBus.pin? bus id = some pin ∧ pin.weak = weak ∧ pin.peer = peer := by
  obtain ⟨pin, known, weak⟩ := Option.map_eq_some_iff.mp ours
  unfold LineBus.peer? at theirs
  rw [known] at theirs
  exact ⟨pin, known, weak, Option.some.inj theirs⟩

theorem pin?_of_isDriven {bus : β} {id : LineId} {driven : Bool}
    (h : LineBus.isDriven bus id = .ok driven) :
    ∃ pin, LineBus.pin? bus id = some pin ∧ pin.isDriven = driven := by
  unfold LineBus.isDriven at h
  cases known : LineBus.pin? bus id with
  | none =>
    rw [known] at h
    cases h
  | some pin =>
    rw [known] at h
    exact ⟨pin, rfl, Except.ok.inj h⟩

section Refresh

variable {before after : Probe (Faulty β)}
  (reaches : ∀ (bus : β) id level, LineBus.Reaches bus id level)

include reaches

theorem inStep_refreshLine (refreshed : before.refreshLine line = .ok () after)
    (spared : after.bus.Spared before.bus.drives) : after.InStep line := by
  unfold refreshLine at refreshed
  cases driven : LineBus.isDriven before.bus (before.lines.id line) with
  | error error =>
    rw [driven] at refreshed
    cases refreshed
  | ok driving =>
    obtain ⟨pin, known, same⟩ := pin?_of_isDriven driven
    rw [driven] at refreshed
    cases driving with
    | true =>
      cases refreshed
      refine ⟨pin, known, fun released => ?_⟩
      unfold Pin.isDriven at same
      rw [released] at same
      cases same
    | false =>
      obtain ⟨reached, lines⟩ := drive_ok refreshed
      rw [Lines.setWeak_weak] at lines
      have bus : after.bus = (LineBus.drive before.bus (before.lines.id line)
          (before.lines.weak line)).state := by
        rw [reached]
        rfl
      have ours := Faulty.reaches_of_spared reaches (bus ▸ spared) (before.lines.id line)
      have theirs := LineBus.drive_peer before.bus (before.lines.id line) (before.lines.weak line)
        (before.lines.id line)
      unfold LineBus.weak? at ours
      rw [known, Option.map_some, ← bus] at ours theirs
      obtain ⟨pin', known', weak, -⟩ := exists_pin ours theirs
      refine ⟨pin', by rwa [lines], fun _ => ?_⟩
      rw [lines, weak]
      exact (if_pos rfl).symm

theorem InStep.refreshLine {other : Line} (inStep : before.InStep other)
    (apart : before.lines.id other ≠ before.lines.id line)
    (refreshed : before.refreshLine line = .ok () after) : after.InStep other := by
  unfold Probe.refreshLine at refreshed
  split at refreshed
  case h_1 => cases refreshed
  case h_2 =>
    cases refreshed
    exact inStep
  case h_3 =>
    obtain ⟨pin, known, own⟩ := inStep
    obtain ⟨reached, lines⟩ := drive_ok refreshed
    rw [Lines.setWeak_weak] at lines
    have ours := before.bus.weak?_drive_of_ne reaches apart (before.lines.weak line)
    have theirs := LineBus.drive_peer before.bus (before.lines.id line) (before.lines.weak line)
      (before.lines.id other)
    unfold LineBus.weak? at ours
    rw [known, Option.map_some, reached] at ours theirs
    obtain ⟨pin', known', weak, peer⟩ := exists_pin ours theirs
    refine ⟨pin', by rwa [lines], fun released => ?_⟩
    rw [lines, weak]
    exact own (peer ▸ released)

omit reaches in
theorem drives_refreshLine (refreshed : before.refreshLine line = .ok () after) :
    after.bus.faults = before.bus.faults ∧ before.bus.drives ≤ after.bus.drives := by
  have retraced := before.retraced_refreshLine line
  rw [refreshed] at retraced
  exact (kept_drives before).retraced ⟨rfl, Nat.le_refl _⟩ retraced

/-- A refresh that gets through brings both lines in step, whatever was lost before. -/
theorem inStep_refresh (distinct : before.lines.clock ≠ before.lines.data)
    (refreshed : before.refresh = .ok () after) (spared : after.bus.Spared before.bus.drives)
    (line : Line) : after.InStep line := by
  obtain ⟨_, middle, clock, data⟩ := Outcome.of_andThen refreshed
  obtain ⟨-, early⟩ := drives_refreshLine clock
  obtain ⟨faults, late⟩ := drives_refreshLine data
  have lines := (before.refreshed_refreshLine .clock).lines
  rw [clock, Outcome.state_ok] at lines
  cases line with
  | clock =>
    have inStep := inStep_refreshLine reaches clock (spared.earlier faults late)
    exact inStep.refreshLine reaches (by rw [lines]; exact distinct) data
  | data => exact inStep_refreshLine reaches data (spared.later early)

end Refresh

end Probe

namespace Checker

variable {β : Type} [LineBus β] {checker : Checker β}

open Probe (Retraced Kept)

/-- The wake-ups of a run, from the end of the wait to the end of the refresh: those before the bus is
idle, and those between two turns. -/
inductive WakesUp (checker : Checker β) : Probe β → Probe β → Prop
  | idle {late woken after : Probe β} (starts : checker.Starts late)
      (waited : late.wait .change = .ok () woken) (refreshed : woken.refresh = .ok () after) :
      WakesUp checker woken after
  | edge {ready before : Checker β} {woken after : Probe β} {n : Nat}
      (idle : checker.startUp = .ok () ready) (run : ready.turns n = .ok before)
      (waited : before.probe.wakeUp = .ok () woken) (refreshed : woken.refresh = .ok () after) :
      WakesUp checker woken after

theorem wakesUp_of_turn {ready before next : Checker β} {n : Nat}
    (idle : checker.startUp = .ok () ready) (run : ready.turns n = .ok before)
    (turned : before.turn = .ok next) :
    (∃ change committed, before.probe.Commits change committed) ∨
      ∃ woken, checker.WakesUp woken next.probe := by
  rcases turn_cases turned with ⟨change, committed, commits, -⟩ | ⟨_, paused, rfl⟩
  · exact .inl ⟨change, committed, commits⟩
  · rw [Probe.pause_eq_wakeUp] at paused
    obtain ⟨_, woken, waited, refreshed⟩ := Outcome.of_andThen paused
    exact .inr ⟨woken, .edge idle run waited refreshed⟩

theorem WakesUp.refreshed {woken after : Probe β} (wakes : checker.WakesUp woken after) :
    Retraced checker.probe woken ∧ woken.refresh = .ok () after := by
  cases wakes with
  | @idle late woken after starts waited refreshed =>
    have noted : Retraced checker.probe (checker.note (.started checker.config)).probe :=
      checker.probe.retraced_note rfl
    have wait := late.retraced_wait .change
    rw [waited] at wait
    exact ⟨(noted.trans (Probe.retraced_of_starts starts)).trans wait, refreshed⟩
  | @edge ready before woken after n idle run waited refreshed =>
    have started := checker.retraced_startUp
    rw [idle] at started
    have wake := before.probe.retraced_wakeUp
    rw [waited] at wake
    exact ⟨(started.trans (retraced_turns run)).trans wake, refreshed⟩

/-- At every point of a run, with so many of its calls made, both sides agree on each line that has
been driven by then, or that they agreed on before the run. -/
def Mirrored (checker : Checker β) : Prop :=
  ∃ asked, checker.probe.Retraces asked checker.run.2.probe ∧
    ∀ later past, asked = later ++ past → ∀ line, checker.probe.Settled past line →
      ∃ pin, (checker.probe.retrace past).Sees line pin

/-- Both sides agree as long as no drive of the run is lost, and once some have been lost, on the lines
that the peer has let go after every wake-up whose refresh is not. -/
structure Resyncs (checker : Checker (Faulty β)) : Prop where
  spared : ∃ asked, checker.probe.Retraces asked checker.run.2.probe ∧
    ∀ later past, asked = later ++ past →
      (checker.probe.retrace past).bus.Spared checker.probe.bus.drives →
      ∀ line, checker.probe.Settled past line → ∃ pin, (checker.probe.retrace past).Sees line pin
  woken : ∀ woken after, checker.WakesUp woken after → after.bus.Spared woken.bus.drives →
    ∀ line, ∃ pin, after.Reads line pin ∧ (pin.peer = none → after.Sees line pin)
  turns : ∀ ready before next n, checker.startUp = .ok () ready → ready.turns n = .ok before →
    before.turn = .ok next → (∃ change committed, before.probe.Commits change committed) ∨
      ∃ woken, checker.WakesUp woken next.probe

section Below

variable (reaches : ∀ (bus : β) id level, LineBus.Reaches bus id level) (holds : LineBus.Holds β)

include reaches holds

theorem mirrored_of_attached (attached : checker.probe.Attached) : checker.Mirrored := by
  obtain ⟨asked, retraces⟩ := checker.retraced_run
  refine ⟨asked, retraces, fun later past _ line settled => ?_⟩
  have agrees := Probe.agreesOn_retrace holds attached (fun _ _ _ _ => reaches _ _ _) settled
  exact agrees.sees

theorem resyncs_of_attached {checker : Checker (Faulty β)} (attached : checker.probe.Attached) :
    checker.Resyncs := by
  refine ⟨?_, ?_, fun _ _ _ _ => wakesUp_of_turn⟩
  · obtain ⟨asked, retraces⟩ := checker.retraced_run
    refine ⟨asked, retraces, fun later past _ spared line settled => ?_⟩
    have agrees := Probe.agreesOn_retrace (Faulty.holds holds) attached
      (Probe.reaches_of_spared_retrace reaches spared) settled
    exact agrees.sees
  · intro woken after wakes spared line
    obtain ⟨early, refreshed⟩ := wakes.refreshed
    have there := (Probe.kept_attached (Faulty.holds holds)).retraced attached early
    obtain ⟨pin, known, own⟩ := Probe.inStep_refresh reaches there.distinct refreshed spared line
    have reads := Probe.reads_of_known known own
    exact ⟨pin, reads, fun released => ⟨reads, own released⟩⟩

theorem agreesOn_afterRuns (attached : checker.probe.Attached) {line : Line}
    (agrees : checker.probe.AgreesOn line) (n : Nat) :
    (checker.afterRuns n).probe.AgreesOn line := by
  obtain ⟨asked, -, side⟩ := checker.retraced_afterRuns n
  exact (Probe.agreesOn_retrace holds attached (fun _ _ _ _ => reaches _ _ _) (.inl agrees)).side
    side

end Below

omit [LineBus β] in
theorem probe_of_ofConfig {config : Config} {bus : β} (made : ofConfig config bus = .ok checker) :
    checker.probe.bus = bus ∧
      checker.probe.lines = { clock := config.clock, data := config.data } := by
  unfold ofConfig at made
  cases accepted : config.check with
  | error wrong =>
    rw [accepted] at made
    cases made
  | ok responses =>
    rw [accepted] at made
    cases made
    exact ⟨rfl, rfl⟩

theorem attached_of_ofConfig {config : Config} {bus : β} (made : ofConfig config bus = .ok checker)
    (clock : LineBus.pin? bus config.clock ≠ none) (data : LineBus.pin? bus config.data ≠ none) :
    checker.probe.Attached := by
  obtain ⟨same, lines⟩ := probe_of_ofConfig made
  refine ⟨(configured_of_ofConfig made).distinct, fun line => ?_⟩
  rw [same, lines]
  cases line with
  | clock => exact clock
  | data => exact data

/-- Our side of the lines and buses of a kind, in every run, the first and all later ones, of a checker
whose lines are those of the bus, in whatever state the bus is when the checker is made. -/
structure MirroredOver (β : Type) [LineBus β] : Prop where
  plain {config : Config} {bus : β} {checker : Checker β}
    (made : ofConfig config bus = .ok checker) (clock : LineBus.pin? bus config.clock ≠ none)
    (data : LineBus.pin? bus config.data ≠ none) (n : Nat) :
    (checker.afterRuns n).Mirrored ∧
      ∀ line, checker.probe.AgreesOn line → (checker.afterRuns n).probe.AgreesOn line
  layered {config : Config} {bus : Faulty β} {checker : Checker (Faulty β)}
    (made : ofConfig config bus = .ok checker) (clock : LineBus.pin? bus config.clock ≠ none)
    (data : LineBus.pin? bus config.data ≠ none) (n : Nat) : (checker.afterRuns n).Resyncs
  /-- Waits do not change what we drive, and looks do not change the bus at all. -/
  waits : LineBus.Holds β ∧ LineBus.Holds (Faulty β)

theorem mirroredOver (reaches : ∀ (bus : β) id level, LineBus.Reaches bus id level)
    (holds : LineBus.Holds β) : MirroredOver β where
  plain made clock data n := by
    have attached := attached_of_ofConfig made clock data
    have there := (Probe.kept_attached holds).retraced attached (retraced_afterRuns _ n)
    exact ⟨mirrored_of_attached reaches holds there, fun line agrees =>
      agreesOn_afterRuns reaches holds attached agrees n⟩
  layered made clock data n := by
    have attached := attached_of_ofConfig made clock data
    have there := (Probe.kept_attached (Faulty.holds holds)).retraced attached
      (retraced_afterRuns _ n)
    exact resyncs_of_attached reaches holds there
  waits := ⟨holds, Faulty.holds holds⟩

theorem MirroredOver.fresh (kind : MirroredOver β) {config : Config} {bus : β}
    {checker : Checker β} (made : ofConfig config bus = .ok checker)
    (free : LineBus.weak? bus config.clock = some true ∧ LineBus.weak? bus config.data = some true)
    (n : Nat) :
    (checker.afterRuns n).Mirrored ∧ ∀ line, (checker.afterRuns n).probe.AgreesOn line := by
  have known {id : LineId} (weak : LineBus.weak? bus id = some true) :
      LineBus.pin? bus id ≠ none := by
    intro none
    unfold LineBus.weak? at weak
    rw [none] at weak
    cases weak
  obtain ⟨mirrored, agrees⟩ := kind.plain made (known free.1) (known free.2) n
  refine ⟨mirrored, fun line => agrees line ?_⟩
  obtain ⟨same, lines⟩ := probe_of_ofConfig made
  unfold Probe.AgreesOn
  rw [same, lines]
  cases line with
  | clock => exact free.1
  | data => exact free.2

/-- On both kinds of bus both sides agree, in the runs of a new checker on a new bus at every point and
in all others on a line as soon as it has been driven. A drive that is lost sets them apart until the
next refresh that is not. -/
theorem lines_mirrored :
    (MirroredOver Replay ∧
      ∀ (config : Config) (trace : List PeerDrive) (cycle n : Nat) (checker : Checker Replay),
        ofConfig config ((Replay.ofTrace config.clock config.data trace).withCycle cycle) =
          .ok checker →
        (checker.afterRuns n).Mirrored ∧ ∀ line, (checker.afterRuns n).probe.AgreesOn line) ∧
    MirroredOver Simulation ∧
      ∀ (config : Config) (program : List Step) (fresh : Simulation) (cycle n : Nat)
        (checker : Checker Simulation),
        Simulation.ofProgram config.clock config.data program = .ok fresh →
        ofConfig config (fresh.withCycle cycle) = .ok checker →
        (checker.afterRuns n).Mirrored ∧ ∀ line, (checker.afterRuns n).probe.AgreesOn line := by
  have replays := mirroredOver Replay.reaches Replay.holds
  have simulates := mirroredOver Simulation.reaches Simulation.holds
  refine ⟨⟨replays, ?_⟩, simulates, ?_⟩
  · intro config trace cycle n checker made
    exact replays.fresh made (Replay.weak?_fresh ..) n
  · intro config program fresh cycle n checker created made
    exact simulates.fresh made (Simulation.weak?_fresh created cycle) n

/-- The drive that is to hold the clock low is lost, so the clock is high once the peer lets go of it;
the refresh of that wake-up pulls it low. -/
theorem lines_mirrored_of_lost_hold :
    let config : Config := { clock := 0, data := 1, clockStretch := 150 }
    let bus := (Replay.ofTrace 0 1 [⟨200, 0, some false⟩, ⟨300, 0, none⟩]).withCycle 100
    let program := [.delay 200, .drive .clock (some false), .delay 100, .drive .clock none]
    let faults := [⟨.drive, 4, none⟩]
    (∃ checker, ofConfig config bus = .ok checker ∧ checker.Mirrored ∧
      ∀ line, checker.probe.AgreesOn line) ∧
    (∃ checker, ofConfig config ({ bus, faults } : Faulty Replay) = .ok checker ∧
      checker.Resyncs ∧
      ([15, 9].map fun newer =>
        let probe := checker.probe.retrace (checker.run.2.probe.journal.drop newer)
        (LineBus.weak? probe.bus 0, probe.lines.weakClock)) =
          [(some true, false), (some false, false)]) ∧
    ∃ fresh, Simulation.ofProgram 0 1 program = .ok fresh ∧
      (∃ checker, ofConfig config (fresh.withCycle 100) = .ok checker ∧ checker.Mirrored) ∧
      ∃ checker, ofConfig config ({ bus := fresh.withCycle 100, faults } : Faulty Simulation) =
        .ok checker ∧ checker.Resyncs := by
  intro config bus program faults
  obtain ⟨⟨replays, replayed⟩, simulates, simulated⟩ := lines_mirrored
  let fresh : Simulation := { clock := { id := 0 }, data := { id := 1 }, program }
  refine ⟨⟨_, rfl, replayed config _ 100 0 _ rfl⟩, ?_, ⟨fresh, rfl, ?_, ?_⟩⟩
  · have seen : ((ofConfig config ({ bus, faults } : Faulty Replay)).toOption.bind fun checker =>
        (checker.end? 20).map fun stop => [15, 9].map fun newer =>
          let probe := checker.probe.retrace (stop.2.probe.journal.drop newer)
          (LineBus.weak? probe.bus 0, probe.lines.weakClock)) =
        some [(some true, false), (some false, false)] := by decide +kernel
    obtain ⟨checker, made, seen⟩ := Option.bind_eq_some_iff.mp seen
    obtain ⟨stop, ended, shows⟩ := Option.map_eq_some_iff.mp seen
    have made := eq_ok_of_toOption made
    have clock : LineBus.pin? ({ bus, faults } : Faulty Replay) config.clock ≠ none := by decide
    have data : LineBus.pin? ({ bus, faults } : Faulty Replay) config.data ≠ none := by decide
    exact ⟨checker, made, replays.layered made clock data 0, by rw [run_of_end? ended, shows]⟩
  · exact ⟨_, rfl, (simulated config program fresh 100 0 _ rfl rfl).1⟩
  · have made : ofConfig config ({ bus := fresh.withCycle 100, faults } : Faulty Simulation) =
        .ok _ := rfl
    exact ⟨_, made, simulates.layered made (by decide) (by decide) 0⟩

end Checker
end TwoWire
