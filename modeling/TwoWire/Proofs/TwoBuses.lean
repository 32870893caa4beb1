import TwoWire.Proofs.Forgets
import TwoWire.Proofs.Stutters
import TwoWire.Proofs.Twins

/-! The two kinds of bus agree. But for wake-ups for nothing, runs on them do the same at the same
times, and report the same (`same_run_on_both_buses`). -/

namespace TwoWire

variable {lines : Lines} {replay : Replay} {simulation : Simulation} {changes : List PeerChange}

namespace InStep

theorem of_unlogged (inStep : InStep lines replay simulation) {replay' : Replay}
    (same : replay'.unlogged = replay.unlogged) : InStep lines replay' simulation := by
  obtain ⟨changes, ⟨now, cycle, clock, data, ids, distinct, running⟩, trace, stands, instant⟩ :=
    inStep
  refine ⟨changes, ⟨?_, ?_, ?_, ?_, ids, distinct, running⟩, ?_, stands, instant⟩
  · exact now.trans (congrArg Replay.now same).symm
  · exact cycle.trans (congrArg Replay.cycle same).symm
  · exact clock.trans (congrArg Replay.clock same).symm
  · exact data.trans (congrArg Replay.data same).symm
  · exact (congrArg Replay.trace same).trans trace

theorem now (inStep : InStep lines replay simulation) : simulation.now = replay.now := by
  obtain ⟨changes, settled⟩ := inStep
  exact settled.now

theorem pin? (inStep : InStep lines replay simulation) (id : LineId) :
    simulation.pin? id = replay.pin? id := by
  obtain ⟨changes, settled⟩ := inStep
  exact settled.toTwin.pin? id

theorem drive (inStep : InStep lines replay simulation) (id : LineId) (level : Bool) :
    Outcome.Abreast (InStep lines) (fun _ _ _ => False) (LineBus.drive replay id level)
      (LineBus.drive simulation id level) := by
  obtain ⟨changes, settled⟩ := inStep
  exact settled.drive id level

theorem wait_cycle (inStep : InStep lines replay simulation) :
    Outcome.Abreast (InStep lines) (fun _ _ _ => False) (LineBus.wait replay .cycle)
      (LineBus.wait simulation .cycle) := by
  obtain ⟨changes, settled⟩ := inStep
  exact settled.wait_cycle

end InStep

/-- The buses are alike in some way, and so far the same is told of both runs. -/
structure Telling (alike : Replay → Simulation → Prop) (replay : Replay) (journal : Journal)
    (simulation : Simulation) (journal' : Journal) : Prop where
  alike : alike replay simulation
  told : journal'.told = journal.told

theorem Telling.called {alike alike' : Replay → Simulation → Prop} {first : Probe Replay}
    {second : Probe Simulation} {late : Simulation}
    (beside : first.Beside (Telling alike) { second with bus := late }) {entry : Entry}
    (untold : entry.isTold = false) (alikes : alike' replay simulation) :
    (first.called entry replay).Beside (Telling alike') (second.called entry simulation) := by
  refine ⟨⟨alikes, ?_⟩, beside.lines, beside.detector, beside.stretch⟩
  rw [Probe.told_called _ untold, Probe.told_called _ untold]
  exact beside.bond.told

abbrev Paired (lines : Lines) : Bond Replay Simulation := Telling (InStep lines)

namespace Paired

open Probe (Beside)

variable {first : Probe Replay} {second : Probe Simulation}

theorem drive (beside : first.Beside (Paired lines) second) (line : Line) (level : Bool) :
    Probe.Abreast (Paired lines) (fun _ _ _ => False) (first.drive line level)
      (second.drive line level) := by
  have set : Beside (Paired lines) { first with lines := first.lines.setWeak line level }
      { second with lines := first.lines.setWeak line level } :=
    ⟨beside.bond, rfl, beside.detector, beside.stretch⟩
  unfold Probe.drive
  rw [beside.lines]
  exact Outcome.Abreast.mapState (beside.bond.alike.drive _ level)
    (fun _ _ inStep => Telling.called set rfl inStep) fun _ _ _ => id

theorem linked : Linked (Paired lines) (fun _ _ _ => False) where
  now bond := bond.alike.now
  peer bond id := congrArg (Option.map Pin.peer) (bond.alike.pin? id)
  note told bond :=
    ⟨bond.alike, by rw [Journal.told_cons_of_told told, Journal.told_cons_of_told told, bond.told]⟩
  drive line level beside := drive beside line level
  goes _ broken := broken

/-- The first bus is driven as before, which the second one takes no notice of. -/
theorem again (agrees : second.Agrees) (beside : first.Beside (Paired lines) second) (line : Line) :
    ∃ after, first.drive line (first.lines.weak line) = .ok () after ∧
      after.Beside (Paired lines) second := by
  have weak : LineBus.weak? first.bus (first.lines.id line) = some (first.lines.weak line) := by
    have weak := agrees.weak line
    unfold LineBus.weak? at weak ⊢
    rw [beside.lines] at weak
    change (second.bus.pin? _).map _ = _ at weak
    rw [beside.bond.alike.pin?] at weak
    exact weak
  obtain ⟨after, driven, same⟩ := Replay.forgets.again weak
  unfold Probe.drive
  dsimp only
  rw [Lines.setWeak_weak, driven]
  refine ⟨_, rfl, ⟨beside.bond.alike.of_unlogged same, ?_⟩, beside.lines, beside.detector,
    beside.stretch⟩
  exact beside.bond.told.trans (first.told_called rfl after).symm

end Paired

/-- The first run may have been woken for nothing: the bus of the second one gets to `late` before it
wakes that run. -/
structure Lags (lines : Lines) (first : Probe Replay) (second : Probe Simulation)
    (late : Simulation) : Prop where
  beside : first.Beside (Paired lines) { second with bus := late }
  agrees : second.Agrees
  held : second.bus.Held late
  levels : late.levels = second.bus.levels
  awaited : late = second.bus ∨ second.stretch.isPending = false ∧
    LineBus.wait second.bus .change = LineBus.wait late .change

namespace Lags

variable {first : Probe Replay} {second : Probe Simulation} {late : Simulation}

theorem agrees_of_held (lags : Lags lines first second late) {later : Simulation}
    (held : second.bus.Held later) : ({ second with bus := later } : Probe Simulation).Agrees := by
  obtain ⟨kin, clock, data⟩ := held
  refine ⟨lags.agrees.distinct, fun line => ?_⟩
  rw [← lags.agrees.weak line, Simulation.weak?_eq, Simulation.weak?_eq, kin.clock, kin.data, clock,
    data]

theorem alike (lags : Lags lines first second late) : first.Alike second := by
  have alike := Probe.alike_of_linked Paired.linked lags.beside
  refine ⟨alike.detector, fun line => Eq.trans ?_ (alike.level? line)⟩
  rw [lags.agrees.level?, (lags.agrees_of_held lags.held).level?]
  change (second.bus.pin? _).map _ = (late.pin? _).map _
  obtain ⟨clock, data⟩ := Prod.mk.inj lags.levels
  unfold Simulation.pin? Simulation.line?
  rw [lags.held.kin.clock, lags.held.kin.data]
  split
  · exact congrArg some clock.symm
  · split
    · exact congrArg some data.symm
    · rfl

theorem wait_same (lags : Lags lines first second late) :
    LineBus.wait second.bus .change = LineBus.wait late .change := by
  rcases lags.awaited with rfl | ⟨-, same⟩
  · rfl
  · exact same

theorem pause (lags : Lags lines first second late) :
    (∃ woken, first.pause = .ok () woken ∧ ∃ later, Lags lines woken second later) ∨
      Probe.Abreast (Paired lines) (fun _ _ _ => False) first.pause second.pause := by
  have stretch : second.stretch = first.stretch := lags.beside.stretch
  have kind : (if first.stretch.isPending then WaitKind.cycle else .change) =
      if second.stretch.isPending then .cycle else .change := by rw [stretch]
  cases pending : second.stretch.isPending with
  | true =>
    have same : late = second.bus := lags.awaited.resolve_right fun free => by
      rw [pending] at free
      cases free.1
    refine .inr (Paired.linked.pause stretch ?_)
    rw [kind, pending]
    have inStep := lags.beside.bond.alike.wait_cycle
    rw [same] at inStep
    exact Outcome.Abreast.mapState inStep 
      (fun _ _ inStep => Telling.called lags.beside rfl inStep) fun _ _ _ => id
  | false =>
    rw [pending] at kind
    obtain ⟨changes, settled⟩ := lags.beside.bond.alike
    rcases Settled.wait_change settled with
      ⟨replay, later, waited, inStep, held, levels, same⟩ | abreast
    · have beside : (first.called (.waited .change) replay).Beside (Paired lines)
          { second with bus := later } := by
        refine ⟨⟨inStep, ?_⟩, lags.beside.lines, lags.beside.detector, stretch⟩
        rw [first.told_called rfl]
        exact lags.beside.bond.told
      have waited' : first.wait (if first.stretch.isPending then .cycle else .change) =
          .ok () (first.called (.waited .change) replay) := by
        rw [kind]
        unfold Probe.wait
        rw [if_neg Bool.false_ne_true, waited]
        rfl
      have agrees : ({ second with bus := later } : Probe Simulation).Agrees :=
        lags.agrees_of_held (lags.held.trans held)
      have undue : second.stretch.isDue later.now = false :=
        ClockStretch.isDue_of_not_pending pending _
      obtain ⟨after, paused, beside'⟩ := Paired.linked.pause_for_nothing
        (fun beside => Paired.again agrees beside) agrees undue waited' beside
      exact .inl ⟨after, paused, later, beside', lags.agrees, lags.held.trans held,
        levels.trans lags.levels, .inr ⟨pending, lags.wait_same.trans same⟩⟩
    · refine .inr (Paired.linked.pause stretch ?_)
      rw [kind]
      rw [← lags.wait_same] at abreast
      exact Outcome.Abreast.mapState abreast 
        (fun _ _ inStep => Telling.called lags.beside rfl inStep) fun _ _ _ => id

end Lags

theorem stutters_paired : Stutters (Paired lines) (fun _ _ _ => False) Probe.Agrees
    fun first second => ∃ late, Lags lines first second late where
  toLinked := Paired.linked
  kept agrees _ paused := Probe.agrees_of_acts (Probe.acts_pause paused)
    (Simulation.keepsDrives _) agrees
  rests waits := by
    obtain ⟨late, lags⟩ := waits
    exact lags.agrees
  begins {first second} beside agrees :=
    ⟨second.bus, beside, agrees, ⟨.refl _, rfl, rfl⟩, rfl, .inl rfl⟩
  alike waits := by
    obtain ⟨late, lags⟩ := waits
    exact lags.alike
  wakes waits := by
    obtain ⟨late, lags⟩ := waits
    exact lags.pause

abbrev Poised (lines : Lines) (changes : List PeerChange) : Bond Replay Simulation :=
  Telling fun replay simulation => simulation.now = 0 ∧ Primed lines replay simulation changes

namespace Poised

variable {first : Probe Replay} {second : Probe Simulation}

theorem drive (beside : first.Beside (Poised lines changes) second)
    (wired : ∀ line, first.lines.id line = lines.id line) (line : Line) (level : Bool) :
    ∃ first' second', first.drive line level = .ok () first' ∧
      second.drive line level = .ok () second' ∧ first'.Beside (Poised lines changes) second' ∧
        ∀ line, first'.lines.id line = lines.id line := by
  obtain ⟨fresh, primed⟩ := beside.bond.alike
  obtain ⟨replay, driven, driven', primed'⟩ := primed.drive line level
  have set : Probe.Beside (Poised lines changes)
      { first with lines := first.lines.setWeak line level }
      { second with lines := first.lines.setWeak line level } :=
    ⟨beside.bond, rfl, beside.detector, beside.stretch⟩
  have called : (({ first with lines := first.lines.setWeak line level } : Probe Replay).called
      (.drove line level) replay).Beside (Poised lines changes)
      (({ second with lines := first.lines.setWeak line level } : Probe Simulation).called
        (.drove line level) (second.bus.hold line level)) :=
    Telling.called set rfl ⟨(second.bus.hold_eq line level).1.trans fresh, primed'⟩
  refine ⟨_, _, ?_, ?_, called, fun other => ?_⟩
  · unfold Probe.drive
    dsimp only
    rw [Lines.id_setWeak, wired, show LineBus.drive first.bus _ _ = _ from driven]
    rfl
  · unfold Probe.drive
    dsimp only
    rw [beside.lines, Lines.id_setWeak, wired, show LineBus.drive second.bus _ _ = _ from driven']
    rfl
  · exact (Lines.id_setWeak ..).trans (wired other)

theorem letGo (beside : first.Beside (Poised lines changes) second)
    (wired : ∀ line, first.lines.id line = lines.id line) {time : Nat}
    (instant : time < Time.limit) :
    Probe.Abreast (Paired lines) (fun _ _ _ => False) (first.letGo time) (second.letGo time) := by
  obtain ⟨clock, clock', driven, driven', beside, wired⟩ := drive beside wired .clock true
  obtain ⟨data, data', free, free', beside, wired⟩ := drive beside wired .data true
  obtain ⟨fresh, primed⟩ := beside.bond.alike
  obtain ⟨replay, simulation, waited, waited', inStep⟩ :=
    primed.wait (fresh ▸ Nat.zero_le time) instant
  unfold Probe.letGo
  rw [driven, driven', Outcome.andThen_ok, Outcome.andThen_ok, free, free', Outcome.andThen_ok,
    Outcome.andThen_ok]
  unfold Probe.wait
  rw [waited, waited']
  exact .ok (Telling.called beside rfl inStep)

end Poised

theorem primed_of_sorted (distinct : lines.clock ≠ lines.data) (cycle : Nat)
    (sorted : changes.Pairwise fun early late => early.time ≤ late.time)
    (instants : ∀ change ∈ changes, change.time < Time.limit) :
    Primed lines
      ((Replay.ofTrace lines.clock lines.data (changes.map (PeerChange.entry lines))).withCycle cycle)
      (Simulation.withCycle { clock := { id := lines.clock }, data := { id := lines.data }
                              program := PeerChange.steps 0 changes } cycle) changes := by
  refine ⟨⟨rfl, rfl, rfl, rfl, fun line => ?_, distinct, rfl⟩, rfl, rfl, Nat.le_refl 0, ?_⟩
  · cases line <;> rfl
  · exact PeerChange.scheduled_of_sorted sorted instants fun _ _ => Nat.zero_le _

namespace Checker

variable {config : Config} {replayed : Checker Replay} {simulated : Checker Simulation}

theorem same_stop (primed : Primed lines replay simulation changes) (fresh : simulation.now = 0)
    (wired : ∀ line, lines.id line = ({ clock := config.clock, data := config.data } : Lines).id line)
    (settles : config.settleTime < Time.limit) (made : ofConfig config replay = .ok replayed)
    (made' : ofConfig config simulation = .ok simulated) :
    Abreast (Paired lines) (fun _ _ _ => False)
      (.fail replayed.stop.1 replayed.stop.2 : Outcome (Checker Replay) Unit)
      (.fail simulated.stop.1 simulated.stop.2) := by
  have start : replayed.start.Beside (Poised lines changes) simulated.start :=
    beside_of_made made made' ⟨⟨fresh, primed⟩, rfl⟩
  have settled := Poised.letGo start (fun line => by rw [start_of_made made, wired]) settles
  have distinct := (configured_of_ofConfig made').distinct
  refine stutters_paired.stop_of_made made made' settled (fun late free => ?_)
    fun ready n between idle run => ?_
  · have keeps : LineBus.KeepsDrives simulated.start.bus := Simulation.keepsDrives _
    exact Probe.agrees_of_starts
      (show simulated.start.lines.clock ≠ simulated.start.lines.data from distinct) keeps
      (Probe.starts_letGo free)
  · obtain ⟨told, entered, passes⟩ := passes_of_turns run
    exact agrees_of_passes distinct idle passes (Simulation.keepsDrives _)

/-- Runs of which the same is told, and that end with both buses at the same instant and with their
lines driven alike. -/
structure SameRun (replayed : BusError × Checker Replay)
    (simulated : BusError × Checker Simulation) : Prop extends SameTold replayed simulated where
  now : simulated.2.now = replayed.2.now
  pin? : ∀ id, simulated.2.probe.bus.pin? id = replayed.2.probe.bus.pin? id

/-- A list of changes of the peer's makes one run, whether it is replayed or a program waits and
brings the changes about one by one: the same is reported at the same times, and the end is that
there is nothing more to come, or the same time out of range. -/
theorem same_run_on_both_buses (config : Config) (cycle : Nat) {changes : List PeerChange}
    (sorted : changes.Pairwise fun early late => early.time ≤ late.time)
    (instants : ∀ change ∈ changes, change.time < Time.limit)
    (settles : config.settleTime < Time.limit) {replayed : Checker Replay}
    (made : ofConfig config ((Replay.ofTrace config.clock config.data
      (changes.map (PeerChange.entry { clock := config.clock, data := config.data }))).withCycle
        cycle) = .ok replayed) :
    ∃ (bus : Simulation) (simulated : Checker Simulation),
      Simulation.ofProgram config.clock config.data (PeerChange.steps 0 changes) = .ok bus ∧
      ofConfig config (bus.withCycle cycle) = .ok simulated ∧
      SameRun replayed.run simulated.run ∧
      (replayed.run.1 = .closed ∨ ∃ kind, replayed.run.1 = .overflow kind) := by
  have distinct : config.clock ≠ config.data := by
    have distinct := (configured_of_ofConfig made).distinct
    rw [new_of_ofConfig made] at distinct
    exact distinct
  have primed : Primed { clock := config.clock, data := config.data } _ _ changes :=
    primed_of_sorted distinct cycle sorted instants
  obtain ⟨simulated, made'⟩ := exists_of_made made (Simulation.withCycle
    { clock := { id := config.clock }, data := { id := config.data }
      program := PeerChange.steps 0 changes } cycle)
  obtain ⟨error, beside⟩ := run_of_stop Paired.linked
    (same_stop primed rfl (fun _ => rfl) settles made made')
  have same := sameTold_of_beside error beside beside.probe.bond.told
  refine ⟨_, simulated, if_neg distinct, made',
    ⟨same, Paired.linked.same_now beside.probe, beside.probe.bond.alike.pin?⟩, ?_⟩
  rw [← error]
  exact (closed_of_program made').symm

/-- A clock that is stretched, with a change at the start, changes that alter nothing and changes at
one instant. -/
theorem same_run_while_stretching :
    let changes : List PeerChange := [⟨0, .data, some true⟩, ⟨200, .data, some false⟩,
      ⟨250, .data, some false⟩, ⟨300, .clock, some false⟩, ⟨320, .data, none⟩, ⟨320, .data, some false⟩,
      ⟨400, .clock, none⟩, ⟨500, .clock, some false⟩, ⟨500, .data, none⟩]
    let config : Config := { clock := 0, data := 1, clockStretch := 50 }
    let trace := changes.map (PeerChange.entry { clock := config.clock, data := config.data })
    ∃ (replayed : Checker Replay) (bus : Simulation) (simulated : Checker Simulation),
      ofConfig config ((Replay.ofTrace config.clock config.data trace).withCycle 30) = .ok replayed ∧
      Simulation.ofProgram config.clock config.data (PeerChange.steps 0 changes) = .ok bus ∧
      ofConfig config (bus.withCycle 30) = .ok simulated ∧ SameRun replayed.run simulated.run ∧
      replayed.run.1 = .closed ∧ replayed.run.2.probe.journal.pushed.length = 2 := by
  intro changes config trace
  have found : ((ofConfig config ((Replay.ofTrace config.clock config.data trace).withCycle
      30)).toOption.bind fun replayed => (replayed.end? 60).map
        fun stop => (stop.1, stop.2.probe.journal.pushed.length)) = some (.closed, 2) := by
    decide +kernel
  obtain ⟨replayed, made, shows⟩ := exists_run found
  obtain ⟨closed, pushed⟩ := Prod.mk.inj shows
  have sorted : changes.Pairwise fun early late => early.time ≤ late.time := by decide
  obtain ⟨bus, simulated, fits, made', same, -⟩ := same_run_on_both_buses config 30 sorted
    (by decide) (by decide) made
  exact ⟨replayed, bus, simulated, made, fits, made', same, closed, pushed⟩

end Checker
end TwoWire
