import TwoWire.Proofs.Abreast
import TwoWire.Proofs.Horizon
import TwoWire.Proofs.Later

/-! A trace that is replayed later. As soon as the bus has settled the second run is in the state of
the first at a later time, so it records the same, later by the delay (`run_later`). -/

namespace TwoWire

namespace Outcome

abbrev Together (alike : σ → τ → Prop) : Outcome σ α → Outcome τ α → Prop :=
  Abreast alike fun _ _ _ => False

variable {alike : σ → τ → Prop} {first : Outcome σ α} {second : Outcome τ α}

theorem Together.cases (together : Together alike first second) :
    (∃ error state other, first = .fail error state ∧ second = .fail error other ∧
        alike state other) ∨
      ∃ value state other, first = .ok value state ∧ second = .ok value other ∧
        alike state other := by
  cases together with
  | ok related => exact .inr ⟨_, _, _, rfl, rfl, related⟩
  | fail related => exact .inl ⟨_, _, _, rfl, rfl, related⟩
  | cut broken => exact broken.elim

theorem Together.andThen {next : α → σ → Outcome σ γ} {next' : α → τ → Outcome τ γ}
    (together : Together alike first second)
    (onward : ∀ value state other, first = .ok value state → second = .ok value other →
      alike state other → Together alike (next value state) (next' value other)) :
    Together alike (first.andThen next) (second.andThen next') := by
  cases together with
  | ok related => exact onward _ _ _ rfl rfl related
  | fail related => exact .fail related
  | cut broken => exact broken.elim

theorem Together.mapState {whole : υ → ω → Prop} {f : σ → υ} {g : τ → ω}
    (together : Together alike first second)
    (h : ∀ state other, alike state other → whole (f state) (g other)) :
    Together whole (first.mapState f) (second.mapState g) :=
  Abreast.mapState together h fun _ _ _ => id

end Outcome

open Outcome (Together)

def PeerDrive.later (entry : PeerDrive) (delay : Nat) : PeerDrive :=
  { entry with time := entry.time + delay }

def WaitKind.later (delay : Nat) : WaitKind → WaitKind
  | .change => .change
  | .cycle => .cycle
  | .instant time => .instant (time + delay)

def Config.later (config : Config) (delay : Nat) : Config :=
  { config with settleTime := config.settleTime + delay }

def Transition.later (transition : Transition) (delay : Nat) : Transition :=
  { transition with time := transition.time + delay }

def Record.later (record : Record) (delay : Nat) : Record :=
  { record with time := record.time + delay }

def Entry.later (delay : Nat) : Entry → Entry
  | .started config => .started (config.later delay)
  | .waited kind => .waited (kind.later delay)
  | .drove line level => .drove line level
  | .moved transition => .moved (transition.later delay)
  | .committed change => .committed (change.later delay)
  | .entered source target time => .entered source target (time + delay)
  | .recorded record => .recorded (record.later delay)
  | .stretchBegan time => .stretchBegan (time + delay)
  | .stretchEnded time => .stretchEnded (time + delay)
  | .ended error time => .ended error (time + delay)

theorem Journal.pushed_later (journal : Journal) (delay : Nat) :
    Journal.pushed (journal.map (Entry.later delay)) = journal.pushed.map (·.later delay) := by
  unfold pushed
  rw [List.filterMap_map, List.map_filterMap]
  refine List.filterMap_congr fun entry _ => ?_
  cases entry <;> rfl

namespace Replay

/-- The same bus, by a gap later, with all that is left of its trace later by the delay. What has been
driven is not compared. -/
structure Later (gap delay : Nat) (first second : Replay) : Prop where
  now : second.now = first.now + gap
  cycle : second.cycle = first.cycle
  clock : second.clock = first.clock
  data : second.data = first.data
  trace : second.trace = first.trace.map (·.later delay)

namespace Later

variable {gap delay : Nat} {first second : Replay}

theorem pin? (later : Later gap delay first second) (id : LineId) :
    second.pin? id = first.pin? id := by
  unfold Replay.pin?
  rw [later.clock, later.data]

theorem setPeer (later : Later gap delay first second) (id : LineId) (level : Option Bool) :
    Later gap delay (first.setPeer id level) (second.setPeer id level) := by
  obtain ⟨now, cycle, clock, data, trace⟩ := later
  unfold Replay.setPeer
  rw [clock, data]
  split
  · exact ⟨now, cycle, rfl, rfl, trace⟩
  · exact ⟨now, cycle, rfl, rfl, trace⟩

theorem setWeak (later : Later gap delay first second) (id : LineId) (level : Bool) :
    Later gap delay (first.setWeak id level) (second.setWeak id level) := by
  obtain ⟨now, cycle, clock, data, trace⟩ := later
  unfold Replay.setWeak
  rw [clock, data]
  split
  · exact ⟨now, cycle, rfl, rfl, trace⟩
  · exact ⟨now, cycle, rfl, rfl, trace⟩

theorem drive (later : Later gap delay first second) (id : LineId) (level : Bool) :
    Together (Later gap delay) (first.drive id level) (second.drive id level) := by
  unfold Replay.drive
  rw [later.pin?]
  split
  · exact .fail later
  · obtain ⟨now, cycle, clock, data, trace⟩ := later.setWeak id level
    exact .ok ⟨now, cycle, clock, data, trace⟩

/-- Two buses that are both still at the start come to later instants the delay apart, too. -/
theorem max_now (later : Later gap delay first second)
    (reach : gap = delay ∨ gap = 0 ∧ first.now = 0) (time : Nat) :
    max second.now (time + delay) = max first.now time + delay := by
  rw [later.now]
  omega

theorem replayTo (later : Later gap delay first second)
    (reach : gap = delay ∨ gap = 0 ∧ first.now = 0) (time : Nat) (trace : List PeerDrive) :
    Together (Later delay delay) (first.replayTo time trace)
      (second.replayTo (time + delay) (trace.map (·.later delay))) := by
  induction trace generalizing first second gap with
  | nil => exact .ok ⟨later.max_now reach time, later.cycle, later.clock, later.data, rfl⟩
  | cons entry rest ih =>
    rw [List.map_cons, Replay.replayTo, Replay.replayTo,
      show (entry.later delay).time = entry.time + delay from rfl]
    by_cases ahead : time < entry.time
    case pos =>
      rw [if_pos ahead, if_pos (Nat.add_lt_add_right ahead delay)]
      exact .ok ⟨later.max_now reach time, later.cycle, later.clock, later.data, rfl⟩
    case neg =>
      -- only the first entry can find both buses at the start
      rw [if_neg ahead, if_neg fun other => ahead (Nat.lt_of_add_lt_add_right other)]
      dsimp only
      have moved : Later delay delay { first with now := max first.now entry.time, trace := rest }
          { second with
            now := max second.now (entry.time + delay)
            trace := rest.map (·.later delay) } :=
        ⟨later.max_now reach entry.time, later.cycle, later.clock, later.data, rfl⟩
      rw [show (entry.later delay).line = entry.line from rfl, moved.pin?]
      split
      · exact .fail moved
      · exact ih (moved.setPeer entry.line entry.level) (.inl rfl)

theorem waitUntil (later : Later gap delay first second)
    (reach : gap = delay ∨ gap = 0 ∧ first.now = 0) (time : Nat) :
    Together (Later delay delay) (first.waitUntil time) (second.waitUntil (time + delay)) := by
  unfold Replay.waitUntil
  rw [later.trace]
  exact later.replayTo reach time first.trace

theorem waitChange (later : Later delay delay first second) :
    Together (Later delay delay) first.waitChange second.waitChange := by
  unfold Replay.waitChange
  rw [later.trace]
  cases first.trace with
  | nil => exact .fail later
  | cons entry rest => exact later.waitUntil (.inl rfl) entry.time

theorem waitCycle (later : Later delay delay first second)
    (early : second.now + second.cycle < Time.limit) :
    Together (Later delay delay) first.waitCycle second.waitCycle := by
  have stop : second.now + second.cycle = first.now + first.cycle + delay := by
    rw [later.now, later.cycle]
    omega
  unfold Replay.waitCycle
  dsimp only
  rw [if_pos early, if_pos (by omega), stop, later.trace]
  cases first.trace with
  | nil => exact later.waitUntil (.inl rfl) _
  | cons entry rest =>
    rw [List.map_cons]
    dsimp only
    rw [show min (entry.later delay).time (first.now + first.cycle + delay) =
      min entry.time (first.now + first.cycle) + delay from Nat.add_min_add_right ..]
    exact later.waitUntil (.inl rfl) _

theorem wait (later : Later delay delay first second) (kind : WaitKind)
    (early : kind = .cycle → second.now + second.cycle < Time.limit) :
    Together (Later delay delay) (first.wait kind) (second.wait (kind.later delay)) := by
  cases kind with
  | change => exact later.waitChange
  | cycle => exact later.waitCycle (early rfl)
  | instant time => exact later.waitUntil (.inl rfl) time

end Later
end Replay

namespace Probe

structure Later (gap delay : Nat) (first second : Probe Replay) : Prop where
  bus : first.bus.Later gap delay second.bus
  lines : second.lines = first.lines
  detector : second.detector = first.detector.later delay
  stretch : second.stretch = first.stretch.later delay
  journal : second.journal = first.journal.map (Entry.later delay)

namespace Later

variable {gap delay : Nat} {first second : Probe Replay}

theorem now (later : Later gap delay first second) : second.now = first.now + gap := later.bus.now

theorem note (later : Later gap delay first second) (entry : Entry) :
    Later gap delay (first.note entry) (second.note (entry.later delay)) :=
  ⟨later.bus, later.lines, later.detector, later.stretch, congrArg (_ :: ·) later.journal⟩

theorem called {gap' : Nat} (later : Later gap delay first second) (entry : Entry)
    {bus bus' : Replay} (reached : bus.Later gap' delay bus') :
    Later gap' delay (first.called entry bus) (second.called (entry.later delay) bus') := by
  refine ⟨reached, later.lines, later.detector, later.stretch, ?_⟩
  have unmoved (probe : Probe Replay) (bus : Replay) (entry : Entry) :
      (probe.called entry bus).journal = entry :: probe.journal :=
    journal_called_of_unmoved (show LineBus.moves bus = LineBus.moves probe.bus from rfl) entry
  rw [unmoved, unmoved, later.journal]
  rfl

theorem drive (later : Later gap delay first second) (line : Line) (level : Bool) :
    Together (Later gap delay) (first.drive line level) (second.drive line level) := by
  unfold Probe.drive
  dsimp only
  rw [later.lines]
  refine (later.bus.drive _ level).mapState fun bus bus' reached => ?_
  have remembered : Later gap delay { first with lines := first.lines.setWeak line level }
      { second with lines := first.lines.setWeak line level } :=
    ⟨later.bus, rfl, later.detector, later.stretch, later.journal⟩
  exact remembered.called (.drove line level) reached

theorem wait (later : Later delay delay first second) (kind : WaitKind)
    (early : kind = .cycle → second.bus.now + second.bus.cycle < Time.limit) :
    Together (Later delay delay) (first.wait kind) (second.wait (kind.later delay)) :=
  (later.bus.wait kind early).mapState fun _ _ => later.called (.waited kind)

theorem look (later : Later delay delay first second) :
    second.look = first.look.map (·.later delay) := by
  have peer (id : LineId) : LineBus.peer? second.bus id = LineBus.peer? first.bus id :=
    congrArg (Option.map Pin.peer) (later.bus.pin? id)
  unfold Probe.look Lines.look
  rw [later.lines, peer, peer]
  split
  · rfl
  · rfl
  · exact congrArg (fun now => Except.ok (Sight.mk now _ _)) later.bus.now

theorem refreshLine (later : Later gap delay first second) (line : Line) :
    Together (Later gap delay) (first.refreshLine line) (second.refreshLine line) := by
  have driven : LineBus.isDriven second.bus (second.lines.id line) =
      LineBus.isDriven first.bus (first.lines.id line) := by
    unfold LineBus.isDriven
    rw [later.lines, show LineBus.pin? second.bus = LineBus.pin? first.bus from
      funext later.bus.pin?]
  unfold Probe.refreshLine
  rw [driven]
  split
  · exact .fail later
  · exact .ok later
  · rw [later.lines]
    exact later.drive line _

theorem refresh (later : Later gap delay first second) :
    Together (Later gap delay) first.refresh second.refresh :=
  (later.refreshLine .clock).andThen fun _ _ _ _ _ later => later.refreshLine .data

theorem releaseWhenDue (later : Later delay delay first second) (early : second.now < Time.half) :
    Together (Later delay delay) first.releaseWhenDue second.releaseWhenDue := by
  have due : second.stretch.isDue second.now = first.stretch.isDue first.now := by
    rw [later.now] at early
    rw [later.stretch, later.now, ClockStretch.isDue_later _ early]
  unfold Probe.releaseWhenDue
  rw [due]
  split
  case isFalse => exact .ok later
  case isTrue =>
    refine (later.drive .clock true).andThen fun _ free free' _ _ later => ?_
    have released : Later delay delay { free with stretch := free.stretch.release }
        { free' with stretch := free'.stretch.release } :=
      ⟨later.bus, later.lines, later.detector, by rw [later.stretch]; rfl, later.journal⟩
    rw [later.now]
    exact .ok (released.note (.stretchEnded free.now))

theorem pause (later : Later delay delay first second)
    (cycles : second.stretch.isPending = true → second.bus.now + second.bus.cycle < Time.limit)
    (early : second.pause.state.now < Time.half) :
    Together (Later delay delay) first.pause second.pause := by
  rw [now_pause_eq] at early
  unfold Probe.pause
  dsimp only
  refine Together.andThen ?_ fun _ _ _ _ _ later => later.refresh
  have pending : second.stretch.isPending = first.stretch.isPending := by
    rw [later.stretch, ClockStretch.isPending_later]
  rw [pending] at cycles early ⊢
  split
  case isFalse => exact later.wait .change nofun
  case isTrue held =>
    -- nothing takes time after the wait, so the stretch is looked at when the wake-up is over
    rw [if_pos held] at early
    refine (later.wait .cycle fun _ => cycles held).andThen fun _ _ woken _ waited later => ?_
    refine later.releaseWhenDue ?_
    have now := second.now_wait_eq .cycle
    rw [show second.wait .cycle = .ok () woken from waited, Outcome.state_ok] at now
    rw [now]
    exact early

theorem wake (later : Later delay delay first second) :
    Together (Later delay delay) ((first.wait .change).andThen fun _ probe => probe.refresh)
      ((second.wait .change).andThen fun _ probe => probe.refresh) :=
  (later.wait .change nofun).andThen fun _ _ _ _ _ later => later.refresh

theorem awaitIdle (later : Later delay delay first second) :
    Together (Later delay delay) first.awaitIdle second.awaitIdle := by
  have seen := later.look
  fun_induction Probe.awaitIdle first generalizing second with
  | case1 first error look =>
    rw [look] at seen
    rw [awaitIdle_of_missing seen]
    exact .fail later
  | case2 first sight look idle =>
    rw [look] at seen
    rw [awaitIdle_of_idle seen (by rw [later.lines]; exact idle)]
    exact .ok ⟨later.bus, later.lines, by rw [later.detector]; rfl, later.stretch, later.journal⟩
  | case3 first sight look busy error stopped failed =>
    have woken := later.wake
    rw [look] at seen
    rw [awaitIdle_of_busy seen (by rw [later.lines]; exact Bool.eq_false_of_not_eq_true busy)]
    rw [failed] at woken
    generalize (second.wait .change).andThen _ = outcome at woken ⊢
    cases woken with
    | fail later => exact .fail later
    | cut broken => exact broken.elim
  | case4 first sight look busy _ woken waited ih =>
    have woken := later.wake
    rw [look] at seen
    rw [awaitIdle_of_busy seen (by rw [later.lines]; exact Bool.eq_false_of_not_eq_true busy)]
    rw [waited] at woken
    generalize (second.wait .change).andThen _ = outcome at woken ⊢
    cases woken with
    | ok later => exact ih later later.look

theorem settle (later : Later 0 delay first second) (start : first.now = 0) (time : Nat) :
    (∃ error stopped stopped', first.settle time = .fail error stopped ∧
        second.settle (time + delay) = .fail error stopped' ∧ Later 0 delay stopped stopped') ∨
      Together (Later delay delay) (first.settle time) (second.settle (time + delay)) := by
  unfold Probe.settle
  rcases (later.drive .clock true).cases with
    ⟨error, stopped, stopped', freed, freed', refused⟩ | ⟨_, clock, clock', freed, freed', later⟩
  · rw [freed, freed']
    exact .inl ⟨error, stopped, stopped', rfl, rfl, refused⟩
  have still := first.now_drive .clock true
  rw [freed] at still
  rw [freed, freed', Outcome.andThen_ok, Outcome.andThen_ok]
  rcases (later.drive .data true).cases with
    ⟨error, stopped, stopped', freed, freed', refused⟩ | ⟨_, both, both', freed, freed', later⟩
  · rw [freed, freed']
    exact .inl ⟨error, stopped, stopped', rfl, rfl, refused⟩
  have still' := clock.now_drive .data true
  rw [freed] at still'
  rw [freed, freed', Outcome.andThen_ok, Outcome.andThen_ok]
  have reach : both.bus.now = 0 := still'.trans (still.trans start)
  refine .inr (Together.andThen ?_ fun _ _ _ _ _ later => later.awaitIdle)
  exact (later.bus.waitUntil (.inr ⟨rfl, reach⟩) time).mapState
    fun _ _ => later.called (.waited (.instant time))

end Later
end Probe

namespace Checker

structure Later (gap delay : Nat) (first second : Checker Replay) : Prop where
  probe : first.probe.Later gap delay second.probe
  protocol : second.protocol = first.protocol.later delay

namespace Later

variable {gap delay : Nat} {first second : Checker Replay}

theorem now (later : Later gap delay first second) : second.now = first.now + gap :=
  later.probe.now

theorem note (later : Later gap delay first second) (entry : Entry) :
    Later gap delay (first.note entry) (second.note (entry.later delay)) :=
  ⟨later.probe.note entry, later.protocol⟩

theorem view (later : Later gap delay first second) (sight : Sight) :
    second.view (sight.later delay) = (first.view sight).later delay := by
  unfold Checker.view
  rw [later.probe.lines, later.probe.detector]
  rfl

theorem report (later : Later delay delay first second) (notes : List Note) :
    Together (Later delay delay) (first.report notes) (second.report notes) := by
  induction notes generalizing first second with
  | nil => exact .ok later
  | cons note rest ih =>
    cases note with
    | overflow kind => exact .fail later
    | found finding =>
      unfold Checker.report
      rw [later.now, later.protocol]
      exact ih (later.note (.recorded ⟨first.now, first.protocol.phase, finding⟩))

theorem drive (later : Later gap delay first second) (line : Line) (level : Bool) :
    Together (Later gap delay) (first.drive line level) (second.drive line level) :=
  (later.probe.drive line level).mapState fun _ _ probe => ⟨probe, later.protocol⟩

theorem driveData (later : Later gap delay first second) (drive? : Option Bool) :
    Together (Later gap delay) (first.driveData drive?) (second.driveData drive?) := by
  cases drive? with
  | none => exact .ok later
  | some level => exact later.drive .data level

theorem enter (later : Later delay delay first second) {sight : Sight}
    (dated : (second.view (sight.later delay)).Dated) (phase : Phase) :
    Together (Later delay delay) (first.enter sight phase)
      (second.enter (sight.later delay) phase) := by
  have arrived := first.protocol.enter_later (later.view sight ▸ dated) phase
  unfold Checker.enter
  dsimp only
  rw [later.view, later.protocol, arrived, later.now]
  generalize first.protocol.enter (first.view sight) phase = arrival
  have entered : Later delay delay
      { first.note (.entered first.protocol.phase phase first.now) with
        protocol := arrival.protocol }
      { second.note (.entered first.protocol.phase phase (first.now + delay)) with
        protocol := arrival.protocol.later delay } :=
    ⟨later.probe.note _, rfl⟩
  refine (entered.report arrival.notes).andThen fun _ _ _ _ _ later => ?_
  exact (later.driveData arrival.drive?).andThen fun _ _ _ _ _ later => .ok later

theorem follow (later : Later delay delay first second) {sight : Sight}
    (dated : (second.view (sight.later delay)).Dated) (phase : Phase) :
    Together (Later delay delay) (first.follow sight phase)
      (second.follow (sight.later delay) phase) := by
  refine (later.enter dated phase).andThen fun forced? _ _ _ entered later => ?_
  cases forced? with
  | none => exact .ok later
  | some forced =>
    have still := (enter_ok entered).still.detector
    exact (later.enter (dated_of_still dated still) forced).andThen fun _ _ _ _ _ later => .ok later

theorem clockEdge (later : Later delay delay first second) (change : Change) :
    Together (Later delay delay) (first.clockEdge change)
      (second.clockEdge (change.later delay)) := by
  have level : second.probe.detector.clock.level = first.probe.detector.clock.level := by
    rw [later.probe.detector]
    rfl
  unfold Checker.clockEdge
  rw [level, show (change.later delay).line = change.line from rfl]
  split
  case isFalse => exact .ok later
  case isTrue =>
    have begins : second.probe.stretch.begin (change.later delay).time =
        (first.probe.stretch.begin change.time).later delay := by
      rw [later.probe.stretch]
      exact first.probe.stretch.begin_later change.time delay
    have measured : second.protocol.meter.clockFell (change.later delay).time =
        (first.protocol.meter.clockFell change.time).later delay := by
      rw [later.protocol]
      exact first.protocol.meter.clockFell_later change.time delay
    have begun : Later delay delay
        { first with
          protocol := { first.protocol with meter := first.protocol.meter.clockFell change.time }
          probe := { first.probe with stretch := first.probe.stretch.begin change.time } }
        { second with
          protocol := { second.protocol with
            meter := (first.protocol.meter.clockFell change.time).later delay }
          probe := { second.probe with
            stretch := (first.probe.stretch.begin change.time).later delay } } :=
      ⟨⟨later.probe.bus, later.probe.lines, later.probe.detector, rfl, later.probe.journal⟩, by
        rw [later.protocol]
        rfl⟩
    unfold Checker.clockFell
    dsimp only
    rw [begins, measured, show ((first.probe.stretch.begin change.time).later delay).isEnabled =
      (first.probe.stretch.begin change.time).isEnabled from rfl]
    split
    case isFalse => exact .ok begun
    case isTrue =>
      exact (begun.drive .clock false).andThen fun _ _ _ _ _ later =>
        .ok (later.note (.stretchBegan change.time))

theorem react (later : Later delay delay first second) (change : Change)
    (dated : (second.view (change.later delay).sight).Dated) :
    Together (Later delay delay) (first.react change) (second.react (change.later delay)) := by
  have judged : second.protocol.edgeNotes (second.view (change.later delay).sight) change.edge =
      first.protocol.edgeNotes (first.view change.sight) change.edge := by
    have dated := dated
    rw [later.protocol]
    rw [show second.view (change.later delay).sight = _ from later.view change.sight] at dated ⊢
    exact first.protocol.edgeNotes_later dated change.edge
  unfold Checker.react
  rw [show (change.later delay).edge = change.edge from rfl, judged]
  refine (later.report _).andThen fun _ _ judged _ reported later => ?_
  have first : judged.probe.detector = second.probe.detector := by rw [report_ok reported]
  refine (later.clockEdge change).andThen fun _ _ clocked _ edged later => ?_
  have second := (clockEdge_ok edged).still.detector
  refine (later.report _).andThen fun _ told told' _ reported later => ?_
  have third : told'.probe.detector = clocked.probe.detector := by rw [report_ok reported]
  rw [later.protocol, later.probe.detector, Protocol.successor_later]
  exact later.follow (dated_of_still dated ((third.trans second).trans first)) _

theorem turn (later : Later delay delay first second)
    (cycles : second.probe.stretch.isPending = true →
      second.probe.bus.now + second.probe.bus.cycle < Time.limit)
    (dated : ∀ change committed, second.probe.Commits change committed →
      (second.sees change).Dated)
    (early : second.turned.now < Time.half) :
    ∃ outcome outcome', first.turn = outcome.verdict ∧ second.turn = outcome'.verdict ∧
      Together (Later delay delay) outcome outcome' := by
  have seen := later.probe.look
  cases look : first.probe.look with
  | error error =>
    rw [look] at seen
    exact ⟨.fail error first, .fail error second, turn_of_missing look, turn_of_missing seen,
      .fail later⟩
  | ok sight =>
    rw [look] at seen
    have shown : second.probe.detector.edge? second.probe.lines (sight.later delay) =
        first.probe.detector.edge? first.probe.lines sight := by
      rw [later.probe.lines, later.probe.detector, EdgeDetector.edge?_later]
    cases edges : first.probe.detector.edge? first.probe.lines sight with
    | some edge =>
      rw [edges] at shown
      have committed : Later delay delay
          { first with probe := first.probe.commit sight edge }
          { second with probe := second.probe.commit (sight.later delay) edge } := by
        refine ⟨⟨later.probe.bus, later.probe.lines, ?_, later.probe.stretch, ?_⟩, later.protocol⟩
        · change second.probe.detector.commit second.probe.lines _ _ = _
          rw [later.probe.detector, later.probe.lines, EdgeDetector.commit_later]
          rfl
        · exact congrArg (_ :: ·) later.probe.journal
      have present := dated ⟨edge, sight.later delay⟩ _ ⟨seen, shown, rfl⟩
      refine ⟨_, _, turn_of_edge look edges, turn_of_edge seen shown, ?_⟩
      exact committed.react ⟨edge, sight⟩ present
    | none =>
      rw [edges] at shown
      have turned : second.turned.now = second.probe.pause.state.now := by
        unfold turned
        rw [turn_of_pause seen shown]
        cases second.probe.pause <;> rfl
      refine ⟨_, _, turn_of_pause look edges, turn_of_pause seen shown, ?_⟩
      exact (later.probe.pause cycles (turned ▸ early)).mapState
        fun _ _ probe => ⟨probe, later.protocol⟩

theorem startUp (later : Later 0 delay first second)
    (config : second.config = first.config.later delay) (start : first.now = 0) :
    (∃ error stopped stopped', first.startUp = .fail error stopped ∧
        second.startUp = .fail error stopped' ∧ Later 0 delay stopped stopped') ∨
      Together (Later delay delay) first.startUp second.startUp := by
  have begun := (later.note (.started first.config)).probe.settle start first.config.settleTime
  unfold Checker.startUp
  rw [config, show Entry.started (first.config.later delay) =
      Entry.later delay (.started first.config) from rfl,
    show (first.config.later delay).settleTime = first.config.settleTime + delay from rfl]
  rcases begun with ⟨error, stopped, stopped', failed, failed', refused⟩ | settled
  · rw [failed, failed']
    exact .inl ⟨error, _, _, rfl, rfl, refused, later.protocol⟩
  · refine .inr (Together.andThen ?_ fun _ _ _ _ _ later => .ok ⟨later.probe, ?_⟩)
    · exact settled.mapState fun _ _ probe => ⟨probe, later.protocol⟩
    · dsimp only
      rw [later.protocol]
      rfl

end Later

variable {delay : Nat} {first second ready ready' before before' : Checker Replay} {n : Nat}

/-- The run ends before `Time.half`, and the end of every cycle that it waits for can be told, also
where something else ends the wait before. -/
structure Early (checker : Checker Replay) : Prop where
  ends : checker.run.2.now < Time.half
  cycles {ready before : Checker Replay} {n : Nat} : checker.startUp = .ok () ready →
    ready.turns n = .ok before → before.probe.stretch.isPending = true →
      before.probe.bus.now + before.probe.bus.cycle < Time.limit

section

variable {config : Config} {bus : Replay} (made : ofConfig config bus = .ok second)
  (early : second.Early) (idle : second.startUp = .ok () ready')

include made early idle

theorem turn_later (run : ready'.turns n = .ok before') (later : before.Later delay delay before') :
    ∃ outcome outcome', before.turn = outcome.verdict ∧ before'.turn = outcome'.verdict ∧
      Together (Later delay delay) outcome outcome' := by
  refine later.turn (early.cycles idle run) (fun change committed commits => ?_) ?_
  · refine dated_of_commits commits (recalls_turns made idle run)
      (ordered_edges Replay.forward run).2 ?_
    exact Nat.lt_of_le_of_lt (now_of_run Replay.forward idle run) early.ends
  · exact Nat.lt_of_le_of_lt (turned_le_run Replay.forward idle run) early.ends

theorem turns_later (later : ready.Later delay delay ready') (run : ready.turns n = .ok before) :
    ∃ before', ready'.turns n = .ok before' ∧ before.Later delay delay before' := by
  induction n generalizing before with
  | zero =>
    cases run
    exact ⟨ready', rfl, later⟩
  | succ n ih =>
    obtain ⟨previous, run, turned⟩ := exists_of_turns_succ run
    obtain ⟨previous', run', later⟩ := ih run
    obtain ⟨outcome, outcome', turn, turn', together⟩ := turn_later made early idle run' later
    rw [turned] at turn
    rcases together.cases with ⟨error, state, other, rfl, rfl, -⟩ | ⟨_, state, other, rfl, rfl, later⟩
    · cases turn
    · cases turn
      exact ⟨other, turns_succ run' turn', later⟩

theorem watch_later (later : ready.Later delay delay ready') :
    ready'.watch.1 = ready.watch.1 ∧ ready.watch.2.Later delay delay ready'.watch.2 := by
  obtain ⟨n, last, run, ends⟩ := exists_turns ready
  obtain ⟨last', run', later⟩ := turns_later made early idle later run
  obtain ⟨outcome, outcome', turn, turn', together⟩ := turn_later made early idle run' later
  rw [ends] at turn
  have ends' : ready'.watch = last'.watch := watch_turns run'
  rw [watch_turn last', turn'] at ends'
  rcases together.cases with ⟨error, state, other, rfl, rfl, later⟩ | ⟨_, state, other, rfl, rfl, -⟩
  · rw [ends', Except.error.inj turn]
    exact ⟨rfl, later⟩
  · cases turn

end

theorem exists_later {config : Config} {clock data : LineId} {trace : List PeerDrive} {cycle : Nat}
    (made : ofConfig config ((Replay.ofTrace clock data trace).withCycle cycle) = .ok first)
    (delay : Nat) :
    ∃ second, ofConfig (config.later delay)
        ((Replay.ofTrace clock data (trace.map (·.later delay))).withCycle cycle) = .ok second ∧
      second.config = first.config.later delay ∧ first.now = 0 ∧ first.Later 0 delay second := by
  unfold ofConfig at made ⊢
  rw [show (config.later delay).check = config.check from rfl]
  cases accepted : config.check with
  | error wrong =>
    rw [accepted] at made
    cases made
  | ok responses =>
    rw [accepted] at made
    cases made
    exact ⟨_, rfl, rfl, rfl, ⟨⟨rfl, rfl, rfl, rfl, rfl⟩, rfl, rfl, rfl, rfl⟩, rfl⟩

/-- Of two runs the second does what the first does, each thing later by the delay. -/
structure Delayed (delay : Nat) (first second : Checker Replay) : Prop where
  result : second.run.1 = first.run.1
  records : second.run.2.probe.journal.pushed =
    first.run.2.probe.journal.pushed.map (·.later delay)
  protocol : second.run.2.protocol = first.run.2.protocol.later delay
  /-- All that is written down but the end itself: a run that cannot start ends where it starts. -/
  journal : second.run.2.probe.journal.tail =
    first.run.2.probe.journal.tail.map (Entry.later delay)

theorem delayed_of_stop {gap : Nat} {error : BusError} {stopped stopped' : Checker Replay}
    (ended : first.run = (error, stopped.note (.ended error stopped.now)))
    (ended' : second.run = (error, stopped'.note (.ended error stopped'.now)))
    (later : stopped.Later gap delay stopped') : Delayed delay first second := by
  constructor
  all_goals rw [ended, ended']
  case protocol => exact later.protocol
  case journal => exact later.probe.journal
  case records =>
    change stopped'.probe.journal.pushed = stopped.probe.journal.pushed.map _
    rw [later.probe.journal, Journal.pushed_later]

theorem delayed_of_later {config : Config} {bus : Replay} (made : ofConfig config bus = .ok second)
    (early : second.Early) (later : first.Later 0 delay second)
    (told : second.config = first.config.later delay) (start : first.now = 0) :
    Delayed delay first second := by
  have stops {checker stopped : Checker Replay} {error : BusError}
      (failed : checker.startUp = .fail error stopped) :
      checker.run = (error, stopped.note (.ended error stopped.now)) := by
    unfold run
    rw [failed]
  rcases later.startUp told start with
    ⟨error, stopped, stopped', failed, failed', refused⟩ | together
  · exact delayed_of_stop (stops failed) (stops failed') refused
  · rcases together.cases with
      ⟨error, stopped, stopped', failed, failed', restless⟩ | ⟨_, ready, ready', idle, idle', settled⟩
    · exact delayed_of_stop (stops failed) (stops failed') restless
    · obtain ⟨error, watched⟩ := watch_later made early idle' settled
      have ended' := run_of_startUp idle'
      rw [error] at ended'
      exact delayed_of_stop (run_of_startUp idle) ended' watched

theorem early_of_horizon {config : Config} {clock data : LineId} {trace : List PeerDrive}
    {cycle : Nat} {checker : Checker Replay}
    (made : ofConfig config ((Replay.ofTrace clock data trace).withCycle cycle) = .ok checker)
    (inRange : Replay.horizon config.settleTime trace + config.clockStretch + max cycle 1 <
      Time.half) : checker.Early := by
  have half_le : Time.half ≤ Time.limit := by decide
  refine ⟨Nat.lt_trans (run_lt made (by omega)) inRange, fun idle run pending => ?_⟩
  have onTime := onTime_turns made (by omega) idle run
  rw [onTime.paced]
  exact Nat.lt_of_lt_of_le (onTime.cycle_lt pending) (by omega)

/-- Nothing depends on when it happens. If all that is scheduled comes later, and the run keeps within
the range of time, each record is made in the same phase and tells the same, only later, and the run
ends with the same result. -/
theorem run_later (config : Config) (clock data : LineId) (trace : List PeerDrive) (cycle delay : Nat)
    (first : Checker Replay)
    (made : ofConfig config ((Replay.ofTrace clock data trace).withCycle cycle) = .ok first) :
    ∃ second, ofConfig (config.later delay)
        ((Replay.ofTrace clock data (trace.map (·.later delay))).withCycle cycle) = .ok second ∧
      (second.Early → Delayed delay first second) := by
  obtain ⟨second, made', told, start, later⟩ := exists_later made delay
  exact ⟨second, made', fun early => delayed_of_later made' early later told start⟩

/-- The bus is still busy when it has settled, the data line is let go later than its entry says, and
we hold the clock low for 50 ns after it fell. -/
theorem run_later_out_of_order :
    ∃ first second : Checker Replay,
      ofConfig { clock := 0, data := 1, nominalSpeed := some 100, clockStretch := 50 }
        ((Replay.ofTrace 0 1 [⟨50, 1, some false⟩, ⟨400, 1, none⟩, ⟨20000, 1, some false⟩,
          ⟨25000, 0, some false⟩, ⟨25010, 0, none⟩, ⟨24000, 1, none⟩]).withCycle 20) =
          .ok first ∧
      ofConfig { clock := 0, data := 1, nominalSpeed := some 100, clockStretch := 50,
                 settleTime := 1107 }
        ((Replay.ofTrace 0 1 [⟨1057, 1, some false⟩, ⟨1407, 1, none⟩, ⟨21007, 1, some false⟩,
          ⟨26007, 0, some false⟩, ⟨26017, 0, none⟩, ⟨25007, 1, none⟩]).withCycle 20) =
          .ok second ∧
      second.Early ∧
      (first.run.1, first.run.2.now, Finding.timings first.run.2.findings) =
        (.closed, 25050, [(.clockLow, 50), (.dataSetup, 40)]) ∧
      Delayed 1007 first second := by
  have seen : ((ofConfig { clock := 0, data := 1, nominalSpeed := some 100, clockStretch := 50 }
      ((Replay.ofTrace 0 1 [⟨50, 1, some false⟩, ⟨400, 1, none⟩, ⟨20000, 1, some false⟩,
        ⟨25000, 0, some false⟩, ⟨25010, 0, none⟩, ⟨24000, 1, none⟩]).withCycle 20)).toOption.bind
      fun checker => (checker.end? 100).map fun last =>
        (last.1, last.2.now, Finding.timings last.2.findings)) =
      some (.closed, 25050, [(.clockLow, 50), (.dataSetup, 40)]) := by decide +kernel
  obtain ⟨first, made, shown⟩ := exists_run seen
  obtain ⟨second, made', delayed⟩ := run_later _ 0 1 _ 20 1007 first made
  have early : second.Early := early_of_horizon made' (by decide)
  exact ⟨first, second, made, made', early, shown, delayed early⟩

end Checker
end TwoWire
