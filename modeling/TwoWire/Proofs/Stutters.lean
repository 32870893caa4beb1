import TwoWire.Proofs.Abreast
import TwoWire.Proofs.Finite

/-! Two runs of which the first is also woken for nothing. Neither sees an edge then and the first
waits again, so runs that start abreast stay so to their end (`Stutters.stop`). -/

namespace TwoWire

namespace Probe

variable {β γ : Type} [LineBus β] [LineBus γ] {first : Probe β} {second : Probe γ}

/-- The two go by the same levels, whatever the time. -/
structure Alike (first : Probe β) (second : Probe γ) : Prop where
  detector : second.detector = first.detector
  level? : ∀ line, second.level? line = first.level? line

theorem Alike.symm (alike : Alike first second) : Alike second first :=
  ⟨alike.detector.symm, fun line => (alike.level? line).symm⟩

theorem Alike.look (alike : Alike first second) {sight : Sight} (look : first.look = .ok sight) :
    ∃ other, second.look = .ok other ∧
      ∀ line, second.lines.level other line = first.lines.level sight line := by
  have seen (line : Line) : second.level? line = some (first.lines.level sight line) :=
    (alike.level? line).trans (level?_of_look look line)
  have known (line : Line) : LineBus.peer? second.bus (second.lines.id line) ≠ none := by
    intro missing
    have shown := seen line
    unfold Probe.level? at shown
    rw [missing] at shown
    cases shown
  obtain ⟨other, look'⟩ := look_of_known known
  refine ⟨other, look', fun line => ?_⟩
  exact Option.some.inj ((level?_of_look look' line).symm.trans (seen line))

theorem Alike.unseen (alike : Alike first second) {sight : Sight} (look : first.look = .ok sight)
    (unseen : first.detector.edge? first.lines sight = none) :
    ∃ other, second.look = .ok other ∧ second.detector.edge? second.lines other = none := by
  obtain ⟨other, look', level⟩ := alike.look look
  refine ⟨other, look', ?_⟩
  unfold EdgeDetector.edge? at unseen ⊢
  rw [level, level, alike.detector]
  exact unseen

theorem alike_of_linked {bond : Bond β γ} {cut : Break} (linked : Linked bond cut)
    (beside : first.Beside bond second) : Alike first second where
  detector := beside.detector
  level? line := by
    unfold level?
    rw [beside.lines, linked.peer beside.bond]

def Busy (probe : Probe β) : Prop :=
  ∃ sight, probe.look = .ok sight ∧
    (probe.lines.level sight .clock && probe.lines.level sight .data) = false

theorem Alike.busy (alike : Alike first second) (busy : first.Busy) : second.Busy := by
  obtain ⟨sight, look, low⟩ := busy
  obtain ⟨other, look', level⟩ := alike.look look
  exact ⟨other, look', by rw [level, level, low]⟩

theorem pause_of_free (free : first.stretch.isPending = false) :
    first.pause = (first.wait .change).andThen fun _ probe => probe.refresh := by
  unfold pause
  rw [free]
  rfl

theorem awaitIdle_of_free (free : first.stretch.isPending = false) (busy : first.Busy) :
    first.awaitIdle = first.pause.andThen fun _ woken => woken.awaitIdle := by
  obtain ⟨sight, look, low⟩ := busy
  rw [awaitIdle_of_busy look low, pause_of_free free]

theorem free_of_pause {woken : Probe β} (free : first.stretch.isPending = false)
    (paused : first.pause = .ok () woken) : woken.stretch.isPending = false := by
  rcases stretch_of_wakes (wakes_of_pause paused) with same | released
  · rw [same, free]
  · rw [released]
    rfl

def letGo (probe : Probe β) (time : Nat) : Outcome (Probe β) Unit :=
  (probe.drive .clock true).andThen fun _ probe =>
    (probe.drive .data true).andThen fun _ probe => probe.wait (.instant time)

theorem settle_eq (probe : Probe β) (time : Nat) :
    probe.settle time = (probe.letGo time).andThen fun _ late => late.awaitIdle := by
  unfold settle letGo
  rw [Outcome.andThen_assoc]
  congr 1
  funext _ free
  rw [Outcome.andThen_assoc]

theorem starts_letGo {probe late : Probe β} {time : Nat} (free : probe.letGo time = .ok () late) :
    Starts probe late := by
  obtain ⟨_, clock, clockFree, rest⟩ := Outcome.of_andThen free
  obtain ⟨_, data, dataFree, waited⟩ := Outcome.of_andThen rest
  exact (Starts.free clockFree dataFree).settled waited

theorem stretch_letGo (probe : Probe β) (time : Nat) :
    (probe.letGo time).state.stretch = probe.stretch := by
  refine Outcome.state_andThen (motive := fun after : Probe β => after.stretch = probe.stretch)
    (probe.stretch_drive .clock true) fun _ clock same => ?_
  refine Outcome.state_andThen (motive := fun after : Probe β => after.stretch = probe.stretch)
    ((clock.stretch_drive .data true).trans same) fun _ data same => ?_
  unfold wait
  rw [Outcome.state_mapState]
  exact same

theorem Agrees.known {probe : Probe β} (agrees : probe.Agrees) (line : Line) :
    ∃ pin, LineBus.pin? probe.bus (probe.lines.id line) = some pin ∧
      pin.weak = probe.lines.weak line := by
  have weak := agrees.weak line
  unfold LineBus.weak? at weak
  exact Option.map_eq_some_iff.mp weak

theorem Agrees.level? {probe : Probe β} (agrees : probe.Agrees) (line : Line) :
    probe.level? line = (LineBus.pin? probe.bus (probe.lines.id line)).map Pin.level := by
  obtain ⟨pin, known, weak⟩ := agrees.known line
  unfold Probe.level? LineBus.peer? Lines.reading
  rw [known, ← weak]
  unfold Pin.level
  simp only [Option.map_some]
  cases pin.peer <;> rfl

end Probe

namespace Linked

variable {β γ : Type} [LineBus β] [LineBus γ] {bond : Bond β γ} {cut : Break} {first : Probe β}
  {second : Probe γ}

theorem drive_andThen (linked : Linked bond cut) (beside : first.Beside bond second) (line : Line)
    (level : Bool) {next : Unit → Probe β → Outcome (Probe β) Unit}
    {next' : Unit → Probe γ → Outcome (Probe γ) Unit}
    (onward : ∀ (early : Probe β) (early' : Probe γ), early.Beside bond early' →
      early.wakeups = first.wakeups → Probe.Abreast bond cut (next () early) (next' () early'))
    (grows : ∀ value early', Probe.Silent early' (next' value early').state) :
    Probe.Abreast bond cut ((first.drive line level).andThen next)
      ((second.drive line level).andThen next') := by
  have driven := linked.drive line level beside
  have wakeups := (first.prompt_drive line level).wakeups
  generalize first.drive line level = outcome at driven wakeups
  generalize second.drive line level = other at driven
  cases driven with
  | ok beside => exact onward _ _ beside wakeups
  | fail beside => exact .fail beside
  | cut broken =>
    refine .cut ?_
    cases other with
    | fail reason stopped => exact broken
    | ok value early' => exact linked.goes (Journal.suffix_of_silent (grows value early')) broken

theorem letGo (linked : Linked bond cut) (beside : first.Beside bond second) {time : Nat}
    (waited : ∀ (early : Probe β) (early' : Probe γ), early.Beside bond early' →
      early.wakeups = first.wakeups →
        Probe.Abreast bond cut (early.wait (.instant time)) (early'.wait (.instant time))) :
    Probe.Abreast bond cut (first.letGo time) (second.letGo time) := by
  refine linked.drive_andThen beside .clock true (fun clock clock' beside same => ?_)
    fun _ clock => ?_
  · exact linked.drive_andThen beside .data true
      (fun data data' beside same' => waited data data' beside (same'.trans same))
      fun _ data => data.silent_wait _
  · exact Probe.silent_andThen (clock.silent_drive .data true) fun _ data => data.silent_wait _

section Again

variable (again : ∀ {first : Probe β}, first.Beside bond second → ∀ line, ∃ after,
  first.drive line (first.lines.weak line) = .ok () after ∧ after.Beside bond second)

include again

theorem refreshLine_again (linked : Linked bond cut) (agrees : second.Agrees)
    (beside : first.Beside bond second) (line : Line) :
    ∃ after, first.refreshLine line = .ok () after ∧ after.Beside bond second := by
  obtain ⟨pin, known, -⟩ := agrees.known line
  have peer := linked.peer beside.bond (first.lines.id line)
  unfold LineBus.peer? at peer
  rw [← beside.lines, known] at peer
  obtain ⟨pin', known', -⟩ := Option.map_eq_some_iff.mp peer.symm
  unfold Probe.refreshLine LineBus.isDriven
  rw [← beside.lines, known']
  dsimp only
  split
  case h_1 failed => cases failed
  case h_2 => exact ⟨first, rfl, beside⟩
  case h_3 =>
    rw [beside.lines]
    exact again beside line

/-- A wake-up for nothing: what is driven anew is driven as before, and no stretch ends. -/
theorem pause_for_nothing (linked : Linked bond cut) (agrees : second.Agrees)
    (early : second.stretch.isDue second.now = false) {woken : Probe β}
    (waited : first.wait (if first.stretch.isPending then .cycle else .change) = .ok () woken)
    (beside : woken.Beside bond second) :
    ∃ after, first.pause = .ok () after ∧ after.Beside bond second := by
  obtain ⟨clocked, clock, beside'⟩ := linked.refreshLine_again again agrees beside .clock
  obtain ⟨after, data, beside''⟩ := linked.refreshLine_again again agrees beside' .data
  have refreshed : woken.refresh = .ok () after := by
    unfold Probe.refresh
    rw [clock, Outcome.andThen_ok, data]
  have undue : woken.releaseWhenDue = .ok () woken := by
    unfold Probe.releaseWhenDue
    rw [← linked.same_now beside, ← beside.stretch, early]
    rfl
  refine ⟨after, ?_, beside''⟩
  unfold Probe.pause
  dsimp only
  split
  case isTrue pending =>
    rw [if_pos pending] at waited
    rw [waited, Outcome.andThen_ok, undue, Outcome.andThen_ok, refreshed]
  case isFalse free =>
    rw [if_neg free] at waited
    rw [waited, Outcome.andThen_ok, refreshed]

end Again

end Linked

/-- Runs of which the first may be woken for nothing. What `alone` says of the second probe holds of
it between any two waits; `waits` says that the first has been woken for nothing so far. -/
structure Stutters {β γ : Type} [LineBus β] [LineBus γ] (bond : Bond β γ) (cut : Break)
    (alone : Probe γ → Prop) (waits : Probe β → Probe γ → Prop) : Prop
    extends Linked bond cut where
  kept {before after : Probe γ} : alone before → before.stretch.isPending = false →
    before.pause = .ok () after → alone after
  rests {first : Probe β} {second : Probe γ} : waits first second → alone second
  begins {first : Probe β} {second : Probe γ} : first.Beside bond second → alone second →
    waits first second
  alike {first : Probe β} {second : Probe γ} : waits first second → first.Alike second
  wakes {first : Probe β} {second : Probe γ} : waits first second →
    (∃ woken, first.pause = .ok () woken ∧ waits woken second) ∨
      Probe.Abreast bond cut first.pause second.pause

namespace Stutters

variable {β γ : Type} [LineBus β] [LineBus γ] {bond : Bond β γ} {cut : Break}
  {alone : Probe γ → Prop} {waits : Probe β → Probe γ → Prop}

section Probe

variable {first : Probe β} {second : Probe γ}

theorem awaitIdle (stutters : Stutters bond cut alone waits)
    (free : first.stretch.isPending = false) (free' : second.stretch.isPending = false)
    (start : first.Beside bond second ∧ alone second ∨ waits first second ∧ second.Busy) :
    Probe.Abreast bond cut first.awaitIdle second.awaitIdle := by
  -- a busy bus is waited for on both sides
  have busy {first : Probe β} {second : Probe γ}
      (start : first.Beside bond second ∧ alone second ∨ waits first second ∧ second.Busy)
      (low : first.Busy) : waits first second ∧ second.Busy := by
    rcases start with ⟨beside, rests⟩ | waiting
    · have waiting := stutters.begins beside rests
      exact ⟨waiting, (stutters.alike waiting).busy low⟩
    · exact waiting
  -- a run that is woken for nothing sees a busy bus
  have beside_of {first : Probe β} {second : Probe γ}
      (start : first.Beside bond second ∧ alone second ∨ waits first second ∧ second.Busy)
      (idle : ¬first.Busy) : first.Beside bond second := by
    rcases start with ⟨beside, -⟩ | ⟨waiting, low⟩
    · exact beside
    · exact absurd ((stutters.alike waiting).symm.busy low) idle
  fun_induction Probe.awaitIdle first generalizing second with
  | case1 probe error missing =>
    have beside := beside_of start <| by
      rintro ⟨_, look, -⟩
      rw [missing] at look
      cases look
    rw [Probe.awaitIdle_of_missing ((stutters.look beside).trans missing)]
    exact .fail beside
  | case2 probe sight look idle =>
    have beside := beside_of start <| by
      rintro ⟨_, look', low⟩
      rw [look] at look'
      cases look'
      rw [idle] at low
      cases low
    have idle' : (second.lines.level sight .clock && second.lines.level sight .data) = true := by
      rw [beside.lines]
      exact idle
    rw [Probe.awaitIdle_of_idle ((stutters.look beside).trans look) idle', beside.detector]
    exact .ok ⟨beside.bond, beside.lines, rfl, beside.stretch⟩
  | case3 probe sight look high error woken failed =>
    obtain ⟨waiting, low⟩ := busy start ⟨sight, look, eq_false_of_ne_true high⟩
    rw [← Probe.pause_of_free free] at failed
    rw [Probe.awaitIdle_of_free free' low]
    rcases stutters.wakes waiting with ⟨_, paused, -⟩ | abreast
    · rw [failed] at paused
      cases paused
    · rw [failed] at abreast
      generalize second.pause = other at abreast
      cases abreast with
      | fail beside => exact .fail beside
      | cut broken =>
        refine .cut ?_
        cases other with
        | fail reason stopped => exact broken
        | ok _ woken' =>
          exact stutters.goes (Journal.suffix_of_silent woken'.silent_awaitIdle) broken
  | case4 probe sight look high _ woken waited ih =>
    obtain ⟨waiting, low⟩ := busy start ⟨sight, look, eq_false_of_ne_true high⟩
    rw [← Probe.pause_of_free free] at waited
    have free_woken := Probe.free_of_pause free waited
    rcases stutters.wakes waiting with ⟨_, paused, waiting⟩ | abreast
    · rw [waited] at paused
      cases paused
      exact ih free_woken free' (.inr ⟨waiting, low⟩)
    · rw [Probe.awaitIdle_of_free free' low]
      rw [waited] at abreast
      generalize paused : second.pause = other at abreast
      cases abreast with
      | @ok _ _ woken' beside =>
        have rests := stutters.kept (stutters.rests waiting) free' paused
        exact ih free_woken (Probe.free_of_pause free' paused) (.inl ⟨beside, rests⟩)

theorem settle (stutters : Stutters bond cut alone waits) {time : Nat}
    (free : first.stretch.isPending = false) (free' : second.stretch.isPending = false)
    (early : Probe.Abreast bond cut (first.letGo time) (second.letGo time))
    (rests : ∀ late, second.letGo time = .ok () late → alone late) :
    Probe.Abreast bond cut (first.settle time) (second.settle time) := by
  have stretch := first.stretch_letGo time
  have stretch' := second.stretch_letGo time
  rw [Probe.settle_eq, Probe.settle_eq]
  generalize first.letGo time = outcome at early stretch
  generalize second.letGo time = other at early stretch' rests
  cases early with
  | @ok _ late late' beside =>
    exact stutters.awaitIdle (stretch ▸ free) (stretch' ▸ free') (.inl ⟨beside, rests late' rfl⟩)
  | fail beside => exact .fail beside
  | cut broken =>
    refine .cut ?_
    cases other with
    | fail reason stopped => exact broken
    | ok _ late => exact stutters.goes (Journal.suffix_of_silent late.silent_awaitIdle) broken

end Probe

section Checker

open Checker (Beside Abreast)

variable {first : Checker β} {second : Checker γ}

theorem watch_of_turn (linked : Linked bond cut) {outcome : Outcome (Checker β) Unit}
    {other : Outcome (Checker γ) Unit} (turned : first.turn = outcome.verdict)
    (turned' : second.turn = other.verdict) (abreast : Abreast bond cut outcome other)
    (further : ∀ next next', first.turn = .ok next → second.turn = .ok next' →
      Beside bond next next' → Abreast bond cut
        (.fail next.watch.1 next.watch.2 : Outcome (Checker β) Unit)
        (.fail next'.watch.1 next'.watch.2)) :
    Abreast bond cut (.fail first.watch.1 first.watch.2 : Outcome (Checker β) Unit)
      (.fail second.watch.1 second.watch.2) := by
  rw [Checker.watch_turn first, Checker.watch_turn second, turned, turned']
  cases abreast with
  | ok beside => exact further _ _ turned turned' beside
  | fail beside => exact .fail beside
  | cut broken =>
    refine .cut ?_
    cases other with
    | fail reason stopped => exact broken
    | ok _ next => exact linked.goes next.grows_watch broken

theorem watch (stutters : Stutters bond cut alone waits)
    (config : second.config = first.config) (protocol : second.protocol = first.protocol)
    (start : first.probe.Beside bond second.probe ∨
      waits first.probe second.probe ∧ ∃ sight, second.probe.look = .ok sight ∧
        second.probe.detector.edge? second.probe.lines sight = none)
    (steady : ∀ n between, second.turns n = .ok between → alone between.probe) :
    Abreast bond cut (.fail first.watch.1 first.watch.2 : Outcome (Checker β) Unit)
      (.fail second.watch.1 second.watch.2) := by
  induction first using Checker.turn_induct generalizing second with
  | further first ih =>
    have later {next : Checker β} {next' : Checker γ} (turned : first.turn = .ok next)
        (turned' : second.turn = .ok next') (beside : Beside bond next next') :
        Abreast bond cut (.fail next.watch.1 next.watch.2 : Outcome (Checker β) Unit)
          (.fail next'.watch.1 next'.watch.2) := by
      refine ih next turned beside.config beside.protocol (.inl beside.probe) fun n between run => ?_
      refine steady (n + 1) between ?_
      unfold Checker.turns
      rw [turned']
      exact run
    have paused {sight sight' : Sight} (look : first.probe.look = .ok sight)
        (unseen : first.probe.detector.edge? first.probe.lines sight = none)
        (look' : second.probe.look = .ok sight')
        (unseen' : second.probe.detector.edge? second.probe.lines sight' = none)
        (waiting : waits first.probe second.probe) :
        Abreast bond cut (.fail first.watch.1 first.watch.2 : Outcome (Checker β) Unit)
          (.fail second.watch.1 second.watch.2) := by
      have turned := Checker.turn_of_pause look unseen
      rcases stutters.wakes waiting with ⟨woken, paused, waiting⟩ | abreast
      · rw [paused] at turned
        rw [Checker.watch_of_turn turned]
        exact ih _ turned config protocol (.inr ⟨waiting, sight', look', unseen'⟩) steady
      · exact watch_of_turn stutters.toLinked turned (Checker.turn_of_pause look' unseen')
          (Checker.abreast_mapState config protocol abreast) fun _ _ => later
    rcases start with beside | ⟨waiting, sight', look', unseen'⟩
    case inr =>
      obtain ⟨sight, look, unseen⟩ := (stutters.alike waiting).symm.unseen look' unseen'
      exact paused look unseen look' unseen' waiting
    case inl =>
      have same := stutters.look beside
      cases look : first.probe.look with
      | error error =>
        have turned : first.turn = (Outcome.fail error first).verdict :=
          Checker.turn_of_missing look
        have turned' : second.turn = (Outcome.fail error second).verdict :=
          Checker.turn_of_missing (same.trans look)
        exact watch_of_turn stutters.toLinked turned turned' (.fail ⟨beside, config, protocol⟩)
          fun _ _ => later
      | ok sight =>
        have look' := same.trans look
        have seen : second.probe.detector.edge? second.probe.lines sight =
            first.probe.detector.edge? first.probe.lines sight := by
          rw [beside.lines, beside.detector]
        cases edge : first.probe.detector.edge? first.probe.lines sight with
        | none =>
          exact paused look edge look' (seen.trans edge)
            (stutters.begins beside (steady 0 second rfl))
        | some edge' =>
          have committed : Beside bond
              { first with probe := first.probe.commit sight edge' }
              { second with probe := second.probe.commit sight edge' } :=
            ⟨stutters.commit beside sight edge', config, protocol⟩
          exact watch_of_turn stutters.toLinked (Checker.turn_of_edge look edge)
            (Checker.turn_of_edge look' (seen.trans edge))
            (Checker.react_abreast stutters.toLinked committed _) fun _ _ => later

theorem stop (stutters : Stutters bond cut alone waits)
    (config : second.config = first.config) (protocol : second.protocol = first.protocol)
    (settled : Probe.Abreast bond cut
      ((first.note (.started first.config)).probe.settle first.config.settleTime)
      ((second.note (.started second.config)).probe.settle second.config.settleTime))
    (steady : ∀ ready n between, second.startUp = .ok () ready → ready.turns n = .ok between →
      alone between.probe) :
    Abreast bond cut (.fail first.stop.1 first.stop.2 : Outcome (Checker β) Unit)
      (.fail second.stop.1 second.stop.2) := by
  have started : Abreast bond cut first.startUp second.startUp := by
    unfold Checker.startUp
    refine Checker.abreast_andThen stutters.toLinked
      (Checker.abreast_mapState config protocol settled) (fun _ first second beside => ?_)
      fun _ _ => List.suffix_refl _
    rw [beside.protocol]
    exact .ok ⟨beside.probe, beside.config, rfl⟩
  unfold Checker.stop
  generalize first.startUp = outcome at started
  generalize second.startUp = other at started steady
  cases started with
  | ok beside =>
    exact stutters.watch beside.config beside.protocol (.inl beside.probe) fun n between =>
      steady _ n between rfl
  | fail beside => exact .fail beside
  | cut broken =>
    refine .cut ?_
    cases other with
    | fail reason stopped => exact broken
    | ok _ ready => exact stutters.goes ready.grows_watch broken

end Checker

end Stutters
namespace Checker

variable {β γ : Type} {config : Config} {bus : β} {bus' : γ} {first : Checker β}
  {second : Checker γ}

theorem made_alike (made : ofConfig config bus = .ok first)
    (made' : ofConfig config bus' = .ok second) :
    first.config = config ∧ second.config = first.config ∧ second.protocol = first.protocol := by
  unfold ofConfig at made made'
  cases accepted : config.check with
  | error wrong =>
    rw [accepted] at made
    cases made
  | ok responses =>
    rw [accepted] at made made'
    cases made
    cases made'
    exact ⟨rfl, rfl, rfl⟩

theorem exists_of_made (made : ofConfig config bus = .ok first) (bus' : γ) :
    ∃ second, ofConfig config bus' = .ok second := by
  unfold ofConfig at made ⊢
  cases accepted : config.check with
  | error wrong =>
    rw [accepted] at made
    cases made
  | ok responses => exact ⟨_, rfl⟩

variable [LineBus β] [LineBus γ]

def start (checker : Checker β) : Probe β := (checker.note (.started checker.config)).probe

theorem start_of_made (made : ofConfig config bus = .ok first) :
    first.start =
      { bus, lines := { clock := config.clock, data := config.data }
        stretch := { duration := config.clockStretch }, journal := [.started config] } := by
  unfold start note Probe.note
  rw [new_of_ofConfig made, (made_alike made made).1]

theorem beside_of_made {bond : Bond β γ} (made : ofConfig config bus = .ok first)
    (made' : ofConfig config bus' = .ok second)
    (bonded : bond bus [.started config] bus' [.started config]) :
    first.start.Beside bond second.start := by
  rw [start_of_made made, start_of_made made']
  exact ⟨bonded, rfl, rfl, rfl⟩

end Checker

theorem Stutters.stop_of_made {β γ : Type} [LineBus β] [LineBus γ] {config : Config} {bus : β}
    {bus' : γ} {first : Checker β} {second : Checker γ} {bond : Bond β γ} {cut : Break}
    {alone : Probe γ → Prop} {waits : Probe β → Probe γ → Prop}
    (stutters : Stutters bond cut alone waits)
    (made : Checker.ofConfig config bus = .ok first)
    (made' : Checker.ofConfig config bus' = .ok second)
    (early : Probe.Abreast bond cut (first.start.letGo config.settleTime)
      (second.start.letGo config.settleTime))
    (rests : ∀ late, second.start.letGo config.settleTime = .ok () late → alone late)
    (steady : ∀ ready n between, second.startUp = .ok () ready → ready.turns n = .ok between →
      alone between.probe) :
    Checker.Abreast bond cut (.fail first.stop.1 first.stop.2 : Outcome (Checker β) Unit)
      (.fail second.stop.1 second.stop.2) := by
  obtain ⟨same, config', protocol⟩ := Checker.made_alike made made'
  have free : first.start.stretch.isPending = false := by
    rw [Checker.start_of_made made]
    rfl
  have free' : second.start.stretch.isPending = false := by
    rw [Checker.start_of_made made']
    rfl
  have settled := stutters.settle free free' early rests
  rw [← same] at settled
  refine stutters.stop config' protocol ?_ steady
  rw [config']
  unfold Checker.start at settled
  rw [config'] at settled
  exact settled

namespace Checker

variable {β γ : Type}

/-- The same is told of two runs, and they leave their checkers in the same state, but for the buses. -/
structure SameTold (first : BusError × Checker β) (second : BusError × Checker γ) : Prop where
  error : second.1 = first.1
  told : second.2.probe.journal.told = first.2.probe.journal.told
  pushed : second.2.probe.journal.pushed = first.2.probe.journal.pushed
  config : second.2.config = first.2.config
  protocol : second.2.protocol = first.2.protocol
  lines : second.2.probe.lines = first.2.probe.lines
  detector : second.2.probe.detector = first.2.probe.detector
  stretch : second.2.probe.stretch = first.2.probe.stretch

theorem sameTold_of_beside {bond : Bond β γ} {first : BusError × Checker β}
    {second : BusError × Checker γ} (error : second.1 = first.1)
    (beside : Beside bond first.2 second.2)
    (told : second.2.probe.journal.told = first.2.probe.journal.told) : SameTold first second := by
  refine ⟨error, told, ?_, beside.config, beside.protocol, beside.probe.lines,
    beside.probe.detector, beside.probe.stretch⟩
  rw [← Journal.pushed_told, told, Journal.pushed_told]

variable [LineBus β] [LineBus γ]

theorem run_of_stop {bond : Bond β γ} {first : Checker β} {second : Checker γ}
    (linked : Linked bond fun _ _ _ => False)
    (stop : Abreast bond (fun _ _ _ => False)
      (.fail first.stop.1 first.stop.2 : Outcome (Checker β) Unit)
      (.fail second.stop.1 second.stop.2)) :
    second.run.1 = first.run.1 ∧ Beside bond first.run.2 second.run.2 := by
  rw [run_eq_stop, run_eq_stop]
  generalize first.stop = stopped at stop ⊢
  generalize second.stop = stopped' at stop ⊢
  obtain ⟨error, stopped⟩ := stopped
  obtain ⟨error', stopped'⟩ := stopped'
  cases stop with
  | cut broken => exact broken.elim
  | fail beside =>
    have now : stopped'.now = stopped.now := linked.same_now beside.probe
    rw [now]
    exact ⟨rfl, beside.noted linked rfl⟩

end Checker
end TwoWire
