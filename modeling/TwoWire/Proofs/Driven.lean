import TwoWire.Proofs.Calls
import TwoWire.Proofs.Passage

/-! What a run asks of its bus: a drive or a wait at a time. On a bus that loses no drive the lines
are driven as the checker remembers it (`agrees_of_passes`). -/

namespace TwoWire

namespace Probe

variable {β : Type} [LineBus β]

/-- What leads from one probe to another: drives and waits that go through, and whatever leaves the
bus and our side of the lines alone. -/
inductive Acts : Probe β → Probe β → Prop
  | aside {before after : Probe β} (bus : after.bus = before.bus)
      (lines : after.lines = before.lines) : Acts before after
  | drive {before after : Probe β} {line : Line} {level : Bool}
      (driven : before.drive line level = .ok () after) : Acts before after
  | wait {before after : Probe β} {kind : WaitKind}
      (waited : before.wait kind = .ok () after) : Acts before after
  | trans {first middle last : Probe β} (early : Acts first middle) (late : Acts middle last) :
      Acts first last

theorem drive_ok {probe after : Probe β} {line : Line} {level : Bool}
    (driven : probe.drive line level = .ok () after) :
    LineBus.drive probe.bus (probe.lines.id line) level = .ok () after.bus ∧
      after.lines = probe.lines.setWeak line level := by
  have lines := probe.lines_drive line level
  rw [driven] at lines
  refine ⟨?_, lines⟩
  unfold drive at driven
  dsimp only at driven
  rw [Lines.id_setWeak] at driven
  cases reached : LineBus.drive probe.bus (probe.lines.id line) level with
  | ok value bus =>
    rw [reached] at driven
    cases driven
    rfl
  | fail error bus =>
    rw [reached] at driven
    cases driven

theorem acts_refreshLine {probe after : Probe β} {line : Line}
    (refreshed : probe.refreshLine line = .ok () after) : Acts probe after := by
  unfold refreshLine at refreshed
  split at refreshed
  · cases refreshed
  · cases refreshed
    exact .aside rfl rfl
  · exact .drive refreshed

theorem acts_refresh {probe after : Probe β} (refreshed : probe.refresh = .ok () after) :
    Acts probe after := by
  obtain ⟨_, middle, clock, data⟩ := Outcome.of_andThen refreshed
  exact (acts_refreshLine clock).trans (acts_refreshLine data)

theorem acts_releaseWhenDue {probe after : Probe β} (released : probe.releaseWhenDue = .ok () after) :
    Acts probe after := by
  unfold releaseWhenDue at released
  split at released
  · obtain ⟨_, free, driven, rest⟩ := Outcome.of_andThen released
    cases rest
    exact (Acts.drive driven).trans (.aside rfl rfl)
  · cases released
    exact .aside rfl rfl

theorem acts_pause {probe after : Probe β} (paused : probe.pause = .ok () after) :
    Acts probe after := by
  unfold pause at paused
  dsimp only at paused
  obtain ⟨_, woken, wake, refreshed⟩ := Outcome.of_andThen paused
  refine Acts.trans ?_ (acts_refresh refreshed)
  split at wake
  · obtain ⟨_, late, waited, released⟩ := Outcome.of_andThen wake
    exact (Acts.wait waited).trans (acts_releaseWhenDue released)
  · exact .wait wake

inductive Starts (first : Probe β) : Probe β → Prop
  | free {clock data : Probe β} (clockFree : first.drive .clock true = .ok () clock)
      (dataFree : clock.drive .data true = .ok () data) : Starts first data
  | settled {before after : Probe β} {time : Nat} (early : Starts first before)
      (waited : before.wait (.instant time) = .ok () after) : Starts first after
  | woken {before after : Probe β} (early : Starts first before)
      (waited : ((before.wait .change).andThen fun _ probe => probe.refresh) = .ok () after) :
      Starts first after

theorem starts_awaitIdle {first probe idle : Probe β} (early : Starts first probe)
    (awaited : probe.awaitIdle = .ok () idle) :
    ∃ late, Starts first late ∧ idle.bus = late.bus ∧ idle.lines = late.lines := by
  fun_induction awaitIdle probe with
  | case1 => cases awaited
  | case2 probe =>
    cases awaited
    exact ⟨probe, early, rfl, rfl⟩
  | case3 => cases awaited
  | case4 probe sight look busy _ woken waited ih => exact ih (early.woken waited) awaited

theorem starts_settle {first idle : Probe β} {time : Nat}
    (settled : first.settle time = .ok () idle) :
    ∃ late, Starts first late ∧ idle.bus = late.bus ∧ idle.lines = late.lines := by
  obtain ⟨_, clock, clockFree, rest⟩ := Outcome.of_andThen settled
  obtain ⟨_, data, dataFree, rest⟩ := Outcome.of_andThen rest
  obtain ⟨_, late, waited, awaited⟩ := Outcome.of_andThen rest
  exact starts_awaitIdle ((Starts.free clockFree dataFree).settled waited) awaited

structure Agrees (probe : Probe β) : Prop where
  distinct : probe.lines.clock ≠ probe.lines.data
  weak : ∀ line, LineBus.weak? probe.bus (probe.lines.id line) = some (probe.lines.weak line)

variable {before after : Probe β}

theorem called_of_acts (acts : Acts before after) : LineBus.Called before.bus after.bus := by
  induction acts with
  | aside bus => exact bus ▸ .none _
  | drive driven => exact (LineBus.Called.none _).drive (drive_ok driven).1
  | wait waited =>
    obtain ⟨bus, reached, rfl⟩ := wait_ok waited
    exact (LineBus.Called.none _).wait reached
  | trans _ _ first second => exact first.trans second

theorem weak_setWeak_of_ne (lines : Lines) {line other : Line} (apart : other ≠ line)
    (level : Bool) : (lines.setWeak line level).weak other = lines.weak other := by
  cases line <;> cases other <;> first | rfl | exact absurd rfl apart

theorem id_ne_of_distinct {lines : Lines} (distinct : lines.clock ≠ lines.data)
    {line other : Line} (apart : other ≠ line) : lines.id other ≠ lines.id line := by
  cases line <;> cases other <;>
    first | exact absurd rfl apart | exact distinct | exact distinct.symm

theorem agrees_drive (keeps : LineBus.KeepsDrives before.bus) (agrees : before.Agrees)
    {line : Line} {level : Bool} (driven : before.drive line level = .ok () after) :
    after.Agrees := by
  obtain ⟨reached, lines⟩ := drive_ok driven
  have kept := keeps.drive (.none _) reached
  constructor
  · rw [lines]
    exact (Lines.id_setWeak before.lines line level .clock).trans_ne
      (agrees.distinct.trans_eq (Lines.id_setWeak before.lines line level .data).symm)
  · intro other
    rw [lines, Lines.id_setWeak, kept]
    by_cases same : other = line
    · subst same
      rw [if_pos rfl, Lines.weak_setWeak_self]
    · rw [if_neg (id_ne_of_distinct agrees.distinct same), weak_setWeak_of_ne _ same]
      exact agrees.weak other

theorem agrees_wait (keeps : LineBus.KeepsDrives before.bus) (agrees : before.Agrees)
    {kind : WaitKind} (waited : before.wait kind = .ok () after) : after.Agrees := by
  obtain ⟨bus, reached, rfl⟩ := wait_ok waited
  exact ⟨agrees.distinct, fun line =>
    (keeps.wait (.none _) reached (before.lines.id line)).trans (agrees.weak line)⟩

theorem agrees_of_acts (acts : Acts before after) (keeps : LineBus.KeepsDrives before.bus)
    (agrees : before.Agrees) : after.Agrees := by
  induction acts with
  | aside bus lines =>
    obtain ⟨distinct, weak⟩ := agrees
    rw [← lines] at distinct
    refine ⟨distinct, fun line => ?_⟩
    rw [bus, lines]
    exact weak line
  | drive driven => exact agrees_drive keeps agrees driven
  | wait waited => exact agrees_wait keeps agrees waited
  | trans early _ first second =>
    exact second (keeps.later (called_of_acts early)) (first keeps agrees)

theorem acts_wake (waited : ((before.wait .change).andThen fun _ probe => probe.refresh) =
    .ok () after) : Acts before after := by
  obtain ⟨_, woken, waited, refreshed⟩ := Outcome.of_andThen waited
  exact (Acts.wait waited).trans (acts_refresh refreshed)

theorem acts_of_starts (starts : Starts before after) : Acts before after := by
  induction starts with
  | free clockFree dataFree => exact (Acts.drive clockFree).trans (.drive dataFree)
  | settled _ waited ih => exact ih.trans (.wait waited)
  | woken _ waited ih => exact ih.trans (acts_wake waited)

theorem weakData_of_starts (starts : Starts before after) : after.lines.weakData = true := by
  induction starts with
  | free _ dataFree =>
    rw [(drive_ok dataFree).2]
    rfl
  | settled _ waited ih =>
    obtain ⟨bus, -, rfl⟩ := wait_ok waited
    exact ih
  | @woken before _ _ waited ih =>
    obtain ⟨_, woken, waited, refreshed⟩ := Outcome.of_andThen waited
    obtain ⟨bus, -, rfl⟩ := wait_ok waited
    have same := (before.called (.waited .change) bus).refreshed_refresh.lines
    rw [refreshed] at same
    exact (congrArg Lines.weakData same).trans ih

theorem agrees_of_starts (distinct : before.lines.clock ≠ before.lines.data)
    (keeps : LineBus.KeepsDrives before.bus) (starts : Starts before after) : after.Agrees := by
  induction starts with
  | @free clock data clockFree dataFree =>
    obtain ⟨reached, lines⟩ := drive_ok clockFree
    obtain ⟨reached', lines'⟩ := drive_ok dataFree
    have first := keeps.drive (.none _) reached
    have second := keeps.drive ((LineBus.Called.none _).drive reached) reached'
    rw [lines, Lines.id_setWeak] at second
    rw [lines] at lines'
    constructor
    · rw [lines']
      exact distinct
    · intro line
      rw [lines', Lines.id_setWeak, Lines.id_setWeak, second, first]
      cases line with
      | clock =>
        rw [if_neg (id_ne_of_distinct distinct (by decide)), if_pos rfl]
        rfl
      | data =>
        rw [if_pos rfl]
        rfl
  | settled early waited ih =>
    exact agrees_wait (keeps.later (called_of_acts (acts_of_starts early))) ih waited
  | woken early waited ih =>
    exact agrees_of_acts (acts_wake waited)
      (keeps.later (called_of_acts (acts_of_starts early))) ih

end Probe

namespace Checker

variable {β : Type} [LineBus β]

open Probe (Acts)

theorem acts_report {before after : Checker β} {notes : List Note}
    (reported : before.report notes = .ok () after) : Acts before.probe after.probe := by
  rw [report_ok reported]
  exact .aside rfl rfl

theorem acts_drive {before after : Checker β} {line : Line} {level : Bool}
    (driven : before.drive line level = .ok () after) : Acts before.probe after.probe := by
  unfold drive at driven
  cases through : before.probe.drive line level with
  | ok _ probe =>
    rw [through] at driven
    cases driven
    exact .drive through
  | fail _ _ =>
    rw [through] at driven
    cases driven

theorem acts_enter {before after : Checker β} {sight : Sight} {phase : Phase}
    {forced? : Option Phase} (entered : before.enter sight phase = .ok forced? after) :
    Acts before.probe after.probe := by
  unfold enter at entered
  obtain ⟨_, told, reported, entered⟩ := Outcome.of_andThen entered
  obtain ⟨_, last, driven, entered⟩ := Outcome.of_andThen entered
  cases entered
  have start : Acts before.probe told.probe := by
    refine .trans ?_ (acts_report reported)
    exact .aside rfl rfl
  refine start.trans ?_
  unfold driveData at driven
  split at driven
  · cases driven
    exact .aside rfl rfl
  · exact acts_drive driven

theorem acts_follow {before after : Checker β} {sight : Sight} {phase : Phase}
    (followed : before.follow sight phase = .ok () after) : Acts before.probe after.probe := by
  unfold follow at followed
  obtain ⟨forced?, middle, entered, followed⟩ := Outcome.of_andThen followed
  refine (acts_enter entered).trans ?_
  split at followed
  · cases followed
    exact .aside rfl rfl
  · obtain ⟨_, last, again, followed⟩ := Outcome.of_andThen followed
    cases followed
    exact acts_enter again

theorem acts_clockEdge {before after : Checker β} {change : Change}
    (clocked : before.clockEdge change = .ok () after) : Acts before.probe after.probe := by
  unfold clockEdge at clocked
  split at clocked
  case isFalse =>
    cases clocked
    exact .aside rfl rfl
  case isTrue =>
    unfold clockFell at clocked
    dsimp only at clocked
    split at clocked
    case isFalse =>
      cases clocked
      exact .aside rfl rfl
    case isTrue =>
      obtain ⟨_, low, driven, clocked⟩ := Outcome.of_andThen clocked
      cases clocked
      have held : Acts before.probe low.probe := by
        refine .trans ?_ (acts_drive driven)
        exact .aside rfl rfl
      exact held.trans (.aside rfl rfl)

theorem acts_react {before after : Checker β} {change : Change}
    (reacted : before.react change = .ok () after) : Acts before.probe after.probe := by
  unfold react at reacted
  obtain ⟨_, judged, reported, reacted⟩ := Outcome.of_andThen reacted
  obtain ⟨_, middle, clocked, reacted⟩ := Outcome.of_andThen reacted
  obtain ⟨_, last, told, followed⟩ := Outcome.of_andThen reacted
  exact (acts_report reported).trans
    ((acts_clockEdge clocked).trans ((acts_report told).trans (acts_follow followed)))

theorem acts_turn {before next : Checker β} (turned : before.turn = .ok next) :
    Acts before.probe next.probe := by
  rcases turn_cases turned with ⟨change, committed, commits, react⟩ | ⟨woken, paused, rfl⟩
  · have first : Acts before.probe committed := by
      rw [commits.after]
      exact .aside rfl rfl
    exact first.trans (acts_react react)
  · exact Probe.acts_pause paused

theorem acts_of_passes {first next : Checker β} {told : List Finding} {entered : List Phase}
    (passes : first.Passes told entered next) : Acts first.probe next.probe := by
  induction passes with
  | none => exact .aside rfl rfl
  | turn _ turned ih => exact ih.trans (acts_turn turned)

def Starts (checker : Checker β) (late : Probe β) : Prop :=
  (checker.note (.started checker.config)).probe.Starts late

theorem starts_startUp {checker ready : Checker β} (idle : checker.startUp = .ok () ready) :
    ∃ late, checker.Starts late ∧ ready.probe.bus = late.bus ∧ ready.probe.lines = late.lines := by
  unfold startUp at idle
  cases settled : (checker.note (.started checker.config)).probe.settle
      checker.config.settleTime with
  | fail error late =>
    rw [settled] at idle
    cases idle
  | ok _ late =>
    rw [settled] at idle
    cases idle
    exact Probe.starts_settle settled

theorem acts_of_starts {checker : Checker β} {late : Probe β} (starts : checker.Starts late) :
    Acts checker.probe late := by
  refine .trans ?_ (Probe.acts_of_starts starts)
  exact .aside rfl rfl

theorem acts_startUp {checker ready : Checker β} (idle : checker.startUp = .ok () ready) :
    Acts checker.probe ready.probe := by
  obtain ⟨late, starts, bus, lines⟩ := starts_startUp idle
  exact (acts_of_starts starts).trans (.aside bus lines)

theorem weakData_startUp {checker ready : Checker β} (idle : checker.startUp = .ok () ready) :
    ready.weakData = true := by
  obtain ⟨late, starts, -, lines⟩ := starts_startUp idle
  unfold weakData
  rw [lines]
  exact Probe.weakData_of_starts starts

/-- The checker has been made from a configuration, for a bus. -/
structure Configured (config : Config) (bus : β) (checker : Checker β) : Prop where
  distinct : checker.probe.lines.clock ≠ checker.probe.lines.data
  bus : checker.probe.bus = bus
  responses : checker.protocol.responses = ⟨config.ackSequence, config.txData⟩
  fresh : checker.findings = []

omit [LineBus β] in
theorem configured_of_ofConfig {config : Config} {bus : β} {checker : Checker β}
    (made : ofConfig config bus = .ok checker) : Configured config bus checker := by
  unfold ofConfig at made
  cases accepted : config.check with
  | error wrong =>
    rw [accepted] at made
    cases made
  | ok responses =>
    rw [accepted] at made
    cases made
    refine ⟨fun same => ?_, rfl, Config.of_check accepted, rfl⟩
    unfold Config.check at accepted
    rw [if_pos (show config.clock = config.data from same)] at accepted
    cases accepted

theorem responses_startUp {checker ready : Checker β} (idle : checker.startUp = .ok () ready) :
    ready.protocol.responses = checker.protocol.responses := by
  unfold startUp at idle
  obtain ⟨_, late, settled, same⟩ := Outcome.of_andThen idle
  cases same
  revert settled
  cases (checker.note (.started checker.config)).probe.settle checker.config.settleTime with
  | fail error stopped => exact nofun
  | ok _ probe =>
    intro settled
    cases settled
    rfl

/-- If no drive is lost, the lines of the bus are driven as the checker remembers it. -/
theorem agrees_of_passes {checker ready between : Checker β} {told : List Finding}
    {entered : List Phase} (distinct : checker.probe.lines.clock ≠ checker.probe.lines.data)
    (idle : checker.startUp = .ok () ready) (passes : ready.Passes told entered between)
    (keeps : LineBus.KeepsDrives checker.probe.bus) : between.probe.Agrees := by
  obtain ⟨late, starts, bus, lines⟩ := starts_startUp idle
  have began : late.Agrees := @Probe.agrees_of_starts _ _
    (checker.note (.started checker.config)).probe late distinct keeps starts
  have still := Probe.agrees_of_acts (.aside bus lines)
    (keeps.later (Probe.called_of_acts (acts_of_starts starts))) began
  exact Probe.agrees_of_acts (acts_of_passes passes)
    (keeps.later (Probe.called_of_acts (acts_startUp idle))) still

theorem low_of_passes {checker ready between : Checker β} {told : List Finding}
    {entered : List Phase} (idle : checker.startUp = .ok () ready)
    (passes : ready.Passes told entered between)
    (drain : LineBus.OpenDrain checker.probe.bus) (id : LineId) :
    LineBus.peer? between.probe.bus id ≠ some (some true) :=
  drain _ (Probe.called_of_acts ((acts_startUp idle).trans (acts_of_passes passes))) id

end Checker
end TwoWire
