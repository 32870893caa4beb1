import TwoWire.Proofs.Telling

/-! The grammar of what is reported. A `Standing` is all that has to be kept of what was heard so
far to tell whether the next finding fits; what fits between two starts is a segment. -/

namespace TwoWire

namespace Event

def isStart : Event → Bool
  | .startBit | .repeatedStart => true
  | _ => false

def isCommand : Event → Bool
  | .transactionStarted .. => true
  | _ => false

def isAcknowledge : Event → Bool
  | .sendingAck | .sendingNack | .peerAck | .peerNack => true
  | _ => false

def isReceived : Event → Bool
  | .byteReceived _ => true
  | _ => false

def isOurs : Event → Bool
  | .sendingAck | .sendingNack => true
  | _ => false

def isTransfer (event : Event) : Bool :=
  event.isByte || event.isCommand || event.isAcknowledge || decide (event = .waitingForStop)

end Event

namespace Finding

def closes : Finding → Bool
  | .event .stopBit | .violation (.illegalPhase _) => true
  | _ => false

inductive Speeds : List Finding → Prop
  | unknown : Speeds []
  | met (kbps : Nat) : Speeds [.event (.speed kbps)]
  | broken (kbps : Nat) (verdict : SpeedVerdict) (measured expected : Nat) :
    Speeds [.event (.speed kbps), .violation (.speed verdict measured expected)]

end Finding

/-- There is no byte, or the first is a command. It is told as one after no more than its speed;
there is no other command, and the bytes after it go the way that it says. -/
inductive Commanded : List Finding → Prop
  | none {findings : List Finding}
      (quiet : ∀ event, .event event ∈ findings → event.isTransfer = false) : Commanded findings
  | command {early speeds rest : List Finding} (byte : UInt8)
      (quiet : ∀ event, .event event ∈ early → event.isTransfer = false)
      (timed : Finding.Speeds speeds)
      (serves : ∀ event, .event event ∈ rest → event.isCommand = false ∧ (event.isByte = true →
        event.isReceived = decide (Direction.ofAddressByte byte = .write))) :
    Commanded (early ++ .event (.byteReceived byte) :: (speeds ++
      .event (.transactionStarted (.ofAddressByte byte) (byte >>> 1)) :: rest))

/-- What is reported between a start and the next one. -/
structure Segment (findings : List Finding) : Prop where
  command : Commanded findings
  /-- A byte is acknowledged once before the next one. -/
  between : ∀ early first middle second late,
    findings = early ++ .event first :: (middle ++ .event second :: late) →
    first.isByte = true → second.isByte = true → middle.countP (Finding.shows Event.isByte) = 0 →
      middle.countP (Finding.shows Event.isAcknowledge) = 1
  /-- The last byte is acknowledged at most once. -/
  last : ∀ early byte late, findings = early ++ .event byte :: late →
    byte.isByte = true → late.countP (Finding.shows Event.isByte) = 0 →
      late.countP (Finding.shows Event.isAcknowledge) ≤ 1
  /-- We acknowledge what we received, and the peer what we have sent. -/
  sides : ∀ early byte middle acknowledge late,
    findings = early ++ .event byte :: (middle ++ .event acknowledge :: late) →
    byte.isByte = true → acknowledge.isAcknowledge = true →
    middle.countP (Finding.shows Event.isByte) = 0 → acknowledge.isOurs = byte.isReceived
  /-- A byte of ours that is refused is followed by waiting for a stop, and nothing else is. -/
  refused : ∀ early finding late, findings = early ++ finding :: late →
    (finding = .event .peerNack ↔ late.head? = some (.event .waitingForStop))
  unrefused : findings.head? ≠ some (.event .waitingForStop)
  /-- Nothing is transferred after a stop or in the illegal phase. -/
  closed : ∀ early finding late, findings = early ++ finding :: late → finding.closes = true →
    ∀ event, .event event ∈ late → event.isTransfer = false

/-- Where a stream of findings stands. -/
inductive Standing
  /-- Nothing is transferred before the next start. -/
  | idle
  /-- A start, and no byte since. -/
  | begun
  /-- The first byte, still to be told as a command, and how much was told of its speed. -/
  | naming (byte : UInt8) (timed : Nat)
  /-- A byte that has not been acknowledged, which is ours or the peer's to do. -/
  | unanswered (direction : Direction) (ours : Bool)
  /-- A byte of ours was refused, which is still to be followed by waiting for a stop. -/
  | refused (direction : Direction)
  | answered (direction : Direction)
  deriving DecidableEq, Repr

namespace Standing

def isSettled : Standing → Bool
  | .naming .. | .refused _ => false
  | _ => true

/-- What a finding leads to, where it fits. -/
inductive Step : Standing → Finding → Standing → Prop
  | start {standing : Standing} {event : Event} (settled : standing.isSettled = true)
      (starts : event.isStart = true) : Step standing (.event event) .begun
  | close {standing : Standing} {finding : Finding} (settled : standing.isSettled = true)
      (closes : finding.closes = true) : Step standing finding .idle
  | fault {standing : Standing} {broken : Violation} (settled : standing.isSettled = true)
      (legal : broken.kind ≠ .illegalPhase) : Step standing (.violation broken) standing
  | speed {standing : Standing} (settled : standing.isSettled = true) (kbps : Nat) :
    Step standing (.event (.speed kbps)) standing
  | first (byte : UInt8) : Step .begun (.event (.byteReceived byte)) (.naming byte 0)
  | timed (byte : UInt8) (kbps : Nat) :
    Step (.naming byte 0) (.event (.speed kbps)) (.naming byte 1)
  | judged (byte : UInt8) (verdict : SpeedVerdict) (measured expected : Nat) :
    Step (.naming byte 1) (.violation (.speed verdict measured expected)) (.naming byte 2)
  | named (byte : UInt8) (timed : Nat) :
    Step (.naming byte timed) (.event (.transactionStarted (.ofAddressByte byte) (byte >>> 1)))
      (.unanswered (.ofAddressByte byte) true)
  | received (byte : UInt8) :
    Step (.answered .write) (.event (.byteReceived byte)) (.unanswered .write true)
  | sent : Step (.answered .read) (.event .byteSent) (.unanswered .read false)
  | given {event : Event} (direction : Direction) (ours : event.isOurs = true) :
    Step (.unanswered direction true) (.event event) (.answered direction)
  | acknowledged (direction : Direction) :
    Step (.unanswered direction false) (.event .peerAck) (.answered direction)
  | refused (direction : Direction) :
    Step (.unanswered direction false) (.event .peerNack) (.refused direction)
  | waiting (direction : Direction) :
    Step (.refused direction) (.event .waitingForStop) (.answered direction)

inductive Hears : Standing → List Finding → Standing → Prop
  | nil (standing : Standing) : Hears standing [] standing
  | cons {standing next finish : Standing} {finding : Finding} {rest : List Finding}
      (first : Step standing finding next) (later : Hears next rest finish) :
    Hears standing (finding :: rest) finish

variable {standing middle next finish : Standing} {finding : Finding} {event : Event}
  {findings early late : List Finding}

theorem Hears.append (first : Hears standing early middle) (second : Hears middle late finish) :
    Hears standing (early ++ late) finish := by
  induction first with
  | nil => exact second
  | cons step _ ih => exact .cons step (ih second)

theorem Hears.of_append (h : Hears standing (early ++ late) finish) :
    ∃ middle, Hears standing early middle ∧ Hears middle late finish := by
  induction early generalizing standing with
  | nil => exact ⟨standing, .nil _, h⟩
  | cons finding rest ih =>
    cases h with
    | cons step later =>
      obtain ⟨middle, first, second⟩ := ih later
      exact ⟨middle, .cons step first, second⟩

/-- Findings without a start among them that all fit, with nothing still to be told after them. -/
structure Covers (standing : Standing) (findings : List Finding) : Prop where
  within : ∀ finding ∈ findings, finding.shows Event.isStart = false
  heard : ∃ finish, Hears standing findings finish ∧ finish.isSettled = true

theorem Covers.of_cons (h : standing.Covers (finding :: late)) :
    ∃ next, Step standing finding next ∧ finding.shows Event.isStart = false ∧
      next.Covers late := by
  obtain ⟨within, finish, heard, settled⟩ := h
  cases heard with
  | cons step later =>
    exact ⟨_, step, within _ List.mem_cons_self,
      fun other mem => within other (List.mem_cons_of_mem _ mem), finish, later, settled⟩

theorem Covers.of_append (h : standing.Covers (early ++ late)) :
    ∃ middle, Hears standing early middle ∧
      (∀ finding ∈ early, finding.shows Event.isStart = false) ∧ middle.Covers late := by
  obtain ⟨within, finish, heard, settled⟩ := h
  obtain ⟨middle, first, second⟩ := heard.of_append
  exact ⟨middle, first, fun finding mem => within finding (List.mem_append_left _ mem),
    fun finding mem => within finding (List.mem_append_right _ mem), finish, second, settled⟩

theorem start_of_step (step : Step standing (.event event) next) (starts : event.isStart = true) :
    standing.isSettled = true ∧ next = .begun := by
  cases step with
  | start settled => exact ⟨settled, rfl⟩
  | close _ closes =>
    cases event with
    | startBit | repeatedStart => cases closes
    | _ => cases starts
  | given _ ours =>
    cases event with
    | startBit | repeatedStart => cases ours
    | _ => cases starts
  | _ => cases starts

theorem covers_splitOnP (heard : Hears standing findings finish)
    (settled : finish.isSettled = true) :
    ∃ opening segments, findings.splitOnP (Finding.shows Event.isStart) = opening :: segments ∧
      standing.Covers opening ∧ ∀ segment ∈ segments, Covers .begun segment := by
  induction heard with
  | nil standing => exact ⟨[], [], List.splitOnP_nil, ⟨nofun, standing, .nil _, settled⟩, nofun⟩
  | @cons standing next finish finding rest step later ih =>
    obtain ⟨opening, segments, split, ⟨within, last, heard, done⟩, covers⟩ := ih settled
    rw [List.splitOnP_cons_eq_if_modifyHead, split]
    cases starts : finding.shows Event.isStart with
    | true =>
      cases finding with
      | violation => cases starts
      | event event =>
        obtain ⟨before, rfl⟩ := start_of_step step starts
        refine ⟨[], opening :: segments, if_pos rfl, ⟨nofun, standing, .nil _, before⟩, ?_⟩
        intro segment mem
        rcases List.mem_cons.mp mem with rfl | mem
        · exact ⟨within, last, heard, done⟩
        · exact covers segment mem
    | false =>
      refine ⟨finding :: opening, segments, rfl, ⟨?_, last, .cons step heard, done⟩, covers⟩
      intro other mem
      rcases List.mem_cons.mp mem with rfl | mem
      · exact starts
      · exact within other mem

theorem quiet_of_closes (closes : finding.closes = true) :
    finding.shows Event.isTransfer = false := by
  cases finding with
  | violation => rfl
  | event event => cases event <;> first | rfl | cases closes

theorem unacknowledged_of_quiet (quiet : finding.shows Event.isTransfer = false) :
    finding.shows Event.isAcknowledge = false := by
  cases finding with
  | violation => rfl
  | event event => cases event <;> first | rfl | cases quiet

theorem quiet_of_idle (h : Covers .idle findings) :
    ∀ event, .event event ∈ findings → event.isTransfer = false := by
  induction findings with
  | nil => exact nofun
  | cons finding rest ih =>
    obtain ⟨next, step, within, later⟩ := h.of_cons
    have stays : next = .idle ∧ finding.shows Event.isTransfer = false := by
      cases step with
      | start _ starts => cases starts.symm.trans within
      | close _ closes => exact ⟨rfl, quiet_of_closes closes⟩
      | fault => exact ⟨rfl, rfl⟩
      | speed => exact ⟨rfl, rfl⟩
    obtain ⟨rfl, quiet⟩ := stays
    intro event mem
    rcases List.mem_cons.mp mem with rfl | mem
    · exact quiet
    · exact ih later event mem

theorem idle_of_closes (step : Step standing finding next) (closes : finding.closes = true) :
    next = .idle := by
  cases step with
  | close => rfl
  | @start _ event _ starts =>
    cases event with
    | stopBit => cases starts
    | _ => cases closes
  | @fault _ broken _ legal =>
    cases broken <;> first | exact absurd rfl legal | cases closes
  | @given event _ ours =>
    cases event with
    | stopBit => cases ours
    | _ => cases closes
  | _ => cases closes

theorem naming_of_step {byte : UInt8} {timed : Nat}
    (step : Step (.naming byte timed) finding next) :
    (finding = .event (.transactionStarted (.ofAddressByte byte) (byte >>> 1)) ∧
        next = .unanswered (.ofAddressByte byte) true) ∨
      (timed = 0 ∧ ∃ kbps, finding = .event (.speed kbps) ∧ next = .naming byte 1) ∨
      (timed = 1 ∧ ∃ verdict measured expected,
        finding = .violation (.speed verdict measured expected) ∧ next = .naming byte 2) := by
  cases step with
  | named => exact .inl ⟨rfl, rfl⟩
  | timed _ kbps => exact .inr (.inl ⟨rfl, kbps, rfl, rfl⟩)
  | judged _ verdict measured expected =>
    exact .inr (.inr ⟨rfl, verdict, measured, expected, rfl, rfl⟩)
  | start settled => cases settled
  | close settled => cases settled
  | fault settled => cases settled
  | speed settled => cases settled

theorem covers_of_naming {byte : UInt8} {timed : Nat} (h : Covers (.naming byte timed) findings) :
    ∃ finding rest next, findings = finding :: rest ∧ Step (.naming byte timed) finding next ∧
      Covers next rest := by
  cases findings with
  | nil =>
    obtain ⟨-, finish, heard, settled⟩ := h
    cases heard
    cases settled
  | cons finding rest =>
    obtain ⟨next, step, -, later⟩ := h.of_cons
    exact ⟨finding, rest, next, rfl, step, later⟩

theorem command_of_naming {byte : UInt8} (h : Covers (.naming byte 0) findings) :
    ∃ speeds rest, findings = speeds ++
        .event (.transactionStarted (.ofAddressByte byte) (byte >>> 1)) :: rest ∧
      Finding.Speeds speeds ∧ Covers (.unanswered (.ofAddressByte byte) true) rest := by
  obtain ⟨first, rest, next, rfl, step, later⟩ := covers_of_naming h
  rcases naming_of_step step with ⟨rfl, rfl⟩ | ⟨-, kbps, rfl, rfl⟩ | ⟨none, -⟩
  case inr.inr => cases none
  case inl => exact ⟨[], rest, rfl, .unknown, later⟩
  obtain ⟨second, rest, next, rfl, step, later⟩ := covers_of_naming later
  rcases naming_of_step step with
    ⟨rfl, rfl⟩ | ⟨none, -⟩ | ⟨-, verdict, measured, expected, rfl, rfl⟩
  case inr.inl => cases none
  case inl => exact ⟨_, rest, rfl, .met kbps, later⟩
  obtain ⟨third, rest, next, rfl, step, later⟩ := covers_of_naming later
  rcases naming_of_step step with ⟨rfl, rfl⟩ | ⟨none, -⟩ | ⟨none, -⟩
  case inl => exact ⟨_, rest, rfl, .broken kbps verdict measured expected, later⟩
  all_goals cases none

def Serves (direction : Direction) : Standing → Prop
  | .idle => True
  | .unanswered other _ | .refused other | .answered other => other = direction
  | .begun | .naming .. => False

theorem serves_of_step {direction : Direction} (step : Step standing finding next)
    (within : finding.shows Event.isStart = false) (serves : standing.Serves direction) :
    next.Serves direction ∧ finding.shows Event.isCommand = false ∧
      (finding.shows Event.isByte = true →
        finding.shows Event.isReceived = decide (direction = .write)) := by
  cases step with
  | start _ starts => cases starts.symm.trans within
  | close _ closes =>
    refine ⟨trivial, ?_⟩
    cases finding with
    | violation => exact ⟨rfl, nofun⟩
    | event event =>
      cases event with
      | stopBit => exact ⟨rfl, nofun⟩
      | _ => cases closes
  | fault | speed => exact ⟨serves, rfl, nofun⟩
  | first | timed | judged | named => cases serves
  | received | sent =>
    cases serves
    exact ⟨rfl, rfl, fun _ => rfl⟩
  | @given event _ ours =>
    refine ⟨serves, ?_⟩
    cases event with
    | sendingAck | sendingNack => exact ⟨rfl, nofun⟩
    | _ => cases ours
  | acknowledged | refused | waiting => exact ⟨serves, rfl, nofun⟩

theorem serves_of_covers {direction : Direction} (h : standing.Covers findings)
    (serves : standing.Serves direction) : ∀ event, .event event ∈ findings →
      event.isCommand = false ∧
        (event.isByte = true → event.isReceived = decide (direction = .write)) := by
  induction findings generalizing standing with
  | nil => exact nofun
  | cons finding rest ih =>
    obtain ⟨next, step, within, later⟩ := h.of_cons
    obtain ⟨still, fits⟩ := serves_of_step step within serves
    intro event mem
    rcases List.mem_cons.mp mem with rfl | mem
    · exact fits
    · exact ih later still event mem

theorem commanded_cons {finding : Finding} {findings : List Finding}
    (quiet : finding.shows Event.isTransfer = false) (h : Commanded findings) :
    Commanded (finding :: findings) := by
  have more {early : List Finding}
      (still : ∀ event, .event event ∈ early → event.isTransfer = false) :
      ∀ event, .event event ∈ finding :: early → event.isTransfer = false := by
    intro event mem
    rcases List.mem_cons.mp mem with rfl | mem
    · exact quiet
    · exact still event mem
  cases h with
  | none still => exact .none (more still)
  | command byte still timed serves =>
    rw [← List.cons_append]
    exact .command byte (more still) timed serves

theorem commanded_of_begun (h : Covers .begun findings) : Commanded findings := by
  induction findings with
  | nil => exact .none nofun
  | cons finding rest ih =>
    obtain ⟨next, step, within, later⟩ := h.of_cons
    cases step with
    | start _ starts => cases starts.symm.trans within
    | close _ closes =>
      exact commanded_cons (quiet_of_closes closes) (.none (quiet_of_idle later))
    | fault => exact commanded_cons rfl (ih later)
    | speed => exact commanded_cons rfl (ih later)
    | first byte =>
      obtain ⟨speeds, rest, rfl, timed, after⟩ := command_of_naming later
      exact @Commanded.command [] _ _ byte nofun timed (serves_of_covers after rfl)

/-- What is known since a byte was told, after so many acknowledge bits. -/
def Since (byte : Event) (count : Nat) : Standing → Prop
  | .naming .. => byte.isReceived = true ∧ count = 0
  | .unanswered _ ours => byte.isReceived = ours ∧ count = 0
  | .refused _ | .answered _ => count = 1
  | .idle => count ≤ 1
  | .begun => False

theorem byte_of_step {byte : Event} (step : Step standing (.event byte) next)
    (told : byte.isByte = true) :
    (standing = .begun ∧ ∃ octet, byte = .byteReceived octet ∧ next = .naming octet 0) ∨
      ∃ direction, standing = .answered direction ∧
        next = .unanswered direction byte.isReceived := by
  cases step with
  | first octet => exact .inl ⟨rfl, octet, rfl, rfl⟩
  | received => exact .inr ⟨.write, rfl, rfl⟩
  | sent => exact .inr ⟨.read, rfl, rfl⟩
  | start _ starts =>
    cases byte with
    | byteReceived | byteSent => cases starts
    | _ => cases told
  | close _ closes =>
    cases byte with
    | byteReceived | byteSent => cases closes
    | _ => cases told
  | given _ ours =>
    cases byte with
    | byteReceived | byteSent => cases ours
    | _ => cases told
  | _ => cases told

theorem since_byte {byte : Event} (step : Step standing (.event byte) next)
    (told : byte.isByte = true) : next.Since byte 0 := by
  obtain ⟨-, octet, rfl, rfl⟩ | ⟨direction, -, rfl⟩ := byte_of_step step told
  · exact ⟨rfl, rfl⟩
  · exact ⟨rfl, rfl⟩

theorem Since.count_le_one {byte : Event} {count : Nat} (h : standing.Since byte count) :
    count ≤ 1 := by
  cases standing with
  | idle => exact h
  | begun => cases h
  | unanswered | naming => exact h.2 ▸ Nat.zero_le 1
  | refused | answered => exact Nat.le_of_eq h

theorem since_of_step {byte : Event} {count : Nat} (step : Step standing finding next)
    (within : finding.shows Event.isStart = false) (alone : finding.shows Event.isByte = false)
    (since : standing.Since byte count) :
    next.Since byte (count + (finding.shows Event.isAcknowledge).toNat) ∧
      ∀ acknowledge, finding = .event acknowledge → acknowledge.isAcknowledge = true →
        acknowledge.isOurs = byte.isReceived := by
  cases step with
  | start _ starts => cases starts.symm.trans within
  | close _ closes =>
    have quiet := unacknowledged_of_quiet (quiet_of_closes closes)
    rw [quiet]
    refine ⟨since.count_le_one, ?_⟩
    rintro acknowledge rfl acknowledges
    cases acknowledges.symm.trans quiet
  | fault => exact ⟨since, nofun⟩
  | speed | timed | judged => exact ⟨since, by rintro _ ⟨⟩ ⟨⟩⟩
  | named => exact ⟨since, by rintro _ ⟨⟩ ⟨⟩⟩
  | first | received | sent => cases alone
  | @given event _ ours =>
    obtain ⟨received, rfl⟩ := since
    have acknowledges : (Finding.event event).shows Event.isAcknowledge = true := by
      cases event <;> first | rfl | cases ours
    rw [acknowledges]
    refine ⟨rfl, ?_⟩
    rintro _ ⟨⟩ -
    exact ours.trans received.symm
  | acknowledged | refused =>
    obtain ⟨received, rfl⟩ := since
    refine ⟨rfl, ?_⟩
    rintro _ ⟨⟩ -
    exact received.symm
  | waiting => exact ⟨since, by rintro _ ⟨⟩ ⟨⟩⟩

theorem since_of_hears {byte : Event} {count : Nat} (heard : Hears standing findings next)
    (within : ∀ finding ∈ findings, finding.shows Event.isStart = false)
    (alone : findings.countP (Finding.shows Event.isByte) = 0)
    (since : standing.Since byte count) :
    next.Since byte (count + findings.countP (Finding.shows Event.isAcknowledge)) := by
  induction heard generalizing count with
  | nil => exact since
  | @cons _ _ _ finding rest step _ ih =>
    have single : finding.shows Event.isByte = false :=
      eq_false_of_ne_true (List.countP_eq_zero.mp alone finding List.mem_cons_self)
    rw [List.countP_cons_of_neg (by rw [single]; exact Bool.false_ne_true)] at alone
    have later := ih (fun other mem => within other (List.mem_cons_of_mem _ mem)) alone
      (since_of_step step (within finding List.mem_cons_self) single since).1
    rw [List.countP_cons]
    cases acknowledges : finding.shows Event.isAcknowledge <;> rw [acknowledges] at later
    · exact later
    · rw [Nat.add_right_comm] at later
      exact later

theorem covers_of_byte {byte : Event} (h : standing.Covers (early ++ .event byte :: late))
    (told : byte.isByte = true) : ∃ next : Standing, next.Since byte 0 ∧ next.Covers late := by
  obtain ⟨before, -, -, h⟩ := h.of_append
  obtain ⟨after, step, -, later⟩ := h.of_cons
  exact ⟨after, since_byte step told, later⟩

theorem count_of_byte {byte second : Event} {count : Nat}
    (step : Step standing (.event second) next) (told : second.isByte = true)
    (since : standing.Since byte count) : count = 1 := by
  obtain ⟨rfl, -⟩ | ⟨direction, rfl, -⟩ := byte_of_step step told
  · cases since
  · exact since

theorem refused_of_peerNack (step : Step standing (.event .peerNack) next) :
    ∃ direction, next = .refused direction := by
  cases step with
  | refused direction => exact ⟨direction, rfl⟩
  | start _ starts => cases starts
  | close _ closes => cases closes
  | given _ ours => cases ours

theorem refused_of_waiting (step : Step standing (.event .waitingForStop) next) :
    ∃ direction, standing = .refused direction := by
  cases step with
  | waiting direction => exact ⟨direction, rfl⟩
  | start _ starts => cases starts
  | close _ closes => cases closes
  | given _ ours => cases ours

theorem waiting_of_refused {direction : Direction} (h : Covers (.refused direction) findings) :
    findings.head? = some (.event .waitingForStop) := by
  cases findings with
  | nil =>
    obtain ⟨-, finish, heard, settled⟩ := h
    cases heard
    cases settled
  | cons finding rest =>
    obtain ⟨next, step, -, -⟩ := h.of_cons
    cases step with
    | waiting => rfl
    | start settled => cases settled
    | close settled => cases settled
    | fault settled => cases settled
    | speed settled => cases settled

theorem peerNack_of_refused {direction : Direction}
    (step : Step standing finding (.refused direction)) : finding = .event .peerNack := by
  cases step with
  | refused => rfl
  | fault settled => cases settled
  | speed settled => cases settled

theorem segment_of_covers (h : Covers .begun findings) : Segment findings where
  command := commanded_of_begun h
  between := by
    rintro early first middle second late rfl firstByte secondByte alone
    obtain ⟨after, since, h⟩ := covers_of_byte h firstByte
    obtain ⟨before, heard, within, h⟩ := h.of_append
    obtain ⟨_, step, -, -⟩ := h.of_cons
    have count := count_of_byte step secondByte (since_of_hears heard within alone since)
    rw [Nat.zero_add] at count
    exact count
  last := by
    rintro early byte late rfl told alone
    obtain ⟨after, since, within, finish, heard, -⟩ := covers_of_byte h told
    have few := (since_of_hears heard within alone since).count_le_one
    rw [Nat.zero_add] at few
    exact few
  sides := by
    rintro early byte middle acknowledge late rfl told acknowledges alone
    obtain ⟨after, since, h⟩ := covers_of_byte h told
    obtain ⟨before, heard, within, h⟩ := h.of_append
    obtain ⟨_, step, outside, -⟩ := h.of_cons
    have unsent : (Finding.event acknowledge).shows Event.isByte = false := by
      cases acknowledge <;> first | rfl | cases acknowledges
    exact (since_of_step step outside unsent (since_of_hears heard within alone since)).2
      acknowledge rfl acknowledges
  refused := by
    rintro early finding late rfl
    obtain ⟨before, -, -, h⟩ := h.of_append
    obtain ⟨after, step, -, later⟩ := h.of_cons
    constructor
    · rintro rfl
      obtain ⟨direction, rfl⟩ := refused_of_peerNack step
      exact waiting_of_refused later
    · intro waits
      obtain ⟨rest, rfl⟩ := List.head?_eq_some_iff.mp waits
      obtain ⟨_, second, -, -⟩ := later.of_cons
      obtain ⟨direction, rfl⟩ := refused_of_waiting second
      exact peerNack_of_refused step
  unrefused := by
    intro waits
    obtain ⟨rest, rfl⟩ := List.head?_eq_some_iff.mp waits
    obtain ⟨_, step, -, -⟩ := h.of_cons
    obtain ⟨direction, same⟩ := refused_of_waiting step
    cases same
  closed := by
    rintro early finding late rfl closes
    obtain ⟨before, -, -, h⟩ := h.of_append
    obtain ⟨after, step, -, later⟩ := h.of_cons
    rw [idle_of_closes step closes] at later
    exact quiet_of_idle later

end Standing
end TwoWire
