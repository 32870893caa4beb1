import Mathlib.Algebra.Order.Ring.Nat
import TwoWire.Proofs.Octet

/-! Transactions of the controller. What is to be told of one depends on the responses that earlier
ones have left. -/

namespace TwoWire

namespace Responses

/-- The decision on the byte with this index, of those that are ours to acknowledge. -/
def ackAt (responses : Responses) (i : Nat) : Bool := responses.acks.getD i fallbackAck

def byteAt (responses : Responses) (i : Nat) : UInt8 := responses.bytes.getD i fallbackByte

def after (responses : Responses) (acks bytes : Nat) : Responses :=
  ⟨responses.acks.drop acks, responses.bytes.drop bytes⟩

theorem nextAck_after (responses : Responses) (k m : Nat) :
    (responses.after k m).nextAck = (responses.ackAt k, responses.after (k + 1) m) := by
  unfold nextAck after ackAt
  rw [List.getD_eq_getElem?_getD, ← List.head?_drop, ← List.tail_drop]
  dsimp only
  cases responses.acks.drop k <;> rfl

theorem nextByte_after (responses : Responses) (k m : Nat) :
    (responses.after k m).nextByte = (responses.byteAt m, responses.after k (m + 1)) := by
  unfold nextByte after byteAt
  rw [List.getD_eq_getElem?_getD, ← List.head?_drop, ← List.tail_drop]
  dsimp only
  cases responses.bytes.drop m <;> rfl

theorem ackAt_of_all {responses : Responses} (h : ∀ ack ∈ responses.acks, ack = true) (i : Nat) :
    responses.ackAt i = true := by
  unfold ackAt
  rw [List.getD_eq_getElem?_getD]
  cases known : responses.acks[i]? with
  | none => rfl
  | some ack => exact h ack (List.mem_of_getElem? known)

end Responses

def Event.ofAck (ack : Bool) : Event := if ack then .sendingAck else .sendingNack

def Event.decision? : Event → Option Bool
  | .sendingAck => some true
  | .sendingNack => some false
  | _ => none

inductive Transaction
  | write (address : UInt8) (bytes : List UInt8)
  | read (address : UInt8) (count : Nat)
  deriving DecidableEq, Repr

namespace Transaction

def call : Transaction → Call
  | write address bytes => .writeTransaction address bytes
  | read address count => .readTransaction address count

def Proper : Transaction → Prop
  | write .. => True
  | read _ count => 1 ≤ count

instance (transaction : Transaction) : Decidable transaction.Proper := by
  cases transaction <;> unfold Proper <;> infer_instance

def ackCount : Transaction → Nat
  | write _ bytes => bytes.length + 1
  | read .. => 1

def byteCount : Transaction → Nat
  | write .. => 0
  | read _ count => count

def pulses : Transaction → List Pulse
  | write address bytes => ((address <<< 1) :: bytes).flatMap Move.writePulses
  | read address count =>
    Move.writePulses (address <<< 1 ||| 1) ++
      (List.range count).flatMap fun i => Move.readPulses (decide (i + 1 < count))

theorem moves_call (timing : ControllerTiming) (transaction : Transaction) :
    transaction.call.moves timing = Move.start timing ++
      (transaction.pulses.flatMap (Pulse.moves timing) ++ Move.stop timing) := by
  cases transaction with
  | write address bytes =>
    have byte : Move.writeByte timing = fun byte =>
        (Move.writePulses byte).flatMap (Pulse.moves timing) := by
      funext byte
      exact Move.writeByte_eq timing byte
    change Move.writeTransaction timing address bytes = _
    unfold Move.writeTransaction pulses
    rw [List.flatMap_assoc, List.append_assoc, byte]
  | read address count =>
    have read : (fun i => Move.readByte timing (decide (i + 1 < count))) = fun i =>
        (Move.readPulses (decide (i + 1 < count))).flatMap (Pulse.moves timing) := by
      funext i
      exact Move.readByte_eq timing _
    change Move.readTransaction timing address count = _
    unfold Move.readTransaction pulses
    rw [List.flatMap_append, List.flatMap_assoc, Move.writeByte_eq, read]
    simp only [List.append_assoc]

/-- What is told of data bytes, the first of which gets acknowledge `k`. -/
def dataTalk (responses : Responses) (k : Nat) : List UInt8 → List Event
  | [] => []
  | byte :: bytes =>
    .byteReceived byte :: .ofAck (responses.ackAt k) :: dataTalk responses (k + 1) bytes

def bodyTalk (responses : Responses) (k : Nat) : Transaction → List Event
  | write address bytes =>
    .byteReceived (address <<< 1) :: .transactionStarted .write (address % 128) ::
      .ofAck (responses.ackAt k) :: dataTalk responses (k + 1) bytes
  | read address count =>
    .byteReceived (address <<< 1 ||| 1) :: .transactionStarted .read (address % 128) ::
      .ofAck (responses.ackAt k) ::
        ((List.replicate (count - 1) [.byteSent, .peerAck]).flatten ++
          [.byteSent, .peerNack, .waitingForStop])

/-- What is told of a transaction that comes after `k` acknowledges. -/
def talk (responses : Responses) (k : Nat) (transaction : Transaction) : List Event :=
  .startBit :: (transaction.bodyTalk responses k ++ [.stopBit])

def bytes (responses : Responses) (m : Nat) (transaction : Transaction) : List UInt8 :=
  (List.range' m transaction.byteCount).map responses.byteAt

def acks (responses : Responses) (k : Nat) (transaction : Transaction) : List Bool :=
  (List.range' k transaction.ackCount).map responses.ackAt

def yield (responses : Responses) (k m : Nat) (transaction : Transaction) : Yield where
  events := transaction.talk responses k
  reads := (transaction.bytes responses m).flatMap Move.bitsOf
  acks := transaction.acks responses k

def yields (responses : Responses) (k m : Nat) : List Transaction → Yield
  | [] => {}
  | transaction :: rest =>
    transaction.yield responses k m ++
      yields responses (k + transaction.ackCount) (m + transaction.byteCount) rest

def talks (responses : Responses) (k : Nat) : List Transaction → List Event
  | [] => []
  | transaction :: rest =>
    transaction.talk responses k ++ talks responses (k + transaction.ackCount) rest

theorem events_yields (responses : Responses) (k m : Nat) (transactions : List Transaction) :
    (yields responses k m transactions).events = talks responses k transactions := by
  induction transactions generalizing k m with
  | nil => rfl
  | cons transaction rest ih =>
    rw [yields, Yield.events_append, ih]
    rfl

theorem reads_yields (responses : Responses) (k m : Nat) (transactions : List Transaction) :
    (yields responses k m transactions).reads =
      ((List.range' m (transactions.map byteCount).sum).map responses.byteAt).flatMap
        Move.bitsOf := by
  induction transactions generalizing k m with
  | nil => rfl
  | cons transaction rest ih =>
    rw [yields, Yield.reads_append, ih, List.map_cons, List.sum_cons, ← List.range'_append_1,
      List.map_append, List.flatMap_append]
    rfl

theorem acks_yields (responses : Responses) (k m : Nat) (transactions : List Transaction) :
    (yields responses k m transactions).acks =
      (List.range' k (transactions.map ackCount).sum).map responses.ackAt := by
  induction transactions generalizing k m with
  | nil => rfl
  | cons transaction rest ih =>
    rw [yields, Yield.acks_append, ih, List.map_cons, List.sum_cons, ← List.range'_append_1,
      List.map_append]
    rfl

theorem decisions_dataTalk (responses : Responses) (k : Nat) (bytes : List UInt8) :
    (dataTalk responses k bytes).filterMap Event.decision? =
      (List.range' k bytes.length).map responses.ackAt := by
  induction bytes generalizing k with
  | nil => rfl
  | cons byte bytes ih =>
    simp [dataTalk, ih, List.range'_succ, List.filterMap_cons, Event.decision?]
    cases responses.ackAt k <;> rfl

theorem decisions_talk (responses : Responses) (k : Nat) (transaction : Transaction) :
    (transaction.talk responses k).filterMap Event.decision? = transaction.acks responses k := by
  cases transaction with
  | write address bytes =>
    simp [talk, bodyTalk, acks, ackCount, decisions_dataTalk, List.range'_succ,
      List.filterMap_cons, Event.decision?]
    cases responses.ackAt k <;> rfl
  | read address count =>
    simp [talk, bodyTalk, acks, ackCount, List.filterMap_cons, Event.decision?]
    cases responses.ackAt k <;> rfl

theorem decisions_talks (responses : Responses) (k : Nat) (transactions : List Transaction) :
    (talks responses k transactions).filterMap Event.decision? =
      (List.range' k (transactions.map ackCount).sum).map responses.ackAt := by
  induction transactions generalizing k with
  | nil => rfl
  | cons transaction rest ih =>
    rw [talks, List.filterMap_append, ih, decisions_talk, List.map_cons, List.sum_cons,
      ← List.range'_append_1, List.map_append]
    rfl

theorem direction_write (address : UInt8) :
    Direction.ofAddressByte (address <<< 1) = .write := by
  revert address
  apply forall_byte
  decide +kernel

theorem direction_read (address : UInt8) :
    Direction.ofAddressByte (address <<< 1 ||| 1) = .read := by
  revert address
  apply forall_byte
  decide +kernel

theorem address_write (address : UInt8) : (address <<< 1) >>> 1 = address % 128 := by
  revert address
  apply forall_byte
  decide +kernel

theorem address_read (address : UInt8) : (address <<< 1 ||| 1) >>> 1 = address % 128 := by
  revert address
  apply forall_byte
  decide +kernel

theorem flatMap_readPulses (n : Nat) :
    ((List.range (n + 1)).flatMap fun i => Move.readPulses (decide (i + 1 < n + 1))) =
      (List.replicate n (Move.readPulses true)).flatten ++ Move.readPulses false := by
  have inner : (List.range n).map (fun i => Move.readPulses (decide (i + 1 < n + 1))) =
      List.replicate n (Move.readPulses true) := by
    rw [← List.length_range (n := n), ← List.map_const', List.length_range]
    apply List.map_congr_left
    intro i mem
    have := List.mem_range.mp mem
    rw [decide_eq_true (by omega)]
  rw [List.range_succ, List.flatMap_append, List.flatMap_singleton, decide_eq_false (by omega),
    List.flatMap_def, inner]

end Transaction

namespace Protocol

open Transaction

/-- A row of pulses takes the protocol to the next byte, and nothing but a byte that is refused
disturbs it. -/
structure Served (agreed : Prop) (protocol : Protocol) (row : List Pulse) (shifter : Shifter)
    (left : Responses) (count : Nat) (got : Yield) : Prop where
  awaits : (protocol.pulses row).Awaits shifter left count
  got : protocol.yield row = got
  undisturbed : agreed → protocol.afterNack = false → protocol.Undisturbed row
  calm : agreed → protocol.afterNack = false → (protocol.pulses row).afterNack = false

variable {protocol : Protocol} {agreed : Prop} {row next : List Pulse} {shifter shifter' : Shifter}
  {left left' : Responses} {count count' : Nat} {got got' : Yield}

theorem Served.append (first : Served agreed protocol row shifter left count got)
    (second : Served agreed (protocol.pulses row) next shifter' left' count' got') :
    Served agreed protocol (row ++ next) shifter' left' count' (got ++ got') where
  awaits := by
    rw [pulses_append]
    exact second.awaits
  got := by rw [yield_append, first.got, second.got]
  undisturbed accepted calm := (undisturbed_append row next).mpr
    ⟨first.undisturbed accepted calm, second.undisturbed accepted (first.calm accepted calm)⟩
  calm accepted calm := by
    rw [pulses_append]
    exact second.calm accepted (first.calm accepted calm)

variable {responses : Responses} {k m : Nat}

theorem served_written (awaits : protocol.Awaits .sink (responses.after k m) count)
    (byte : UInt8) :
    Served (∀ i, responses.ackAt i = true) protocol (Move.writePulses byte)
      (heard (responses.after k m) count byte).1
      (heard (responses.after k m) count byte).2.nextAck.2 (count + 1)
      ⟨receivedTalk count byte ++ [.ofAck (responses.ackAt k)], [], [responses.ackAt k]⟩ := by
  obtain ⟨awaits', yield, after⟩ := written awaits byte
  rw [Responses.nextAck_after] at yield after
  refine ⟨awaits', yield, fun _ calm => undisturbed_written awaits calm byte, ?_⟩
  intro agreed calm
  rw [after, calm, agreed k]
  rfl

theorem served_data (bytes : List UInt8)
    (awaits : protocol.Awaits .sink (responses.after k m) (count + 1)) :
    Served (∀ i, responses.ackAt i = true) protocol (bytes.flatMap Move.writePulses) .sink
      (responses.after (k + bytes.length) m) (count + 1 + bytes.length)
      ⟨dataTalk responses k bytes, [], (List.range' k bytes.length).map responses.ackAt⟩ := by
  induction bytes generalizing protocol k count with
  | nil => exact ⟨awaits, rfl, fun _ _ => trivial, fun _ calm => calm⟩
  | cons byte bytes ih =>
    have first := served_written awaits byte
    simp only [heard, Nat.add_one_ne_zero, false_and, if_false, Responses.nextAck_after] at first
    have served := first.append (ih first.awaits)
    rw [List.length_cons, show k + (bytes.length + 1) = k + 1 + bytes.length by omega,
      show count + 1 + (bytes.length + 1) = count + 1 + 1 + bytes.length by omega]
    exact served

theorem served_more (n : Nat) (awaits : protocol.Awaits (.source (responses.byteAt m))
    (responses.after k (m + 1)) count) :
    Served (∀ i, responses.ackAt i = true) protocol
      (List.replicate n (Move.readPulses true)).flatten (.source (responses.byteAt (m + n)))
      (responses.after k (m + n + 1)) (count + n)
      ⟨(List.replicate n [Event.byteSent, .peerAck]).flatten,
        ((List.range' m n).map responses.byteAt).flatMap Move.bitsOf, []⟩ := by
  induction n generalizing protocol m count with
  | zero => exact ⟨awaits, rfl, fun _ _ => trivial, fun _ calm => calm⟩
  | succ n ih =>
    obtain ⟨awaits', yield, after⟩ := sent awaits true
    rw [if_pos rfl, if_pos rfl, Responses.nextByte_after] at awaits'
    have first : Served (∀ i, responses.ackAt i = true) protocol (Move.readPulses true)
        (.source (responses.byteAt (m + 1))) (responses.after k (m + 1 + 1)) (count + 1)
        ⟨[.byteSent, .peerAck], Move.bitsOf (responses.byteAt m), []⟩ :=
      ⟨awaits', yield, fun _ calm => undisturbed_sent awaits calm true,
        fun _ calm => by rw [after, calm]; rfl⟩
    have served := first.append (ih awaits')
    rw [show m + (n + 1) = m + 1 + n by omega, show count + (n + 1) = count + 1 + n by omega]
    exact served

theorem served_transaction (transaction : Transaction) (proper : transaction.Proper)
    (awaits : protocol.Awaits .sink (responses.after k m) 0) :
    (∃ shifter count, (shifter = .sink ∨ shifter = .spent) ∧
      (protocol.pulses transaction.pulses).Awaits shifter
        (responses.after (k + transaction.ackCount) (m + transaction.byteCount)) count) ∧
      protocol.yield transaction.pulses =
        ⟨transaction.bodyTalk responses k,
          (transaction.bytes responses m).flatMap Move.bitsOf, transaction.acks responses k⟩ ∧
      ((∀ i, responses.ackAt i = true) → protocol.afterNack = false →
        protocol.Undisturbed transaction.pulses) := by
  cases transaction with
  | write address bytes =>
    have first := served_written awaits (address <<< 1)
    simp only [heard, direction_write, reduceCtorEq, and_false, if_false, if_true,
      Responses.nextAck_after, receivedTalk, address_write] at first
    have served := first.append (served_data bytes first.awaits)
    rw [show k + 1 + bytes.length = k + (bytes.length + 1) by omega] at served
    exact ⟨⟨.sink, _, .inl rfl, served.awaits⟩, served.got, served.undisturbed⟩
  | read address count =>
    obtain ⟨n, rfl⟩ : ∃ n, count = n + 1 := ⟨count - 1, by have : 1 ≤ count := proper; omega⟩
    have first := served_written awaits (address <<< 1 ||| 1)
    simp only [heard, direction_read, and_self, if_true, Responses.nextAck_after,
      Responses.nextByte_after, receivedTalk, address_read] at first
    have most := first.append (served_more n first.awaits)
    obtain ⟨awaits', yield, -⟩ := sent most.awaits false
    have row : (Transaction.read address (n + 1)).pulses =
        Move.writePulses (address <<< 1 ||| 1) ++
          (List.replicate n (Move.readPulses true)).flatten ++ Move.readPulses false := by
      rw [List.append_assoc, ← flatMap_readPulses]
      rfl
    rw [row, pulses_append, yield_append, most.got, yield]
    refine ⟨⟨.spent, _, .inr rfl, awaits'⟩, ?_, ?_⟩
    · simp [bodyTalk, Transaction.bytes, Transaction.acks, Transaction.byteCount, ackCount,
        List.range'_concat]
    · intro agreed calm
      exact (undisturbed_append _ _).mpr ⟨most.undisturbed agreed calm,
        undisturbed_sent most.awaits (most.calm agreed calm) false⟩

end Protocol
end TwoWire
