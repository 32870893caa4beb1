import TwoWire.Proofs.Pulses

/-! Bytes on the wire, pulse by pulse: eight fill or empty the shifter, and a ninth carries the
acknowledge. -/

namespace TwoWire

namespace Shifter

def pass (shifter : Shifter) : List (Option Bool) → Shifter
  | [] => shifter
  | drive :: drives => (shifter.clock (drive.getD shifter.outgoingLevel)).pass drives

def levels (shifter : Shifter) : List (Option Bool) → List Bool
  | [] => []
  | drive :: drives =>
    drive.getD shifter.outgoingLevel ::
      (shifter.clock (drive.getD shifter.outgoingLevel)).levels drives

def spent : Shifter := ⟨0, none, none⟩

end Shifter

namespace Move

theorem length_bitsOf (byte : UInt8) : (bitsOf byte).length = 8 := rfl

theorem pass_sink (byte : UInt8) :
    Shifter.sink.pass ((bitsOf byte).map bitDrive) = ⟨8, some byte, none⟩ := by
  revert byte
  apply forall_byte
  decide +kernel

theorem pass_source (byte : UInt8) :
    (Shifter.source byte).pass (List.replicate 8 none) = ⟨8, none, some 0⟩ := by
  revert byte
  apply forall_byte
  decide +kernel

theorem levels_source (byte : UInt8) :
    (Shifter.source byte).levels (List.replicate 8 none) = bitsOf byte := by
  revert byte
  apply forall_byte
  decide +kernel

theorem byteOfBits_bitsOf (byte : UInt8) : Simulation.byteOfBits (bitsOf byte) = byte := by
  revert byte
  apply forall_byte
  decide +kernel

theorem bytesOfBits_append {bits : List Bool} (full : bits.length = 8) (rest : List Bool) :
    Simulation.bytesOfBits (bits ++ rest) =
      Simulation.byteOfBits bits :: Simulation.bytesOfBits rest := by
  match bits, full with
  | [_, _, _, _, _, _, _, _], _ => rfl

theorem bytesOfBits_bitsOf (bytes : List UInt8) :
    Simulation.bytesOfBits (bytes.flatMap bitsOf) = bytes := by
  induction bytes with
  | nil => rfl
  | cons byte bytes ih =>
    rw [List.flatMap_cons, bytesOfBits_append (length_bitsOf byte), byteOfBits_bitsOf, ih]

/-- Eight pulses with a byte of the controller's, and one for the acknowledge. -/
def writePulses (byte : UInt8) : List Pulse :=
  ((bitsOf byte).map bitDrive).map (fun drive => ⟨drive, .nothing⟩) ++ [⟨none, .ack⟩]

/-- Eight pulses with a byte of ours, and the controller's acknowledge or the lack of it. -/
def readPulses (ack : Bool) : List Pulse :=
  (List.replicate 8 none).map (fun drive => ⟨drive, .data⟩) ++ [⟨bitDrive (!ack), .nothing⟩]

theorem writeByte_eq (timing : ControllerTiming) (byte : UInt8) :
    writeByte timing byte = (writePulses byte).flatMap (Pulse.moves timing) := by
  unfold writeByte writePulses
  rw [List.flatMap_append, List.map_map, List.flatMap_map]
  rfl

theorem readByte_eq (timing : ControllerTiming) (ack : Bool) :
    readByte timing ack = (readPulses ack).flatMap (Pulse.moves timing) := by
  unfold readByte readPulses
  rw [List.flatMap_append]
  rfl

end Move

namespace Protocol

/-- The shifter has come to this in a clock pulse, and with that the byte may be complete. -/
def clocked (protocol : Protocol) (shifter : Shifter) : Protocol :=
  if shifter.isComplete then
    match shifter.incoming with
    | some byte =>
      { ({ protocol with phase := .sampleBit, shifter } : Protocol).byteReceived byte with
        phase := .byteDone }
    | none =>
      { ({ protocol with phase := .sampleBit, shifter } : Protocol).byteSent with
        phase := .byteDone }
  else { protocol with phase := .sampleBit, shifter }

def receivedTalk (count : Nat) (byte : UInt8) : List Event :=
  .byteReceived byte ::
    if count = 0 then [.transactionStarted (.ofAddressByte byte) (byte >>> 1)] else []

def clockedTalk (protocol : Protocol) (shifter : Shifter) : List Event :=
  if shifter.isComplete then
    match shifter.incoming with
    | some byte => receivedTalk protocol.byteCount byte
    | none => [.byteSent]
  else []

/-- The next fall of the clock goes on with the bits of a byte. -/
structure Between (protocol : Protocol) : Prop where
  high : protocol.phase.isHigh = true
  begun : protocol.phase ≠ .byteDone

variable {protocol : Protocol}

theorem Between.of_sampled (sampled : protocol.phase = .sampleBit) : protocol.Between where
  high := by rw [sampled]; rfl
  begun := by rw [sampled]; decide

theorem Between.of_begun (protocol : Protocol) : protocol.begun.Between where
  high := rfl
  begun := by change Phase.starting ≠ .byteDone; decide

theorem Between.of_acked (protocol : Protocol) (ack : Bool) :
    Between { protocol with phase := if ack then .acked else .nacked } where
  high := by cases ack <;> rfl
  begun := by cases ack <;> simp

theorem pulse_bit (between : protocol.Between) (drive : Option Bool) (sample : Sample) :
    protocol.pulse ⟨drive, sample⟩ =
        protocol.clocked (protocol.shifter.clock (drive.getD protocol.shifter.outgoingLevel)) ∧
      protocol.pulseYield ⟨drive, sample⟩ =
        ⟨protocol.clockedTalk
            (protocol.shifter.clock (drive.getD protocol.shifter.outgoingLevel)),
          if sample = .data then [drive.getD protocol.shifter.outgoingLevel] else [],
          if sample = .ack then [!drive.getD protocol.shifter.outgoingLevel] else []⟩ := by
  have wanted : protocol.wanted = protocol.shifter.outgoingLevel := by
    simp [Protocol.wanted, between.begun]
  have fall : protocol.fall = { protocol with phase := .driveBit } := by
    simp [Protocol.fall, between.begun]
  have silent : protocol.fallTalk = [] := by simp [Protocol.fallTalk, between.begun]
  unfold pulse pulseYield pulseLevel
  rw [fall, wanted, silent]
  exact ⟨rfl, rfl⟩

theorem pulse_open (between : protocol.Between) (more : protocol.shifter.bits < 7)
    (drive : Option Bool) (sample : Sample) :
    protocol.pulse ⟨drive, sample⟩ = { protocol with
        phase := .sampleBit
        shifter := protocol.shifter.clock (drive.getD protocol.shifter.outgoingLevel) } ∧
      protocol.pulseYield ⟨drive, sample⟩ =
        ⟨[], if sample = .data then [drive.getD protocol.shifter.outgoingLevel] else [],
          if sample = .ack then [!drive.getD protocol.shifter.outgoingLevel] else []⟩ ∧
      (protocol.shifter.clock (drive.getD protocol.shifter.outgoingLevel)).bits =
        protocol.shifter.bits + 1 := by
  obtain ⟨pulse, yield⟩ := pulse_bit between drive sample
  have bits : (protocol.shifter.clock (drive.getD protocol.shifter.outgoingLevel)).bits =
      protocol.shifter.bits + 1 := by
    change min (protocol.shifter.bits + 1) 8 = _
    omega
  have incomplete : (protocol.shifter.clock
      (drive.getD protocol.shifter.outgoingLevel)).isComplete = false := by
    unfold Shifter.isComplete
    rw [bits]
    apply decide_eq_false
    unfold Shifter.bitsPerByte
    omega
  refine ⟨?_, ?_, bits⟩
  · rw [pulse, clocked, incomplete]
    rfl
  · rw [yield, clockedTalk, incomplete]
    rfl

theorem pulses_bits (sample : Sample) (drives : List (Option Bool)) (some : drives ≠ [])
    (between : protocol.Between) (fits : protocol.shifter.bits + drives.length ≤ 8) :
    protocol.pulses (drives.map fun drive => ⟨drive, sample⟩) =
        protocol.clocked (protocol.shifter.pass drives) ∧
      protocol.yield (drives.map fun drive => ⟨drive, sample⟩) =
        ⟨protocol.clockedTalk (protocol.shifter.pass drives),
          if sample = .data then protocol.shifter.levels drives else [],
          if sample = .ack then (protocol.shifter.levels drives).map not else []⟩ := by
  induction drives generalizing protocol with
  | nil => exact absurd rfl some
  | cons drive drives ih =>
    rw [List.map_cons, pulses_cons, Protocol.yield]
    cases drives with
    | nil =>
      obtain ⟨pulse, yield⟩ := pulse_bit between drive sample
      rw [pulse, yield]
      refine ⟨rfl, ?_⟩
      cases sample <;> simp [Protocol.yield, Shifter.pass, Shifter.levels]
    | cons next drives =>
      rw [List.length_cons, List.length_cons] at fits
      obtain ⟨pulse, yield, bits⟩ := pulse_open between (by omega) drive sample
      obtain ⟨pulses, yields⟩ := @ih (protocol.pulse ⟨drive, sample⟩)
        (List.cons_ne_nil _ _) (.of_sampled (by rw [pulse]))
        (by rw [pulse, List.length_cons]; dsimp only; omega)
      rw [pulses, yields, yield, pulse]
      refine ⟨rfl, ?_⟩
      cases sample <;> rfl

theorem undisturbed_bits (sample : Sample) (drives : List (Option Bool))
    (between : protocol.Between) (fits : protocol.shifter.bits + drives.length ≤ 8)
    (calm : protocol.afterNack = false) :
    protocol.Undisturbed (drives.map fun drive => ⟨drive, sample⟩) := by
  induction drives generalizing protocol with
  | nil => trivial
  | cons drive drives ih =>
    refine ⟨.inl calm, fun done => absurd done between.begun, ?_⟩
    cases drives with
    | nil => trivial
    | cons next drives =>
      rw [List.length_cons, List.length_cons] at fits
      obtain ⟨pulse, -, bits⟩ := pulse_open between (by omega) drive sample
      rw [pulse]
      exact ih (.of_sampled rfl) (by rw [List.length_cons]; dsimp only; omega) calm

theorem pulse_ours (done : protocol.phase = .byteDone) (ours : protocol.acknowledging = true) :
    protocol.pulse ⟨none, .ack⟩ =
        { ({ protocol with responses := protocol.responses.nextAck.2 } : Protocol).endByte
            (!protocol.responses.nextAck.1) with
          phase := if protocol.responses.nextAck.1 then .acked else .nacked } ∧
      protocol.pulseYield ⟨none, .ack⟩ =
        ⟨[if protocol.responses.nextAck.1 then .sendingAck else .sendingNack], [],
          [protocol.responses.nextAck.1]⟩ := by
  have fall : protocol.fall =
      { protocol with responses := protocol.responses.nextAck.2, phase := .ackSent } := by
    simp [fall, done, ours]
  have wanted : protocol.wanted = !protocol.responses.nextAck.1 := by
    simp [wanted, done, ours]
  unfold pulse pulseYield pulseLevel
  rw [fall, wanted]
  cases ack : protocol.responses.nextAck.1 <;>
    simp [rise, riseTalk, fallTalk, endByte, done, ours, ack]

theorem pulse_theirs (done : protocol.phase = .byteDone) (theirs : protocol.acknowledging = false)
    (ack : Bool) :
    protocol.pulse ⟨Move.bitDrive (!ack), .nothing⟩ =
        { (protocol.peerAnswered (!ack)).endByte (!ack) with
          phase := if ack then .acked else .nacked } ∧
      protocol.pulseYield ⟨Move.bitDrive (!ack), .nothing⟩ =
        ⟨if ack then [.peerAck] else [.peerNack, .waitingForStop], [], []⟩ := by
  have fall : protocol.fall = { protocol with phase := .driveAck } := by
    simp [fall, done, theirs]
  have wanted : protocol.wanted = true := by simp [wanted, done, theirs]
  unfold pulse pulseYield pulseLevel
  rw [fall, wanted]
  cases ack <;>
    simp [rise, riseTalk, fallTalk, endByte, peerAnswered, done, theirs, Move.bitDrive]

/-- The protocol is about to go on with the bits of a byte, with this left to answer and after so
many bytes, of which it counts no more than fit. -/
structure Awaits (protocol : Protocol) (shifter : Shifter) (responses : Responses) (count : Nat) :
    Prop extends Between protocol where
  shifter : protocol.shifter = shifter
  responses : protocol.responses = responses
  byteCount : protocol.byteCount = min count (UInt32.size - 1)

theorem Awaits.first {shifter : Shifter} {responses : Responses} {count : Nat}
    (awaits : protocol.Awaits shifter responses count) : protocol.byteCount = 0 ↔ count = 0 := by
  rw [awaits.byteCount]
  unfold UInt32.size
  omega

theorem Awaits.count {shifter : Shifter} {responses : Responses} {count : Nat}
    (awaits : protocol.Awaits shifter responses count) (nack : Bool) :
    (protocol.endByte nack).byteCount = min (count + 1) (UInt32.size - 1) := by
  rw [byteCount_endByte, awaits.byteCount]
  unfold UInt32.size
  omega

/-- What is in the shifter after a received byte, and what is left of the responses. -/
def heard (responses : Responses) (count : Nat) (byte : UInt8) : Shifter × Responses :=
  if count = 0 ∧ Direction.ofAddressByte byte = .read then
    (.source responses.nextByte.1, responses.nextByte.2)
  else (.sink, responses)

variable {responses : Responses} {count : Nat}

theorem clocked_received (protocol : Protocol) (byte : UInt8) :
    protocol.clocked ⟨8, some byte, none⟩ = { protocol with
      acknowledging := true
      meter := {}
      phase := .byteDone
      shifter := (heard protocol.responses protocol.byteCount byte).1
      responses := (heard protocol.responses protocol.byteCount byte).2 } := by
  unfold clocked byteReceived command heard
  by_cases first : protocol.byteCount = 0
  · cases direction : Direction.ofAddressByte byte <;>
      simp [Shifter.isComplete, Shifter.bitsPerByte, first, direction]
  · simp [Shifter.isComplete, Shifter.bitsPerByte, first]

theorem Awaits.heard {shifter : Shifter} (awaits : protocol.Awaits shifter responses count)
    (byte : UInt8) :
    heard protocol.responses protocol.byteCount byte = heard responses count byte := by
  simp only [Protocol.heard, awaits.first, awaits.responses]

theorem Awaits.receivedTalk {shifter : Shifter} (awaits : protocol.Awaits shifter responses count) :
    receivedTalk protocol.byteCount = receivedTalk count := by
  funext byte
  simp only [Protocol.receivedTalk, awaits.first]

@[simp] theorem nextAck_heard (responses : Responses) (count : Nat) (byte : UInt8) :
    (heard responses count byte).2.nextAck.1 = responses.nextAck.1 := by
  obtain ⟨acks, bytes⟩ := responses
  unfold heard
  split
  · cases acks <;> cases bytes <;> rfl
  · rfl

theorem restart_heard (responses : Responses) (count : Nat) (byte : UInt8) :
    (heard responses count byte).1.restart = (heard responses count byte).1 := by
  unfold heard
  split <;> rfl

theorem written (awaits : protocol.Awaits .sink responses count) (byte : UInt8) :
    (protocol.pulses (Move.writePulses byte)).Awaits (heard responses count byte).1
        (heard responses count byte).2.nextAck.2 (count + 1) ∧
      protocol.yield (Move.writePulses byte) =
        ⟨receivedTalk count byte ++
          [if responses.nextAck.1 then .sendingAck else .sendingNack], [],
          [responses.nextAck.1]⟩ ∧
      (protocol.pulses (Move.writePulses byte)).afterNack =
        (protocol.afterNack || !responses.nextAck.1) := by
  obtain ⟨pulses, yield⟩ := pulses_bits .nothing ((Move.bitsOf byte).map Move.bitDrive)
    (List.cons_ne_nil _ _)
    awaits.toBetween (by rw [awaits.shifter]; exact Nat.le_refl 8)
  rw [awaits.shifter, Move.pass_sink, clocked_received, awaits.heard] at pulses
  rw [awaits.shifter, Move.pass_sink, clockedTalk, awaits.receivedTalk] at yield
  unfold Move.writePulses
  rw [pulses_append, yield_append, pulses, yield, pulses_cons, pulses_nil, Protocol.yield,
    Protocol.yield]
  obtain ⟨pulse, yield⟩ := @pulse_ours { protocol with
    acknowledging := true
    meter := {}
    phase := .byteDone
    shifter := (heard responses count byte).1
    responses := (heard responses count byte).2 } rfl rfl
  rw [pulse, yield]
  dsimp only
  rw [nextAck_heard]
  exact ⟨⟨.of_acked _ responses.nextAck.1, restart_heard .., rfl,
    awaits.count !responses.nextAck.1⟩, rfl, rfl⟩

theorem clocked_sent (protocol : Protocol) :
    protocol.clocked ⟨8, none, some 0⟩ = { protocol with
      acknowledging := false
      meter := {}
      phase := .byteDone
      shifter := ⟨8, none, some 0⟩ } := rfl

theorem sent {byte : UInt8} (awaits : protocol.Awaits (.source byte) responses count) (ack : Bool) :
    (protocol.pulses (Move.readPulses ack)).Awaits
        (if ack then .source responses.nextByte.1 else .spent)
        (if ack then responses.nextByte.2 else responses) (count + 1) ∧
      protocol.yield (Move.readPulses ack) =
        ⟨.byteSent :: if ack then [.peerAck] else [.peerNack, .waitingForStop],
          Move.bitsOf byte, []⟩ ∧
      (protocol.pulses (Move.readPulses ack)).afterNack = (protocol.afterNack || !ack) := by
  obtain ⟨pulses, yield⟩ := pulses_bits .data (List.replicate 8 none) (by decide) awaits.toBetween
    (by rw [awaits.shifter]; exact Nat.le_refl 8)
  rw [awaits.shifter, Move.pass_source, clocked_sent] at pulses
  rw [awaits.shifter, Move.pass_source, Move.levels_source] at yield
  unfold Move.readPulses
  rw [pulses_append, yield_append, pulses, yield, pulses_cons, pulses_nil, Protocol.yield,
    Protocol.yield]
  obtain ⟨pulse, yield⟩ := @pulse_theirs { protocol with
    acknowledging := false
    meter := {}
    phase := .byteDone
    shifter := ⟨8, none, some 0⟩ } rfl rfl ack
  rw [pulse, yield, ← awaits.responses]
  cases ack with
  | true => exact ⟨⟨.of_acked _ true, rfl, rfl, awaits.count false⟩, rfl, rfl⟩
  | false => exact ⟨⟨.of_acked _ false, rfl, rfl, awaits.count true⟩, rfl, rfl⟩

theorem undisturbed_written (awaits : protocol.Awaits .sink responses count)
    (calm : protocol.afterNack = false) (byte : UInt8) :
    protocol.Undisturbed (Move.writePulses byte) := by
  have fits : protocol.shifter.bits + ((Move.bitsOf byte).map Move.bitDrive).length ≤ 8 := by
    rw [awaits.shifter]
    exact Nat.le_refl 8
  obtain ⟨pulses, -⟩ := pulses_bits .nothing ((Move.bitsOf byte).map Move.bitDrive)
    (List.cons_ne_nil _ _)
    awaits.toBetween fits
  rw [awaits.shifter, Move.pass_sink, clocked_received] at pulses
  refine undisturbed_append _ _ |>.mpr
    ⟨undisturbed_bits .nothing _ awaits.toBetween fits calm, ?_⟩
  rw [pulses]
  exact ⟨.inl calm, fun _ _ => rfl, trivial⟩

theorem undisturbed_sent {byte : UInt8} (awaits : protocol.Awaits (.source byte) responses count)
    (calm : protocol.afterNack = false) (ack : Bool) :
    protocol.Undisturbed (Move.readPulses ack) := by
  have fits : protocol.shifter.bits + (List.replicate 8 (none : Option Bool)).length ≤ 8 := by
    rw [awaits.shifter]
    exact Nat.le_refl 8
  obtain ⟨pulses, -⟩ := pulses_bits .data (List.replicate 8 none) (by decide) awaits.toBetween fits
  rw [awaits.shifter, Move.pass_source] at pulses
  refine undisturbed_append _ _ |>.mpr ⟨undisturbed_bits .data _ awaits.toBetween fits calm, ?_⟩
  rw [pulses]
  refine ⟨.inl calm, ?_, trivial⟩
  -- After a byte of ours the acknowledge is theirs.
  intro _ ours
  cases ours

end Protocol
end TwoWire
