import TwoWire.Proofs.Answer

/-! Every interval can be measured before `Time.half`, as long as the committed instants lie in the
past. -/

namespace TwoWire

structure LineSample.Past (sample : LineSample) (now : Nat) : Prop where
  changed : ∀ time, sample.changedAt = some time → time ≤ now
  previous : ∀ time, sample.previousChange = some time → time ≤ now

structure EdgeDetector.Past (detector : EdgeDetector) (now : Nat) : Prop where
  clock : detector.clock.Past now
  data : detector.data.Past now

theorem LineSample.Past.early {sample : LineSample} {now : Nat} (past : sample.Past now)
    (h : now < Time.half) : (∀ time, sample.changedAt = some time → time < Time.half) ∧
      ∀ time, sample.previousChange = some time → time < Time.half :=
  ⟨fun time known => Nat.lt_of_le_of_lt (past.changed time known) h,
    fun time known => Nat.lt_of_le_of_lt (past.previous time known) h⟩

theorem LineSample.Past.mono {sample : LineSample} {now later : Nat} (past : sample.Past now)
    (h : now ≤ later) : sample.Past later where
  changed time known := Nat.le_trans (past.changed time known) h
  previous time known := Nat.le_trans (past.previous time known) h

theorem EdgeDetector.Past.mono {detector : EdgeDetector} {now later : Nat}
    (past : detector.Past now) (h : now ≤ later) : detector.Past later :=
  ⟨past.clock.mono h, past.data.mono h⟩

theorem LineSample.Past.commit {sample : LineSample} {now : Nat} (past : sample.Past now)
    (level : Bool) : (sample.commit level now).Past now where
  changed time known := by
    cases known
    exact Nat.le_refl _
  previous time known := past.changed time known

theorem EdgeDetector.Past.commit {detector : EdgeDetector} {lines : Lines} {sight : Sight}
    (past : detector.Past sight.now) (line : Line) :
    (detector.commit lines sight line).Past sight.now := by
  cases line with
  | clock => exact ⟨past.clock.commit _, past.data⟩
  | data => exact ⟨past.clock, past.data.commit _⟩

namespace Note

theorem sound_measure {judge : Int → Option Violation} {start? : Option Nat} {stop : Nat}
    (past : ∀ time, start? = some time → time < Time.half) (early : stop < Time.half) :
    Sound (measure judge start? stop) := by
  cases start? with
  | none => exact sound_nil
  | some start =>
    change Sound (judged judge (Time.elapsed start stop))
    rw [Time.elapsed_of_lt (past start rfl) early]
    exact sound_map_violation _

theorem sound_measureBetween {judge : Int → Option Violation} {start? stop? : Option Nat}
    (start : ∀ time, start? = some time → time < Time.half)
    (stop : ∀ time, stop? = some time → time < Time.half) :
    Sound (measureBetween judge start? stop?) := by
  unfold measureBetween
  split
  case h_1 => exact sound_nil
  case h_2 finish => exact sound_measure start (stop finish rfl)

theorem sound_event {event : Event} {notes : List Note} (rest : Sound notes) :
    Sound (.event event :: notes) := sound_cons rest

theorem sound_fault (fault : SequenceFault) : Sound [.fault fault] := sound_cons sound_nil

end Note

/-- A view of the present in which everything that is dated lies in the past. -/
structure View.Dated (view : View) : Prop where
  past : view.detector.Past view.now
  early : view.now < Time.half

theorem View.Dated.clock {view : View} (dated : view.Dated) :
    (∀ time, view.clock.changedAt = some time → time < Time.half) ∧
      ∀ time, view.clock.previousChange = some time → time < Time.half :=
  dated.past.clock.early dated.early

theorem View.Dated.data {view : View} (dated : view.Dated) :
    (∀ time, view.data.changedAt = some time → time < Time.half) ∧
      ∀ time, view.data.previousChange = some time → time < Time.half :=
  dated.past.data.early dated.early

namespace Protocol

open Note

variable {protocol : Protocol} {view : View}

theorem sound_mismatch (phase : Phase) (view : View) (line : Line) :
    Sound (mismatch phase view line) := by
  unfold mismatch
  split
  · exact sound_nil
  · split
    · exact sound_nil
    · exact sound_cons sound_nil

theorem sound_speedNotes (protocol : Protocol) : Sound protocol.speedNotes := by
  unfold speedNotes
  split
  · exact sound_nil
  · apply sound_event
    split
    · exact sound_nil
    · cases Throughput.verdict? _ _ with
      | none => exact sound_nil
      | some verdict => exact sound_cons sound_nil

theorem sound_onStart (dated : view.Dated) (event : Event) (setup : TimingParam) :
    Sound (protocol.onStart view event setup).notes :=
  sound_event (sound_append (sound_measureBetween dated.clock.1 dated.data.1)
    (sound_measure dated.data.2 dated.early))

theorem sound_onStopped (dated : view.Dated) : Sound (protocol.onStopped view).notes :=
  sound_event (sound_measureBetween dated.clock.1 dated.data.1)

theorem sound_onByteDone {notes : List Note} (h : Sound notes) :
    Sound (protocol.onByteDone notes).notes := by
  unfold onByteDone
  split
  · refine sound_append h (sound_event (sound_append (sound_speedNotes _) ?_))
    split
    · exact sound_event sound_nil
    · exact sound_nil
  · exact sound_append h (sound_event (sound_speedNotes _))

theorem sound_onSampleBit (dated : view.Dated) : Sound (protocol.onSampleBit view).notes := by
  have setup : Sound (protocol.setupNotes view) := by
    unfold setupNotes
    split
    · exact sound_measure dated.data.1 dated.early
    · exact sound_nil
  unfold onSampleBit
  dsimp only
  have notes : ∀ stray : Bool, Sound (protocol.setupNotes view ++
      if stray then [.fault .activityAfterNack] else []) := by
    intro stray
    apply sound_append setup
    cases stray
    · exact sound_nil
    · exact sound_fault _
  split
  · exact sound_onByteDone (notes _)
  · exact notes _

theorem sound_arrive (dated : view.Dated) : Sound (protocol.arrive view).notes := by
  unfold arrive
  split
  case h_1 => exact sound_onStopped dated
  case h_2 | h_8 => exact sound_onStart dated _ _
  case h_3 =>
    unfold onDriveBit
    dsimp only
    split
    · exact sound_measure dated.data.1 dated.early
    · exact sound_nil
  case h_4 => exact sound_onSampleBit dated
  case h_5 =>
    unfold onCheckStartStop
    dsimp only
    split <;> dsimp only <;> split <;> first | exact sound_fault _ | exact sound_nil
  case h_6 =>
    unfold onDriveAck
    split
    · exact sound_event sound_nil
    · exact sound_nil
  case h_7 =>
    unfold onSampleAck ackNotes
    dsimp only
    split
    · split
      · exact sound_fault _
      · exact sound_nil
    · split
      · exact sound_event (sound_event sound_nil)
      · exact sound_event sound_nil
  case h_9 =>
    unfold onIllegal
    dsimp only
    split
    · exact sound_nil
    · exact sound_cons sound_nil
  all_goals exact sound_nil

theorem sound_enter (dated : view.Dated) (phase : Phase) :
    Sound (protocol.enter view phase).notes :=
  sound_append (sound_append (sound_mismatch phase view .clock) (sound_mismatch phase view .data))
    (sound_arrive dated)

theorem dated_driven (dated : view.Dated) (drive? : Option Bool) : (view.driven drive?).Dated := by
  cases drive? with
  | none => exact dated
  | some level => exact ⟨dated.past, dated.early⟩

theorem sound_follow (dated : view.Dated) (phase : Phase) :
    Sound (protocol.follow view phase).notes := by
  unfold follow
  dsimp only
  split
  · exact sound_enter dated phase
  · exact sound_append (sound_enter dated phase) (sound_enter (dated_driven dated _) _)

theorem sound_edgeNotes (dated : view.Dated) (edge : Edge) :
    Sound (protocol.edgeNotes view edge) := by
  unfold edgeNotes
  split
  · exact sound_measure dated.clock.2 dated.early
  · split
    · exact sound_nil
    · exact sound_measure dated.clock.1 dated.early

theorem sound_answer (dated : view.Dated) (stretches : Bool) (edge : Edge) :
    Sound (protocol.answer stretches view edge).notes := by
  have held : (view.held edge stretches).Dated := by
    unfold View.held
    split
    · exact ⟨dated.past, dated.early⟩
    · exact dated
  exact sound_append (sound_append (sound_edgeNotes dated edge)
    (Checker.sound_simultaneousNotes edge)) (sound_follow held _)

end Protocol
end TwoWire
