import TwoWire.Proofs.Sound

/-! The same at a later time: instants are only ever compared with one another, so what is found of
an edge does not change when all that is remembered is moved by one delay. -/

namespace TwoWire

theorem Time.saturate_add (n delay : Nat) :
    saturate (saturate n + delay) = saturate (n + delay) := by
  unfold saturate limit UInt64.size
  omega

namespace SpeedMeter

def later (meter : SpeedMeter) (delay : Nat) : SpeedMeter :=
  { meter with lastFall := meter.lastFall.map (· + delay) }

theorem clockFell_later (meter : SpeedMeter) (time delay : Nat) :
    (meter.later delay).clockFell (time + delay) = (meter.clockFell time).later delay := by
  unfold clockFell later
  cases meter.lastFall with
  | none => rfl
  | some previous =>
    dsimp only [Option.map_some]
    rw [Nat.add_sub_add_right]

end SpeedMeter

namespace ClockStretch

def later (stretch : ClockStretch) (delay : Nat) : ClockStretch :=
  { stretch with deadline? := stretch.deadline?.map fun deadline => Time.saturate (deadline + delay) }

theorem begin_later (stretch : ClockStretch) (time delay : Nat) :
    (stretch.later delay).begin (time + delay) = (stretch.begin time).later delay := by
  unfold begin
  rw [show (stretch.later delay).isEnabled = stretch.isEnabled from rfl]
  split
  case isFalse => rfl
  case isTrue =>
    unfold later
    dsimp only [Option.map_some]
    rw [Time.saturate_add, Nat.add_right_comm]

theorem isPending_later (stretch : ClockStretch) (delay : Nat) :
    (stretch.later delay).isPending = stretch.isPending := Option.isSome_map

/-- A stretch is over at the same distance, as long as its end is no saturated one. -/
theorem isDue_later (stretch : ClockStretch) {now delay : Nat} (early : now + delay < Time.half) :
    (stretch.later delay).isDue (now + delay) = stretch.isDue now := by
  unfold isDue later
  cases stretch.deadline? with
  | none => rfl
  | some deadline =>
    simp only [Option.map_some, Option.any_some]
    rw [decide_eq_decide]
    unfold Time.half Time.limit UInt64.size at early
    unfold Time.saturate Time.limit UInt64.size
    omega

end ClockStretch

def Sight.later (sight : Sight) (delay : Nat) : Sight := { sight with now := sight.now + delay }

def Change.later (change : Change) (delay : Nat) : Change :=
  { change with sight := change.sight.later delay }

def LineSample.later (sample : LineSample) (delay : Nat) : LineSample where
  level := sample.level
  changedAt := sample.changedAt.map (· + delay)
  previousChange := sample.previousChange.map (· + delay)

namespace EdgeDetector

def later (detector : EdgeDetector) (delay : Nat) : EdgeDetector where
  clock := detector.clock.later delay
  data := detector.data.later delay

variable (detector : EdgeDetector) (lines : Lines) (sight : Sight) (delay : Nat)

theorem edge?_later :
    (detector.later delay).edge? lines (sight.later delay) = detector.edge? lines sight := rfl

theorem commit_later (line : Line) :
    (detector.later delay).commit lines (sight.later delay) line =
      (detector.commit lines sight line).later delay := by
  cases line <;> rfl

end EdgeDetector

namespace View

def later (view : View) (delay : Nat) : View where
  sight := view.sight.later delay
  lines := view.lines
  detector := view.detector.later delay

theorem level_later (view : View) (delay : Nat) (line : Line) :
    (view.later delay).level line = view.level line := by
  cases line <;> rfl

theorem driver_later (view : View) (delay : Nat) (line : Line) :
    (view.later delay).driver line = view.driver line := by
  cases line <;> rfl

end View

namespace Note

variable (judge : Int → Option Violation) {start? stop? : Option Nat} {stop delay : Nat}

theorem measure_later (known : ∀ time, start?.map (· + delay) = some time → time < Time.half)
    (early : stop + delay < Time.half) :
    measure judge (start?.map (· + delay)) (stop + delay) = measure judge start? stop := by
  cases start? with
  | none => rfl
  | some start =>
    have past : start + delay < Time.half := known _ rfl
    unfold measure
    dsimp only [Option.map_some]
    rw [Time.elapsed_of_lt past early, Time.elapsed_of_lt (by omega) (by omega)]
    congr 2
    omega

theorem measureBetween_later
    (known : ∀ time, start?.map (· + delay) = some time → time < Time.half)
    (known' : ∀ time, stop?.map (· + delay) = some time → time < Time.half) :
    measureBetween judge (start?.map (· + delay)) (stop?.map (· + delay)) =
      measureBetween judge start? stop? := by
  cases stop? with
  | none => rfl
  | some stop => exact measure_later judge known (known' _ rfl)

end Note

def Protocol.later (protocol : Protocol) (delay : Nat) : Protocol :=
  { protocol with meter := protocol.meter.later delay }

def Arrival.later (arrival : Arrival) (delay : Nat) : Arrival :=
  { arrival with protocol := arrival.protocol.later delay }

namespace Protocol

variable (protocol : Protocol) {view : View} {delay : Nat}

theorem onStopped_later (dated : (view.later delay).Dated) :
    (protocol.later delay).onStopped (view.later delay) =
      (protocol.onStopped view).later delay :=
  congrArg (fun notes => Arrival.mk _ (.event .stopBit :: notes) none none)
    (Note.measureBetween_later _ dated.clock.1 dated.data.1)

theorem onStart_later (dated : (view.later delay).Dated) (event : Event) (setup : TimingParam) :
    (protocol.later delay).onStart (view.later delay) event setup =
      (protocol.onStart view event setup).later delay := by
  have first := Note.measureBetween_later (protocol.judge setup) dated.clock.1 dated.data.1
  have second := Note.measure_later (protocol.judge .busFree) dated.data.2 dated.early
  exact congr (congrArg (fun before after =>
    Arrival.mk _ (.event event :: before ++ after) none none) first) second

theorem onDriveBit_later (dated : (view.later delay).Dated) :
    (protocol.later delay).onDriveBit (view.later delay) =
      (protocol.onDriveBit view).later delay := by
  have hold := Note.measure_later (protocol.judge .startHold) dated.data.1 dated.early
  unfold onDriveBit Arrival.later
  rw [show (protocol.later delay).followsStart = protocol.followsStart from rfl]
  split
  · exact congrArg (Arrival.mk _ · _ _) hold
  · rfl

theorem setupNotes_later (dated : (view.later delay).Dated) :
    (protocol.later delay).setupNotes (view.later delay) = protocol.setupNotes view := by
  unfold setupNotes
  rw [show (protocol.later delay).shifter = protocol.shifter from rfl]
  split
  · exact Note.measure_later _ dated.data.1 dated.early
  · rfl

/-- Every byte is measured afresh, so the meter that a byte leaves is moved by nothing. -/
theorem onByteDone_later (notes : List Note) :
    (protocol.later delay).onByteDone notes = (protocol.onByteDone notes).later delay := by
  unfold onByteDone
  rw [show (protocol.later delay).shifter = protocol.shifter from rfl]
  cases protocol.shifter.incoming with
  | none => rfl
  | some byte =>
    have received : (protocol.later delay).byteReceived byte =
        (protocol.byteReceived byte).later delay := by
      unfold byteReceived
      rw [show (protocol.later delay).byteCount = protocol.byteCount from rfl]
      split
      · unfold command
        split <;> rfl
      · rfl
    dsimp only
    rw [received]
    rfl

theorem onSampleBit_later (dated : (view.later delay).Dated) :
    (protocol.later delay).onSampleBit (view.later delay) =
      (protocol.onSampleBit view).later delay := by
  unfold onSampleBit
  dsimp only
  rw [protocol.setupNotes_later dated, view.level_later]
  rw [show (protocol.later delay).shifter = protocol.shifter from rfl]
  split
  · exact onByteDone_later { protocol with
      shifter := protocol.shifter.clock (view.level .data)
      activityReported := protocol.activityReported || Protocol.strayActivity
        { protocol with shifter := protocol.shifter.clock (view.level .data) } } _
  · rfl

theorem onCheckStartStop_later :
    (protocol.later delay).onCheckStartStop (view.later delay) =
      (protocol.onCheckStartStop view).later delay := by
  unfold onCheckStartStop
  rw [show (view.later delay).data.level = view.data.level from rfl]
  dsimp only
  split <;> rfl

theorem onDriveAck_later :
    (protocol.later delay).onDriveAck = protocol.onDriveAck.later delay := by
  unfold onDriveAck
  rw [show (protocol.later delay).acknowledging = protocol.acknowledging from rfl]
  split <;> rfl

theorem onSampleAck_later :
    (protocol.later delay).onSampleAck (view.later delay) =
      (protocol.onSampleAck view).later delay := by
  unfold onSampleAck ackNotes
  rw [view.level_later, view.driver_later]
  rw [show (protocol.later delay).acknowledging = protocol.acknowledging from rfl]
  dsimp only
  split
  · rfl
  · unfold peerAnswered
    split <;> rfl

theorem arrive_later (dated : (view.later delay).Dated) :
    (protocol.later delay).arrive (view.later delay) = (protocol.arrive view).later delay := by
  unfold arrive
  rw [show (protocol.later delay).phase = protocol.phase from rfl]
  cases protocol.phase with
  | stopped => exact protocol.onStopped_later dated
  | starting | repeatStart => exact protocol.onStart_later dated _ _
  | driveBit => exact protocol.onDriveBit_later dated
  | sampleBit => exact protocol.onSampleBit_later dated
  | checkStartStop => exact protocol.onCheckStartStop_later
  | driveAck => exact protocol.onDriveAck_later
  | sampleAck => exact protocol.onSampleAck_later
  | illegal | byteDone | ackSent | acked | nacked => rfl

theorem mismatch_later (phase : Phase) (line : Line) :
    mismatch phase (view.later delay) line = mismatch phase view line := by
  unfold mismatch
  rw [view.level_later]

theorem enter_later (dated : (view.later delay).Dated) (phase : Phase) :
    (protocol.later delay).enter (view.later delay) phase =
      (protocol.enter view phase).later delay := by
  have arrived := arrive_later { protocol with previous := protocol.phase, phase } dated
  unfold enter
  rw [show ({ protocol.later delay with
      previous := (protocol.later delay).phase, phase } : Protocol) =
      Protocol.later { protocol with previous := protocol.phase, phase } delay from rfl, arrived,
    mismatch_later, mismatch_later]
  rfl

theorem edgeNotes_later (dated : (view.later delay).Dated) (edge : Edge) :
    (protocol.later delay).edgeNotes (view.later delay) edge = protocol.edgeNotes view edge := by
  unfold edgeNotes
  rw [show (view.later delay).clock.level = view.clock.level from rfl]
  cases edge.line with
  | clock => exact Note.measure_later _ dated.clock.2 dated.early
  | data =>
    dsimp only
    split
    · rfl
    · exact Note.measure_later _ dated.clock.1 dated.early

theorem successor_later (detector : EdgeDetector) (delay : Nat) (line : Line) :
    (protocol.later delay).successor (detector.later delay) line =
      protocol.successor detector line := rfl

end Protocol
end TwoWire
