import TwoWire.Speed.Class
import TwoWire.Time

/-! How long the simulated controller stays in each part of a clock pulse and of a condition. -/

namespace TwoWire

structure ControllerTiming where
  clockLow : Nat
  clockHigh : Nat
  /-- From the fall of the clock to the change of the data line. -/
  dataDelay : Nat
  startHold : Nat
  startSetup : Nat
  stopSetup : Nat
  busFree : Nat
  deriving DecidableEq, Repr

inductive ControllerError
  | zeroClockPhase
  | lateData
  | unsupportedSpeed (kbps : Nat)
  deriving DecidableEq, Repr

def ControllerError.message : ControllerError → String
  | .zeroClockPhase => "Invalid master timing: clock phases must be non-zero"
  | .lateData => "Invalid master timing: data must change before the clock rises"
  | .unsupportedSpeed kbps => s!"No master timing for {kbps} kbit/s"

namespace ControllerTiming

def fast : ControllerTiming := ⟨1400, 1100, 300, 1100, 1100, 1100, 1500⟩

def standard : ControllerTiming := ⟨5000, 5000, 1000, 5000, 5000, 5000, 5000⟩

def slow : ControllerTiming := ⟨50000, 50000, 2000, 50000, 50000, 50000, 50000⟩

def ofClass : SpeedClass → ControllerTiming
  | .fast => fast
  | .standard => standard
  | .slow => slow

def ofKbps (kbps : Nat) : Except ControllerError ControllerTiming :=
  match SpeedClass.ofKbps? kbps with
  | some speed => .ok (ofClass speed)
  | none => .error (.unsupportedSpeed kbps)

def period (timing : ControllerTiming) : Except Overflow Nat :=
  let total := timing.clockLow + timing.clockHigh
  if total < Time.limit then .ok total else .error .add

def check (timing : ControllerTiming) : Except ControllerError Unit :=
  if timing.clockLow = 0 ∨ timing.clockHigh = 0 then .error .zeroClockPhase
  else if timing.clockLow ≤ timing.dataDelay then .error .lateData
  else .ok ()

theorem check_eq_ok_iff {timing : ControllerTiming} :
    timing.check = .ok () ↔ timing.dataDelay < timing.clockLow ∧ 0 < timing.clockHigh := by
  unfold check
  split
  · simp
    omega
  · split <;> simp <;> omega

end ControllerTiming
end TwoWire
