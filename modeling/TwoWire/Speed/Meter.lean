import TwoWire.Time

/-! Effective speed, over the intervals between consecutive clock falls. The meter is reset at every
byte boundary, so no interval spans two bytes. -/

namespace TwoWire

structure SpeedMeter where
  lastFall : Option Nat := none
  total : Nat := 0
  count : Nat := 0
  deriving DecidableEq, Repr

inductive SpeedVerdict
  | tooSlow
  | tooFast
  deriving DecidableEq, Repr

namespace SpeedMeter

/-- The first fall after a reset has no predecessor and is only a reference. -/
def clockFell (meter : SpeedMeter) (time : Nat) : SpeedMeter :=
  match meter.lastFall with
  | none => { meter with lastFall := some time }
  | some previous =>
    { lastFall := some time
      total := Time.saturate (meter.total + (time - previous))
      count := min (meter.count + 1) (UInt32.size - 1) }

def average? (meter : SpeedMeter) : Option Float :=
  if meter.count = 0 then none
  else some ((UInt64.ofNat meter.total).toFloat / (UInt64.ofNat meter.count).toFloat)

def throughput? (meter : SpeedMeter) : Option Float :=
  if meter.total = 0 then none else meter.average?.map (1e6 / ·)

end SpeedMeter

namespace Throughput

/-- Nearest whole number of kbit/s, a half going up; out of range goes to the nearer end. -/
def round (kbps : Float) : Nat := (kbps + 0.5).toUInt32.toNat

/-- A throughput may lie one per cent below the expected speed and five above. -/
def verdict? (measured : Float) (expected : Nat) : Option SpeedVerdict :=
  let wanted := (UInt64.ofNat expected).toFloat
  if measured < 0.99 * wanted then some .tooSlow
  else if 1.05 * wanted < measured then some .tooFast
  else none

end Throughput
end TwoWire
