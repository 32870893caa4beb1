import TwoWire.Speed.Class

/-! Timing parameters. Each names an interval of the protocol and the limit it is held to. -/

namespace TwoWire

inductive TimingParam
  | dataValid
  | startHold
  | startSetup
  | repeatedStartSetup
  | dataSetup
  | clockLow
  | clockHigh
  | stopSetup
  | busFree
  deriving DecidableEq, Repr

inductive Bound
  | min (limit : Int)
  | max (limit : Int)
  | unchecked
  deriving DecidableEq, Repr

def Bound.allows : Bound → Int → Bool
  | .min limit, interval => decide (limit ≤ interval)
  | .max limit, interval => decide (interval ≤ limit)
  | .unchecked, _ => true

namespace TimingParam

def bound (limits : Limits) : TimingParam → Bound
  | .dataValid => (limits.dataValidMax.map fun most => Bound.max most).getD .unchecked
  | .startHold => .min limits.startHoldMin
  | .startSetup => .min limits.startSetupMin
  | .repeatedStartSetup => .min limits.startSetupMin
  | .dataSetup => .min limits.dataSetupMin
  | .clockLow => .min limits.clockLowMin
  | .clockHigh => .min limits.clockHighMin
  | .stopSetup => .min limits.stopSetupMin
  | .busFree => .min limits.busFreeMin

/-- The complaint about an interval that breaks the limit. A start and a repeated start are worded
alike. -/
def text : TimingParam → String
  | .dataValid => "Data valid time not respected"
  | .startHold => "Start hold time less than minimum in spec"
  | .startSetup => "Start bit setup time less than minimum in spec"
  | .repeatedStartSetup => "Start bit setup time less than minimum in spec"
  | .dataSetup => "Data setup time less than minimum in spec"
  | .clockLow => "Clock low time less than minimum in spec"
  | .clockHigh => "Clock high time less than minimum in spec"
  | .stopSetup => "Stop bit setup time less than minimum in spec"
  | .busFree => "STOP to START time less than minimum in spec"

end TimingParam
end TwoWire
