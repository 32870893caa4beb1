import TwoWire.Time

/-! Speed classes and the electrical limits that come with each, in nanoseconds. -/

namespace TwoWire

inductive SpeedClass
  | standard
  | fast
  /-- Ten kbit/s, held to the standard minimums only. -/
  | slow
  deriving DecidableEq, Repr

structure Limits where
  startHoldMin : Nat
  startSetupMin : Nat
  dataSetupMin : Nat
  clockLowMin : Nat
  clockHighMin : Nat
  stopSetupMin : Nat
  busFreeMin : Nat
  /-- `none` when the class does not bound the data valid time. -/
  dataValidMax : Option Nat
  deriving DecidableEq, Repr

namespace SpeedClass

def name : SpeedClass → String
  | .standard => "Standard"
  | .fast => "Fast"
  | .slow => "Slow"

def kbps : SpeedClass → Nat
  | .standard => 100
  | .fast => 400
  | .slow => 10

def ofKbps? (kbps : Nat) : Option SpeedClass :=
  if kbps = 100 then some .standard
  else if kbps = 400 then some .fast
  else if kbps = 10 then some .slow
  else none

def limits : SpeedClass → Limits
  | .standard => ⟨4000, 4700, 250, 4700, 4000, 4000, 4700, some 3450⟩
  | .fast => ⟨600, 600, 100, 1300, 900, 600, 1300, some 900⟩
  | .slow => ⟨4000, 4700, 250, 4700, 4000, 4000, 4700, none⟩

@[simp] theorem ofKbps?_kbps (speed : SpeedClass) : ofKbps? speed.kbps = some speed := by
  cases speed <;> rfl

end SpeedClass
end TwoWire
