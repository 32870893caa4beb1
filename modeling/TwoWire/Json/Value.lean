/-! Values of the JSON data format. A number written with a fraction or an exponent is kept as it
was written and is never an integer, however whole its value. -/

namespace TwoWire

inductive Json
  | null
  | bool (value : Bool)
  | int (value : Int)
  | decimal (written : String)
  | text (value : String)
  | list (items : List Json)
  | object (fields : List (String × Json))

namespace Json

/-- The first field of a name. -/
def field? : Json → String → Option Json
  | object fields, name => (fields.find? fun field => field.1 == name).map (·.2)
  | _, _ => none

def int? : Json → Option Int
  | int value => some value
  | _ => none

def natBelow? (bound : Nat) : Json → Option Nat
  | int value => if 0 ≤ value ∧ value < bound then some value.toNat else none
  | _ => none

def bool? : Json → Option Bool
  | bool value => some value
  | _ => none

def text? : Json → Option String
  | text value => some value
  | _ => none

def list? : Json → Option (List Json)
  | list items => some items
  | _ => none

def optional? (read : Json → Option α) : Json → Option (Option α)
  | null => some none
  | value => (read value).map some

def listOf? (read : Json → Option α) (json : Json) : Option (List α) :=
  json.list?.bind fun items => items.mapM read

def byte? (json : Json) : Option UInt8 := (json.natBelow? 256).map UInt8.ofNat

def ofNat (n : Nat) : Json := int n

def ofOption (write : α → Json) : Option α → Json
  | none => null
  | some value => write value

def ofByte (byte : UInt8) : Json := ofNat byte.toNat

end Json
end TwoWire
