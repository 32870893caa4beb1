import TwoWire.Json.Library
import TwoWire.Json.Reader
import TwoWire.Json.Writer

/-! Records as JSON, and the library that programs run with. -/

namespace TwoWire.Json

def record? (shape : RecordShape) : Json → Option (Values shape.fields)
  | .object fields =>
    if ∀ field ∈ shape.fields, (fields.map (·.1)).count field.name ≤ 1 then
      Values.ofLookup? (Json.object fields).field? shape.fields
    else none
  | .list items =>
    if items.length ≤ shape.fields.length then Values.ofItems? shape.fields items else none
  | _ => none

instance library : JsonLibrary where
  ofText? := read?
  toText := write
  nat width := { read? := natBelow? width.size, write := ofNat }
  bool := { read? := bool?, write := .bool }
  option codec := { read? := optional? codec.read?, write := ofOption codec.write }
  list codec := { read? := listOf? codec.read?, write := fun values => .list (values.map codec.write) }
  record shape := {
    read? := record? shape
    write := fun values => .object (Values.toFields shape.fields values) }

end TwoWire.Json
