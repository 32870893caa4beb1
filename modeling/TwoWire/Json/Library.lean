import TwoWire.Json.Value

/-! What reading and writing values as JSON is left to, and what of it is relied on. -/

namespace TwoWire

namespace Json

/-- How deep lists and objects can be read inside one another. -/
def maxDepth : Nat := 127

/-- Values that a text gives back: whole numbers have 64 bits, and no name is written twice. -/
inductive Portable : Nat → Json → Prop
  | null {depth : Nat} : Portable depth .null
  | bool {depth : Nat} (value : Bool) : Portable depth (.bool value)
  | int {depth : Nat} {value : Int} (least : -(UInt64.size / 2) ≤ value) (most : value < UInt64.size) :
    Portable depth (.int value)
  | text {depth : Nat} (value : String) : Portable depth (.text value)
  | list {depth : Nat} {items : List Json} (all : ∀ item ∈ items, Portable depth item) :
    Portable (depth + 1) (.list items)
  | object {depth : Nat} {fields : List (String × Json)} (nodup : (fields.map (·.1)).Nodup)
    (all : ∀ field ∈ fields, Portable depth field.2) : Portable (depth + 1) (.object fields)

end Json

structure Codec (α : Type) where
  read? : Json → Option α
  write : α → Json

inductive Width
  | byte
  | word
  | long

def Width.size : Width → Nat
  | .byte => UInt8.size
  | .word => UInt32.size
  | .long => UInt64.size

structure RecordField where
  name : String
  {Value : Type}
  codec : Codec Value
  /-- The value of the field where it is missing; without one it has to be there. -/
  default? : Option Value := none

/-- A field that is there has to be readable. -/
def RecordField.value? (field : RecordField) : Option Json → Option field.Value
  | none => field.default?
  | some json => field.codec.read? json

structure RecordShape where
  fields : List RecordField
  nodup : (fields.map (·.name)).Nodup

def Values : List RecordField → Type
  | [] => Unit
  | field :: fields => field.Value × Values fields

namespace Values

def ofLookup? (lookup : String → Option Json) : (fields : List RecordField) → Option (Values fields)
  | [] => some ()
  | field :: fields =>
    (field.value? (lookup field.name)).bind fun value =>
      (ofLookup? lookup fields).map fun rest => (value, rest)

/-- The first item is the first field, and so on; fields after the last item are missing. -/
def ofItems? : (fields : List RecordField) → List Json → Option (Values fields)
  | [], _ => some ()
  | field :: fields, items =>
    (field.value? items.head?).bind fun value =>
      (ofItems? fields items.tail).map fun rest => (value, rest)

def toFields : (fields : List RecordField) → Values fields → List (String × Json)
  | [], _ => []
  | field :: fields, (value, rest) => (field.name, field.codec.write value) :: toFields fields rest

end Values

class JsonLibrary where
  ofText? : String → Option Json
  toText : Json → String
  nat (width : Width) : Codec Nat
  bool : Codec Bool
  option {α : Type} (codec : Codec α) : Codec (Option α)
  list {α : Type} (codec : Codec α) : Codec (List α)
  record (shape : RecordShape) : Codec (Values shape.fields)

def Codec.byte [JsonLibrary] : Codec UInt8 where
  read? json := ((JsonLibrary.nat .byte).read? json).map UInt8.ofNat
  write byte := (JsonLibrary.nat .byte).write byte.toNat

/-- The rules of acceptance. A number is read if it is whole and fits, and null only as an option. A
record is read from an object, where fields of other names are passed over but none of its own may
stand twice, or from a list of its fields in order. -/
class LawfulJsonLibrary [JsonLibrary] : Prop where
  ofText?_toText {json : Json} (portable : json.Portable Json.maxDepth) :
    JsonLibrary.ofText? (JsonLibrary.toText json) = some json
  read?_nat {width : Width} {json : Json} {n : Nat} :
    (JsonLibrary.nat width).read? json = some n ↔ json = .int n ∧ n < width.size
  write_nat {width : Width} {n : Nat} (fits : n < width.size) :
    (JsonLibrary.nat width).write n = .int n
  read?_bool {json : Json} {value : Bool} :
    JsonLibrary.bool.read? json = some value ↔ json = .bool value
  write_bool (value : Bool) : JsonLibrary.bool.write value = .bool value
  read?_option {α : Type} (codec : Codec α) (json : Json) :
    (JsonLibrary.option codec).read? json = json.optional? codec.read?
  write_option {α : Type} (codec : Codec α) (value : Option α) :
    (JsonLibrary.option codec).write value = .ofOption codec.write value
  read?_list {α : Type} (codec : Codec α) (json : Json) :
    (JsonLibrary.list codec).read? json = json.listOf? codec.read?
  write_list {α : Type} (codec : Codec α) (values : List α) :
    (JsonLibrary.list codec).write values = .list (values.map codec.write)
  read?_object (shape : RecordShape) {fields : List (String × Json)}
    (once : ∀ field ∈ shape.fields, (fields.map (·.1)).count field.name ≤ 1) :
    (JsonLibrary.record shape).read? (.object fields) =
      Values.ofLookup? (Json.object fields).field? shape.fields
  read?_repeated (shape : RecordShape) {fields : List (String × Json)}
    (twice : ∃ field ∈ shape.fields, 1 < (fields.map (·.1)).count field.name) :
    (JsonLibrary.record shape).read? (.object fields) = none
  read?_items (shape : RecordShape) {items : List Json} (fits : items.length ≤ shape.fields.length) :
    (JsonLibrary.record shape).read? (.list items) = Values.ofItems? shape.fields items
  read?_beyond (shape : RecordShape) {items : List Json}
    (beyond : shape.fields.length < items.length) :
    (JsonLibrary.record shape).read? (.list items) = none
  write_record (shape : RecordShape) (values : Values shape.fields) :
    (JsonLibrary.record shape).write values = .object (Values.toFields shape.fields values)

end TwoWire
