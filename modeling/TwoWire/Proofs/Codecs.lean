import Mathlib.Data.List.Nodup
import TwoWire.Json.Records
import TwoWire.Proofs.Reread

/-! Records and their codecs, in any library that keeps to the rules, and that ours does (`lawful`).
-/

namespace TwoWire

namespace Json

variable (fields : List (String × Json)) (name : String)

theorem field?_filter (keep : String → Bool) :
    (object (fields.filter fun field => keep field.1)).field? name =
      if keep name then (object fields).field? name else none := by
  have found (field : String × Json) :
      decide (keep field.1 = true ∧ (field.1 == name) = true) =
        (keep name && field.1 == name) := by
    by_cases is : field.1 = name <;> simp [is]
  rw [field?, field?, List.find?_filter, funext found]
  cases keep name with
  | true => simp
  | false => simp

theorem field?_map (change : String → Json → Json) :
    (object (fields.map fun field => (field.1, change field.1 field.2))).field? name =
      ((object fields).field? name).map (change name) := by
  rw [field?, field?, List.find?_map, Option.map_map, Option.map_map]
  cases found : fields.find? fun field => field.1 == name with
  | none => simp [Function.comp_def, found]
  | some field =>
    have is : field.1 = name := by simpa using List.find?_some found
    simp [Function.comp_def, found, is]

variable {fields name}

theorem field?_eq_some_iff (nodup : (fields.map (·.1)).Nodup) {json : Json} :
    (object fields).field? name = some json ↔ (name, json) ∈ fields := by
  constructor
  · intro found
    obtain ⟨field, first, rfl⟩ := Option.map_eq_some_iff.mp found
    have is : field.1 = name := by simpa using List.find?_some first
    rw [← is]
    exact List.mem_of_find?_eq_some first
  · intro mem
    obtain ⟨field, found⟩ : ∃ field, fields.find? (fun field => field.1 == name) = some field := by
      rw [← Option.isSome_iff_exists, List.find?_isSome]
      exact ⟨_, mem, by simp⟩
    have is : field.1 = name := by simpa using List.find?_some found
    have same : field = (name, json) :=
      List.inj_on_of_nodup_map nodup (List.mem_of_find?_eq_some found) mem is
    rw [field?, found, same]
    rfl

theorem field?_of_perm {others : List (String × Json)} (perm : fields.Perm others)
    (nodup : (fields.map (·.1)).Nodup) :
    (object fields).field? name = (object others).field? name := by
  ext json
  rw [field?_eq_some_iff nodup, field?_eq_some_iff ((perm.map _).nodup nodup), perm.mem_iff]

theorem field?_cons_of_ne {first : String} (other : first ≠ name) (json : Json) :
    (object ((first, json) :: fields)).field? name = (object fields).field? name := by
  rw [field?, field?, List.find?_cons_of_neg (by simpa using other)]

end Json

namespace Values

theorem ofLookup?_congr {fields : List RecordField} {lookup other : String → Option Json}
    (agree : ∀ field ∈ fields, lookup field.name = other field.name) :
    ofLookup? lookup fields = ofLookup? other fields := by
  induction fields with
  | nil => rfl
  | cons field fields ih =>
    obtain ⟨first, rest⟩ := List.forall_mem_cons.mp agree
    rw [ofLookup?, ofLookup?, first, ih rest]

/-- Each of the values is read from what is found under the name of its field. -/
def Reads (lookup : String → Option Json) : (fields : List RecordField) → Values fields → Prop
  | [], _ => True
  | field :: fields, (value, rest) =>
    field.value? (lookup field.name) = some value ∧ Reads lookup fields rest

theorem ofLookup?_eq_some_iff {fields : List RecordField} {lookup : String → Option Json}
    {values : Values fields} : ofLookup? lookup fields = some values ↔ Reads lookup fields values := by
  induction fields with
  | nil => exact iff_of_true rfl trivial
  | cons field fields ih =>
    obtain ⟨value, rest⟩ := values
    constructor
    · intro read
      obtain ⟨_, first, others⟩ := Option.bind_eq_some_iff.mp read
      obtain ⟨_, read', same⟩ := Option.map_eq_some_iff.mp others
      cases same
      exact ⟨first, ih.mp read'⟩
    · rintro ⟨first, others⟩
      exact Option.bind_eq_some_iff.mpr
        ⟨value, first, Option.map_eq_some_iff.mpr ⟨rest, ih.mpr others, rfl⟩⟩

theorem ofItems?_eq {fields : List RecordField} (nodup : (fields.map (·.name)).Nodup)
    (items : List Json) :
    ofItems? fields items =
      ofLookup? (Json.object ((fields.map (·.name)).zip items)).field? fields := by
  induction fields generalizing items with
  | nil => rfl
  | cons field fields ih =>
    obtain ⟨fresh, nodup⟩ := List.nodup_cons.mp nodup
    cases items with
    | nil =>
      rw [ofItems?, List.tail_nil, ih nodup, List.zip_nil_right, List.zip_nil_right]
      rfl
    | cons item items =>
      have first : (Json.object ((field.name, item) :: (fields.map (·.name)).zip items)).field?
          field.name = some item := by simp [Json.field?]
      have others : ofLookup? (Json.object ((field.name, item) ::
            (fields.map (·.name)).zip items)).field? fields =
          ofLookup? (Json.object ((fields.map (·.name)).zip items)).field? fields := by
        refine ofLookup?_congr fun other mem => Json.field?_cons_of_ne ?_ item
        intro same
        exact fresh (List.mem_map.mpr ⟨other, mem, same.symm⟩)
      rw [ofItems?, List.tail_cons, ih nodup, List.map_cons, List.zip_cons_cons, ofLookup?, first,
        others]
      rfl

end Values

open JsonLibrary LawfulJsonLibrary

namespace Codec

variable [JsonLibrary] [LawfulJsonLibrary] {α : Type} {codec : Codec α}

theorem read?_write_nat {width : Width} {n : Nat} (fits : n < width.size) :
    (nat width).read? ((nat width).write n) = some n :=
  read?_nat.mpr ⟨write_nat fits, fits⟩

theorem read?_write_bool (value : Bool) : bool.read? (bool.write value) = some value :=
  read?_bool.mpr (write_bool value)

theorem read?_write_byte (value : UInt8) : byte.read? (byte.write value) = some value := by
  change ((nat .byte).read? ((nat .byte).write value.toNat)).map UInt8.ofNat = some value
  rw [read?_write_nat value.toNat_lt, Option.map_some, UInt8.ofNat_toNat]

theorem read?_write_list (reads : ∀ value, codec.read? (codec.write value) = some value)
    (values : List α) : (list codec).read? ((list codec).write values) = some values := by
  rw [read?_list, write_list]
  change (values.map codec.write).mapM codec.read? = some values
  induction values with
  | nil => rfl
  | cons value rest ih => simp [reads, ih]

theorem nat_null (width : Width) : (nat width).read? .null = none := by
  refine Option.eq_none_iff_forall_ne_some.mpr fun n read => ?_
  cases (read?_nat.mp read).1

theorem byte_null : byte.read? .null = none := by
  change ((nat .byte).read? .null).map UInt8.ofNat = none
  rw [nat_null, Option.map_none]

theorem list_null : (list codec).read? .null = none := by
  rw [read?_list]
  rfl

end Codec

namespace Json

theorem natBelow?_eq_some_iff {bound n : Nat} {json : Json} :
    json.natBelow? bound = some n ↔ json = .int n ∧ n < bound := by
  cases json with
  | int value =>
    simp only [natBelow?, int.injEq]
    split <;> simp <;> omega
  | _ => simp [natBelow?]

theorem bool?_eq_some_iff {json : Json} {value : Bool} :
    json.bool? = some value ↔ json = .bool value := by
  cases json <;> simp [bool?]

theorem Portable.plain {depth : Nat} {json : Json} (portable : json.Portable depth) :
    json.Plain := by
  induction portable with
  | null => exact .null
  | bool value => exact .bool value
  | int => exact .int _
  | text value => exact .text value
  | list _ ih => exact .list ih
  | object _ _ ih => exact .object ih

instance lawful : LawfulJsonLibrary where
  ofText?_toText portable := read?_write portable.plain
  read?_nat := natBelow?_eq_some_iff
  write_nat _ := rfl
  read?_bool := bool?_eq_some_iff
  write_bool _ := rfl
  read?_option _ _ := rfl
  write_option _ _ := rfl
  read?_list _ _ := rfl
  write_list _ _ := rfl
  read?_object _ _ once := if_pos once
  read?_repeated _ _ twice := if_neg fun once =>
    let ⟨field, mem, more⟩ := twice
    Nat.not_le_of_lt more (once field mem)
  read?_items _ _ fits := if_pos fits
  read?_beyond _ _ beyond := if_neg (Nat.not_le_of_lt beyond)
  write_record _ _ := rfl

end Json
end TwoWire
