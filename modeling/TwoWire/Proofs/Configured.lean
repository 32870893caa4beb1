import Mathlib.Tactic.IntervalCases
import TwoWire.Config.Format
import TwoWire.Proofs.Codecs

/-! Configurations read back, by any library that keeps to the rules (`read_as_written`). -/

namespace TwoWire.Config

open JsonLibrary LawfulJsonLibrary

def nullable : List String := ["expected_speed", "nominal_speed"]

def optional : List String := fieldNames.drop 2

def reset (config : Config) (names : List String) : Config where
  clock := config.clock
  data := config.data
  expectedSpeed := if "expected_speed" ∈ names then none else config.expectedSpeed
  nominalSpeed := if "nominal_speed" ∈ names then none else config.nominalSpeed
  txData := if "tx_data" ∈ names then [] else config.txData
  ackSequence := if "ack_sequence" ∈ names then [] else config.ackSequence
  clockStretch := if "clock_stretch" ∈ names then 0 else config.clockStretch
  settleTime := if "settle_time" ∈ names then 100 else config.settleTime

structure InRange (config : Config) : Prop where
  expectedSpeed : ∀ kbps ∈ config.expectedSpeed, kbps < UInt32.size
  nominalSpeed : ∀ kbps ∈ config.nominalSpeed, kbps < UInt32.size
  clockStretch : config.clockStretch < Time.limit
  settleTime : config.settleTime < Time.limit

section Library

variable [JsonLibrary]

def fields (config : Config) : List (String × Json) := Values.toFields shape.fields config.values

/-- The fields without those that are missing, and with null for the values of some. -/
def sparse (config : Config) (missing nulls : List String) : List (String × Json) :=
  (config.fields.filter fun field => !missing.contains field.1).map fun field =>
    (field.1, if nulls.contains field.1 then .null else field.2)

def ofFields? (lookup : String → Option Json) : Option Config :=
  (Values.ofLookup? lookup shape.fields).map ofValues

variable {config : Config} {missing nulls : List String} {lookup : String → Option Json}

theorem names_fields (config : Config) : config.fields.map (·.1) = fieldNames := rfl

theorem nodup_fieldNames : fieldNames.Nodup := shape.nodup

theorem exists_field (config : Config) {name : String} (known : name ∈ fieldNames) :
    ∃ json, (Json.object config.fields).field? name = some json := by
  rw [← names_fields config] at known
  obtain ⟨⟨name, json⟩, mem, rfl⟩ := List.mem_map.mp known
  exact ⟨json, (Json.field?_eq_some_iff (names_fields config ▸ nodup_fieldNames)).mpr mem⟩

theorem field?_sparse (config : Config) (missing nulls : List String) (name : String) :
    (Json.object (config.sparse missing nulls)).field? name =
      if missing.contains name then none
      else ((Json.object config.fields).field? name).map fun json =>
        if nulls.contains name then .null else json := by
  rw [sparse, Json.field?_map _ _ fun name json => if nulls.contains name then .null else json,
    Json.field?_filter _ _ fun name => !missing.contains name]
  cases missing.contains name <;> rfl

theorem ofFields?_eq_some_values :
    ofFields? lookup = some config ↔ Values.ofLookup? lookup shape.fields = some config.values := by
  rw [ofFields?, Option.map_eq_some_iff]
  constructor
  · rintro ⟨values, read, rfl⟩
    exact read
  · intro read
    exact ⟨config.values, read, rfl⟩

/-- A configuration is read just if each of its fields is. -/
theorem ofFields?_eq_some_iff : ofFields? lookup = some config ↔
    (lineField "clock").value? (lookup "clock") = some config.clock ∧
    (lineField "data").value? (lookup "data") = some config.data ∧
    (speedField "expected_speed").value? (lookup "expected_speed") = some config.expectedSpeed ∧
    (speedField "nominal_speed").value? (lookup "nominal_speed") = some config.nominalSpeed ∧
    (scriptField "tx_data" .byte).value? (lookup "tx_data") = some config.txData ∧
    (scriptField "ack_sequence" bool).value? (lookup "ack_sequence") = some config.ackSequence ∧
    (durationField "clock_stretch" 0).value? (lookup "clock_stretch") = some config.clockStretch ∧
    (durationField "settle_time" 100).value? (lookup "settle_time") = some config.settleTime := by
  rw [ofFields?_eq_some_values, Values.ofLookup?_eq_some_iff]
  exact ⟨fun ⟨clock, data, expected, nominal, tx, ack, stretch, settle, _⟩ =>
      ⟨clock, data, expected, nominal, tx, ack, stretch, settle⟩,
    fun ⟨clock, data, expected, nominal, tx, ack, stretch, settle⟩ =>
      ⟨clock, data, expected, nominal, tx, ack, stretch, settle, trivial⟩⟩

omit [JsonLibrary] in
theorem value?_sparse {field : RecordField} {value fallback : field.Value}
    (reads : field.codec.read? (field.codec.write value) = some value)
    (missed : field.default? = some fallback)
    (null : field.name ∈ nulls → field.name ∈ missing ∨ field.codec.read? .null = some fallback) :
    field.value? (if missing.contains field.name then none
      else (some (field.codec.write value)).map fun json =>
        if nulls.contains field.name then .null else json) =
      some (if field.name ∈ missing ++ nulls then fallback else value) := by
  by_cases gone : field.name ∈ missing
  · simp [RecordField.value?, gone, missed]
  · by_cases nothing : field.name ∈ nulls
    · have read := (null nothing).resolve_left gone
      simp [RecordField.value?, gone, nothing, read]
    · simp [RecordField.value?, gone, nothing, reads]

/-- The two lines have to be named. -/
theorem ofFields?_of_missing (missing : lookup "data" = none) : ofFields? lookup = none := by
  refine Option.eq_none_iff_forall_ne_some.mpr fun config read => ?_
  obtain ⟨-, data, -⟩ := ofFields?_eq_some_iff.mp read
  rw [missing] at data
  cases data

section Lawful

variable [LawfulJsonLibrary]

/-- Null is no value of a field other than the two speeds. -/
theorem ofFields?_of_null {name : String} (known : name ∈ fieldNames) (strict : name ∉ nullable)
    (null : lookup name = some .null) : ofFields? lookup = none := by
  refine Option.eq_none_iff_forall_ne_some.mpr fun config read => ?_
  obtain ⟨clock, data, -, -, tx, ack, stretch, settle⟩ := ofFields?_eq_some_iff.mp read
  simp only [fieldNames, nullable, List.mem_cons, List.not_mem_nil, or_false, not_or] at known strict
  rcases known with rfl | rfl | rfl | rfl | rfl | rfl | rfl | rfl
  · rw [null] at clock
    exact nomatch clock.symm.trans Codec.byte_null
  · rw [null] at data
    exact nomatch data.symm.trans Codec.byte_null
  · exact strict.1 rfl
  · exact strict.2 rfl
  · rw [null] at tx
    exact nomatch tx.symm.trans Codec.list_null
  · rw [null] at ack
    exact nomatch ack.symm.trans Codec.list_null
  · rw [null] at stretch
    exact nomatch stretch.symm.trans (Codec.nat_null _)
  · rw [null] at settle
    exact nomatch settle.symm.trans (Codec.nat_null _)

theorem speed_null (name : String) : (speedField name).codec.read? .null = some none :=
  read?_option ..

theorem read?_write_speed (name : String) {speed : Option Nat}
    (inRange : ∀ kbps ∈ speed, kbps < UInt32.size) :
    (speedField name).codec.read? ((speedField name).codec.write speed) = some speed := by
  change (option (nat .word)).read? ((option (nat .word)).write speed) = some speed
  rw [read?_option, write_option]
  cases speed with
  | none => rfl
  | some kbps =>
    rw [Json.ofOption, write_nat (inRange kbps rfl)]
    change ((nat .word).read? (.int kbps)).map some = some (some kbps)
    rw [read?_nat.mpr ⟨rfl, inRange kbps rfl⟩, Option.map_some]

theorem ofFields?_sparse (inRange : config.InRange) (left : missing ⊆ optional)
    (known : nulls ⊆ fieldNames) :
    ofFields? (Json.object (config.sparse missing nulls)).field? =
      if nulls ⊆ missing ++ nullable then some (config.reset (missing ++ nulls)) else none := by
  split
  case isTrue fine =>
    have given (name : String) (strict : name ∉ nullable) (null : name ∈ nulls) :
        name ∈ missing := (List.mem_append.mp (fine null)).resolve_right strict
    have needed (name : String) (line : name ∉ optional) (strict : name ∉ nullable) :
        (Json.object (config.sparse missing nulls)).field? name =
          (Json.object config.fields).field? name := by
      have kept : name ∉ missing := fun gone => line (left gone)
      have valued : name ∉ nulls := fun null => kept (given name strict null)
      simp [field?_sparse, kept, valued]
    refine ofFields?_eq_some_iff.mpr ⟨?_, ?_, ?_, ?_, ?_, ?_, ?_, ?_⟩
    · rw [needed "clock" (by decide) (by decide)]
      exact Codec.read?_write_byte config.clock
    · rw [needed "data" (by decide) (by decide)]
      exact Codec.read?_write_byte config.data
    · rw [field?_sparse]
      exact value?_sparse (read?_write_speed _ inRange.expectedSpeed) rfl
        fun _ => .inr (speed_null _)
    · rw [field?_sparse]
      exact value?_sparse (read?_write_speed _ inRange.nominalSpeed) rfl
        fun _ => .inr (speed_null _)
    · rw [field?_sparse]
      exact value?_sparse (Codec.read?_write_list Codec.read?_write_byte _) rfl
        fun null => .inl (given "tx_data" (by decide) null)
    · rw [field?_sparse]
      exact value?_sparse (Codec.read?_write_list Codec.read?_write_bool _) rfl
        fun null => .inl (given "ack_sequence" (by decide) null)
    · rw [field?_sparse]
      exact value?_sparse (Codec.read?_write_nat inRange.clockStretch) rfl
        fun null => .inl (given "clock_stretch" (by decide) null)
    · rw [field?_sparse]
      exact value?_sparse (Codec.read?_write_nat inRange.settleTime) rfl
        fun null => .inl (given "settle_time" (by decide) null)
  case isFalse wrong =>
    obtain ⟨name, null, outside⟩ : ∃ name ∈ nulls, name ∉ missing ++ nullable := by
      simpa [List.subset_def] using wrong
    obtain ⟨present, strict⟩ := not_or.mp (mt List.mem_append.mpr outside)
    obtain ⟨json, found⟩ := config.exists_field (known null)
    refine ofFields?_of_null (known null) strict ?_
    simp [field?_sparse, present, found, null]

/-- What is read of an object are the fields whose names are known, in whatever order they stand. -/
theorem ofJson?_of_perm {fields : List (String × Json)}
    (perm : (fields.filter fun field => fieldNames.contains field.1).Perm
      (config.sparse missing nulls)) :
    ofJson? (.object fields) = ofFields? (Json.object (config.sparse missing nulls)).field? := by
  have nodup : ((config.sparse missing nulls).map (·.1)).Nodup := by
    have names : (config.sparse missing nulls).map (·.1) =
        (config.fields.filter fun field => !missing.contains field.1).map (·.1) := by
      rw [sparse, List.map_map]
      rfl
    rw [names]
    exact (List.filter_sublist.map _).nodup (names_fields config ▸ nodup_fieldNames)
  have nodup := (perm.map _).nodup_iff.mpr nodup
  have known {field : RecordField} (mem : field ∈ shape.fields) : field.name ∈ fieldNames :=
    List.mem_map_of_mem mem
  have once : ∀ field ∈ shape.fields, (fields.map (·.1)).count field.name ≤ 1 := by
    intro field mem
    have kept : fieldNames.contains field.name = true := List.contains_iff_mem.mpr (known mem)
    rw [← List.count_filter kept, List.filter_map]
    exact List.nodup_iff_count_le_one.mp nodup field.name
  rw [ofJson?, read?_object shape once]
  refine congrArg (Option.map ofValues) (Values.ofLookup?_congr fun field mem => ?_)
  rw [← Json.field?_of_perm perm nodup, Json.field?_filter _ _ fieldNames.contains,
    if_pos (List.contains_iff_mem.mpr (known mem))]

theorem ofJson?_of_repeated {fields : List (String × Json)} {name : String}
    (known : name ∈ fieldNames) (twice : 1 < (fields.map (·.1)).count name) :
    ofJson? (.object fields) = none := by
  obtain ⟨field, mem, rfl⟩ : ∃ field ∈ shape.fields, field.name = name := List.mem_map.mp known
  rw [ofJson?, read?_repeated shape ⟨field, mem, twice⟩, Option.map_none]

theorem ofJson?_toJson (inRange : config.InRange) : ofJson? config.toJson = some config := by
  have read := @ofJson?_of_perm _ config [] [] _ config.fields (.refl _)
  rw [ofFields?_sparse inRange (List.nil_subset _) (List.nil_subset _)] at read
  rw [toJson, write_record]
  exact read

theorem ofJson?_of_items {items : List Json} (le : items.length ≤ 8) :
    ofJson? (.list items) = ofFields? (Json.object (fieldNames.zip items)).field? := by
  rw [ofJson?, read?_items shape le, Values.ofItems?_eq shape.nodup]
  rfl

theorem ofJson?_of_take (config : Config) (nulls : List String) {count : Nat} (le : count ≤ 8) :
    ofJson? (.list (((config.sparse [] nulls).map (·.2)).take count)) =
      ofFields? (Json.object (config.sparse (fieldNames.drop count) nulls)).field? := by
  have first : fieldNames.zip (((config.sparse [] nulls).map (·.2)).take count) =
      config.sparse (fieldNames.drop count) nulls := by
    interval_cases count <;> rfl
  rw [ofJson?_of_items (List.length_take_le' ..), first]

theorem ofJson?_of_few {items : List Json} (few : items.length < 2) :
    ofJson? (.list items) = none := by
  rw [ofJson?_of_items (by omega)]
  refine ofFields?_of_missing ?_
  match items, few with
  | [], _ => rfl
  | [_], _ => rfl

theorem portable_toJson (inRange : config.InRange) : config.toJson.Portable Json.maxDepth := by
  have number {depth width n} (fits : n < Width.size width) :
      ((nat width).write n).Portable depth := by
    have long : Width.size width ≤ UInt64.size := by cases width <;> decide
    rw [write_nat fits]
    exact .int (by omega) (by omega)
  have byte {depth} (value : UInt8) : (Codec.byte.write value).Portable depth :=
    number value.toNat_lt
  have speed {depth} {speed : Option Nat} (inRange : ∀ kbps ∈ speed, kbps < UInt32.size) :
      ((option (nat .word)).write speed).Portable depth := by
    rw [write_option]
    cases speed with
    | none => exact .null
    | some kbps => exact number (inRange kbps rfl)
  rw [toJson, write_record]
  refine .object (names_fields config ▸ nodup_fieldNames) fun field mem => ?_
  change field ∈ [_, _, _, _, _, _, _, _] at mem
  simp only [List.mem_cons, List.not_mem_nil, or_false] at mem
  rcases mem with rfl | rfl | rfl | rfl | rfl | rfl | rfl | rfl
  · exact byte _
  · exact byte _
  · exact speed inRange.expectedSpeed
  · exact speed inRange.nominalSpeed
  · change ((list Codec.byte).write config.txData).Portable _
    rw [write_list]
    refine .list fun item mem => ?_
    obtain ⟨value, -, rfl⟩ := List.mem_map.mp mem
    exact byte value
  · change ((list bool).write config.ackSequence).Portable _
    rw [write_list]
    refine .list fun item mem => ?_
    obtain ⟨value, -, rfl⟩ := List.mem_map.mp mem
    rw [write_bool]
    exact .bool value
  · exact number inRange.clockStretch
  · exact number inRange.settleTime

/-- A configuration is read back from its own text. It is read from an object with its fields in any
order and others between them, or from the first of its values in a list, if the two lines are
there; what is missing is left at its default. Null is a value of the two speeds and of no other
field. -/
theorem read_as_written (inRange : config.InRange) :
    config.toJson = .object config.fields ∧
    (ofText? (toText config.toJson)).bind ofJson? = some config ∧
    (∀ missing ⊆ optional, ∀ nulls ⊆ fieldNames, ∀ fields : List (String × Json),
      (fields.filter fun field => fieldNames.contains field.1).Perm (config.sparse missing nulls) →
      ofJson? (.object fields) =
        if nulls ⊆ missing ++ nullable then some (config.reset (missing ++ nulls)) else none) ∧
    (∀ count, 2 ≤ count → count ≤ 8 → ∀ nulls ⊆ fieldNames,
      ofJson? (.list (((config.sparse [] nulls).map (·.2)).take count)) =
        if nulls ⊆ fieldNames.drop count ++ nullable then
          some (config.reset (fieldNames.drop count ++ nulls))
        else none) ∧
    ∀ items : List Json, items.length < 2 ∨ 8 < items.length → ofJson? (.list items) = none := by
  refine ⟨write_record .., ?_, fun missing left nulls known fields perm => ?_,
    fun count two eight nulls known => ?_, fun items wrong => ?_⟩
  · rw [ofText?_toText (portable_toJson inRange), Option.bind_some, ofJson?_toJson inRange]
  · rw [ofJson?_of_perm perm, ofFields?_sparse inRange left known]
  · have left : fieldNames.drop count ⊆ optional := (List.drop_sublist_drop_left _ two).subset
    rw [config.ofJson?_of_take nulls eight, ofFields?_sparse inRange left known]
  · rcases wrong with few | many
    · exact ofJson?_of_few few
    · rw [ofJson?, read?_beyond shape many, Option.map_none]

end Lawful

end Library

/-- The largest numbers there are. An object names the data line first, has a field that means
nothing here, no field for the bytes and for the settle time, and null for a speed. A list breaks off
after a null. -/
theorem read_as_written_at_limits :
    let config : Config :=
      { clock := 255, data := 0, expectedSpeed := some 4294967295, nominalSpeed := some 100,
        txData := [7, 255], ackSequence := [true, false], clockStretch := 18446744073709551615,
        settleTime := 0 }
    config.InRange ∧
    (ofText? (toText config.toJson)).bind ofJson? = some config ∧
    ofJson? (.object [("data", .int 0), ("clock", .int 255), ("note", .list [.decimal "0.5"]),
      ("expected_speed", .int 4294967295), ("nominal_speed", .null),
      ("ack_sequence", .list [.bool true, .bool false]),
      ("clock_stretch", .int 18446744073709551615)]) =
      some { clock := 255, data := 0, expectedSpeed := some 4294967295,
             ackSequence := [true, false], clockStretch := 18446744073709551615 } ∧
    ofJson? (.list [.int 255, .int 0, .null]) = some { clock := 255, data := 0 } ∧
    ofJson? (.list [.int 255, .int 0, .null, .int 100, .null]) = none ∧
    ofJson? (.list [.int 255]) = none := by
  intro config
  have inRange : config.InRange := by
    constructor
    · rintro kbps ⟨⟩
      decide
    · rintro kbps ⟨⟩
      decide
    · decide
    · decide
  obtain ⟨-, text, objects, lists, few⟩ := read_as_written inRange
  refine ⟨inRange, text, ?_, ?_, ?_, few _ (.inl (by decide))⟩
  · exact objects ["tx_data", "settle_time"] (by decide) ["nominal_speed"] (by decide) _
      (.swap _ _ _)
  · exact lists 3 (by decide) (by decide) ["expected_speed"] (by decide)
  · exact lists 5 (by decide) (by decide) ["expected_speed", "tx_data"] (by decide)

end TwoWire.Config
