import Mathlib.Data.List.Basic
import TwoWire.Json.Reader
import TwoWire.Json.Writer

/-! The lexemes of what is written: the text of a value without decimals is cut into exactly the
lexemes of that value (`spells_write`). -/

namespace TwoWire.Json

/-- No number in the value has a fraction or an exponent. -/
inductive Plain : Json → Prop
  | null : Plain .null
  | bool (value : Bool) : Plain (.bool value)
  | int (value : Int) : Plain (.int value)
  | text (value : String) : Plain (.text value)
  | list {items : List Json} (all : ∀ item ∈ items, Plain item) : Plain (.list items)
  | object {fields : List (String × Json)} (all : ∀ field ∈ fields, Plain field.2) :
    Plain (.object fields)

namespace Token

/-- A number and a word end at such a character, or with the text. -/
def Ends (rest : List Char) : Prop := ∀ c ∈ rest.head?, c.isAlpha = false ∧ isNumeral c = false

/-- The characters are read as the lexemes, whatever follows that ends them. -/
def Spells (written : List Char) (tokens : List Token) : Prop :=
  ∀ rest, Ends rest →
    scan? .between (written ++ rest) = (scan? .between rest).map (tokens ++ ·)

variable {c : Char} {token : Token} {written more : List Char} {tokens others : List Token}

theorem ends_nil : Ends [] := nofun

theorem ends_cons (mark : mark? c = some token) (rest : List Char) : Ends (c :: rest) := by
  intro first same
  cases same
  unfold mark? at mark
  split at mark <;> first | exact ⟨rfl, rfl⟩ | cases mark

theorem scan?_cons (mode : Mode) (c : Char) (rest : List Char) : scan? mode (c :: rest) =
    (advance? mode c).bind fun begun => (scan? begun.1 rest).map (begun.2 ++ ·) := by
  rw [scan?]
  cases advance? mode c <;> rfl

theorem scan?_step {mode next : Mode} (step : advance? mode c = some (next, []))
    (rest : List Char) : scan? mode (c :: rest) = scan? next rest := by
  rw [scan?_cons, step]
  exact Option.map_id_apply

theorem scan?_mark (mark : mark? c = some token) (rest : List Char) :
    scan? .between (c :: rest) = (scan? .between rest).map (token :: ·) := by
  unfold mark? at mark
  split at mark <;> cases mark <;> rfl

theorem spells_mark (mark : mark? c = some token) : Spells [c] [token] :=
  fun rest _ => scan?_mark mark rest

theorem Spells.cons (mark : mark? c = some token) (spells : Spells written tokens) :
    Spells (c :: written) (token :: tokens) := by
  intro rest ends
  rw [List.cons_append, scan?_mark mark, spells rest ends, Option.map_map]
  rfl

theorem Spells.mark (first : Spells written tokens) (mark : mark? c = some token)
    (second : Spells more others) : Spells (written ++ c :: more) (tokens ++ token :: others) := by
  intro rest ends
  rw [List.append_assoc, List.cons_append, first _ (ends_cons mark _), scan?_mark mark,
    second rest ends, Option.map_map, Option.map_map]
  congr 1
  funext later
  simp

theorem spells_joined (mark : mark? c = some token) {pieces : List α} {text : α → List Char}
    {lexemes : α → List Token} (spells : ∀ piece ∈ pieces, Spells (text piece) (lexemes piece)) :
    Spells ([','].intercalate (pieces.map text) ++ [c])
      ([.comma].intercalate (pieces.map lexemes) ++ [token]) := by
  induction pieces with
  | nil => exact spells_mark mark
  | cons first rest ih =>
    obtain ⟨own, later⟩ := List.forall_mem_cons.mp spells
    cases rest with
    | nil => simpa using own.mark mark fun rest _ => (Option.map_id_apply).symm
    | cons second rest =>
      have joined := own.mark (rfl : mark? ',' = some .comma) (ih later)
      simpa [List.intercalate_cons_cons] using joined

section

variable {mode : List Char → Mode} {lexeme : List Char → Token} {inside : Char → Bool}
  (steps : ∀ read c, advance? (mode read) c =
    if inside c then some (mode (c :: read), [])
    else (begin? c).map fun (next, tokens) => (next, lexeme read :: tokens))
  (finish : ∀ read, finish? (mode read) = some [lexeme read])
include steps finish

theorem scan?_run {rest : List Char} (stop : ∀ c ∈ rest.head?, inside c = false) (read : List Char)
    {run : List Char} (all : ∀ c ∈ run, inside c = true) :
    scan? (mode read) (run ++ rest) =
      (scan? .between rest).map (lexeme (run.reverse ++ read) :: ·) := by
  induction run generalizing read with
  | nil =>
    cases rest with
    | nil => exact finish read
    | cons c rest =>
      have outside : inside c = false := stop c rfl
      rw [List.nil_append, scan?_cons, steps, outside, scan?_cons, Option.map_bind]
      change ((begin? c).map _).bind _ = (begin? c).bind _
      rw [Option.bind_map]
      congr 1
      funext begun
      exact (Option.map_map (lexeme read :: ·) (begun.2 ++ ·) (scan? begun.1 rest)).symm
  | cons c run ih =>
    obtain ⟨own, later⟩ := List.forall_mem_cons.mp all
    have step : advance? (mode read) c = some (mode (c :: read), []) := by rw [steps, own]; rfl
    rw [List.cons_append, scan?_step step, ih (c :: read) later, List.reverse_cons,
      List.append_assoc]
    rfl

theorem spells_run {c : Char} (begins : begin? c = some (mode [c], [])) {run : List Char}
    (all : ∀ c ∈ run, inside c = true)
    (outside : ∀ c, c.isAlpha = false ∧ isNumeral c = false → inside c = false) :
    Spells (c :: run) [lexeme (run.reverse ++ [c])] := by
  intro rest ends
  have scanned := scan?_run steps finish (fun c mem => outside c (ends c mem)) [c] all
  exact (scan?_step (show advance? .between c = _ from begins) _).trans scanned

end

theorem spells_word {c : Char} (begins : begin? c = some (.word [c], [])) {letters : List Char}
    (all : letters.all Char.isAlpha = true) :
    Spells (c :: letters) [.word (String.ofList (c :: letters))] := by
  have spells := @spells_run .word (fun read => .word (String.ofList read.reverse)) Char.isAlpha
    (fun _ _ => rfl) (fun _ => rfl) c begins letters (List.all_eq_true.1 all)
    fun _ outside => outside.1
  simpa using spells

theorem spells_number {c : Char} (begins : begin? c = some (.number [c], []))
    {digits : List Char} (all : ∀ c ∈ digits, c.isDigit = true) :
    Spells (c :: digits) [.number (String.ofList (c :: digits))] := by
  have numerals : ∀ c ∈ digits, isNumeral c = true := fun c mem => by simp [isNumeral, all c mem]
  have spells := @spells_run .number (fun read => .number (String.ofList read.reverse)) isNumeral
    (fun _ _ => rfl) (fun _ => rfl) c begins digits numerals fun _ outside => outside.2
  simpa using spells

theorem begin?_digit (digit : c.isDigit = true) : begin? c = some (.number [c], []) := by
  have blank : isBlank c = false := by
    by_contra blank
    simp only [isBlank, Bool.not_eq_false, Bool.or_eq_true, decide_eq_true_eq] at blank
    rcases blank with ((rfl | rfl) | rfl) | rfl <;> cases digit
  have quote : c ≠ '"' := by
    rintro rfl
    cases digit
  simp [begin?, blank, quote, digit]

theorem isDigit_of_mem_digits (n : Nat) : ∀ c ∈ Nat.toDigits 10 n, c.isDigit = true :=
  fun c mem => @Nat.isDigit_of_mem_toDigits 10 n c (by decide) (by decide) mem

theorem spells_digits (n : Nat) :
    Spells (Nat.toDigits 10 n) [.number (String.ofList (Nat.toDigits 10 n))] := by
  have digits := isDigit_of_mem_digits n
  cases written : Nat.toDigits 10 n with
  | nil => exact absurd written Nat.toDigits_ne_nil
  | cons c rest =>
    rw [written] at digits
    obtain ⟨first, later⟩ := List.forall_mem_cons.mp digits
    exact spells_number (begin?_digit first) later

theorem toString_ofNat (n : Nat) : toString (Int.ofNat n) = String.ofList (Nat.toDigits 10 n) :=
  rfl

theorem toString_negSucc (n : Nat) :
    toString (Int.negSucc n) = String.ofList ('-' :: Nat.toDigits 10 (n + 1)) := by
  rw [← String.toList_inj, String.toList_ofList]
  change ("-" ++ String.ofList (Nat.toDigits 10 (n + 1))).toList = _
  simp

theorem spells_int (value : Int) : Spells (toString value).toList [.number (toString value)] := by
  cases value with
  | ofNat n =>
    rw [toString_ofNat, String.toList_ofList]
    exact spells_digits n
  | negSucc n =>
    rw [toString_negSucc, String.toList_ofList]
    exact spells_number rfl (isDigit_of_mem_digits _)

theorem scan?_escape (content : List Char) (c : Char) (rest : List Char) :
    scan? (.string content none) (escape c ++ rest) = scan? (.string (c :: content) none) rest := by
  unfold escape
  split
  case isTrue quote =>
    rw [quote]
    exact (scan?_step rfl _).trans (scan?_step rfl _)
  case isFalse unquoted =>
    split
    case isTrue backslash =>
      rw [backslash]
      exact (scan?_step rfl _).trans (scan?_step rfl _)
    case isFalse unescaped =>
      split
      case isTrue control =>
        have hex : ∀ n < 16, hexValue? (hexDigit n) = some n := by decide
        have high : advance? (.unit content none 0 2) (hexDigit (c.toNat / 16)) =
            some (.unit content none (c.toNat / 16) 1, []) := by
          simp [advance?, hex (c.toNat / 16) (by omega)]
        have low : advance? (.unit content none (c.toNat / 16) 1) (hexDigit (c.toNat % 16)) =
            some (.string (c :: content) none, []) := by
          have whole : 16 * (c.toNat / 16) + c.toNat % 16 = c.toNat := by omega
          have below : ¬0xd800 ≤ c.toNat ∧ ¬0xdc00 ≤ c.toNat := by omega
          simp [advance?, hex (c.toNat % 16) (by omega), unit?, whole, below, Char.ofNat_toNat]
        exact (scan?_step rfl _).trans ((scan?_step rfl _).trans ((scan?_step rfl _).trans
          ((scan?_step rfl _).trans ((scan?_step high _).trans (scan?_step low _)))))
      case isFalse printed =>
        refine scan?_step ?_ _
        simp [advance?, unquoted, unescaped, printed]

theorem spells_quote (value : String) : Spells (quote value).toList [.text value] := by
  have scanned (content : List Char) (chars : List Char) (rest : List Char) :
      scan? (.string content none) (chars.flatMap escape ++ '"' :: rest) =
        (scan? .between rest).map (.text (String.ofList (content.reverse ++ chars)) :: ·) := by
    induction chars generalizing content with
    | nil =>
      rw [List.append_nil]
      rfl
    | cons c chars ih =>
      rw [List.flatMap_cons, List.append_assoc, scan?_escape, ih, List.reverse_cons,
        List.append_assoc]
      rfl
  intro rest _
  have chars : (quote value).toList ++ rest =
      '"' :: (value.toList.flatMap escape ++ '"' :: rest) := by
    simp [quote]
  rw [chars]
  change Option.map _ (scan? (.string [] none) _) = _
  rw [scanned, List.reverse_nil, List.nil_append, String.ofList_toList, Option.map_map]
  rfl

end Token

mutual

def lexemes : Json → List Token
  | .null => [.word "null"]
  | .bool value => [.word (if value then "true" else "false")]
  | .int value => [.number (toString value)]
  | .decimal written => [.number written]
  | .text value => [.text value]
  | .list items => .openList :: [.comma].intercalate (itemLexemes items) ++ [.closeList]
  | .object fields => .openObject :: [.comma].intercalate (fieldLexemes fields) ++ [.closeObject]

def itemLexemes : List Json → List (List Token)
  | [] => []
  | item :: rest => lexemes item :: itemLexemes rest

def fieldLexemes : List (String × Json) → List (List Token)
  | [] => []
  | (name, value) :: rest => (.text name :: .colon :: lexemes value) :: fieldLexemes rest

end

theorem itemLexemes_eq (items : List Json) : itemLexemes items = items.map lexemes := by
  induction items with
  | nil => rfl
  | cons item rest ih => rw [itemLexemes, ih, List.map_cons]

theorem fieldLexemes_eq (fields : List (String × Json)) :
    fieldLexemes fields =
      fields.map fun field => .text field.1 :: .colon :: lexemes field.2 := by
  induction fields with
  | nil => rfl
  | cons field rest ih => rw [fieldLexemes, ih, List.map_cons]

theorem writeItems_eq (items : List Json) : writeItems items = items.map write := by
  induction items with
  | nil => rfl
  | cons item rest ih => rw [writeItems, ih, List.map_cons]

theorem writeFields_eq (fields : List (String × Json)) :
    writeFields fields = fields.map fun field => quote field.1 ++ ":" ++ write field.2 := by
  induction fields with
  | nil => rfl
  | cons field rest ih => rw [writeFields, ih, List.map_cons]

theorem toList_write_list (items : List Json) :
    (write (.list items)).toList =
      '[' :: ([','].intercalate (items.map fun item => item.write.toList) ++ [']']) := by
  rw [write, writeItems_eq, String.toList_append, String.toList_append, String.toList_intercalate,
    List.map_map]
  rfl

theorem toList_write_object (fields : List (String × Json)) :
    (write (.object fields)).toList =
      '\x7b' :: ([','].intercalate (fields.map fun field =>
        (quote field.1).toList ++ ':' :: field.2.write.toList) ++ ['\x7d']) := by
  have field (field : String × Json) : (quote field.1 ++ ":" ++ field.2.write).toList =
      (quote field.1).toList ++ ':' :: field.2.write.toList := by
    rw [String.toList_append, String.toList_append, List.append_assoc]
    rfl
  rw [write, writeFields_eq, String.toList_append, String.toList_append, String.toList_intercalate,
    List.map_map, ← funext field]
  rfl

theorem spells_write {json : Json} (plain : json.Plain) :
    Token.Spells json.write.toList json.lexemes := by
  induction plain with
  | null => exact @Token.spells_word 'n' rfl ['u', 'l', 'l'] rfl
  | bool value =>
    cases value with
    | false => exact @Token.spells_word 'f' rfl ['a', 'l', 's', 'e'] rfl
    | true => exact @Token.spells_word 't' rfl ['r', 'u', 'e'] rfl
  | int value => exact Token.spells_int value
  | text value => exact Token.spells_quote value
  | @list items _ ih =>
    rw [lexemes, itemLexemes_eq, toList_write_list]
    exact (Token.spells_joined (rfl : Token.mark? ']' = some .closeList) ih).cons rfl
  | @object fields _ ih =>
    have each : ∀ field ∈ fields, Token.Spells
        ((quote field.1).toList ++ ':' :: (write field.2).toList)
        (.text field.1 :: .colon :: lexemes field.2) := fun field mem =>
      (Token.spells_quote field.1).mark (rfl : Token.mark? ':' = some .colon) (ih field mem)
    rw [lexemes, fieldLexemes_eq, toList_write_object]
    exact (Token.spells_joined (rfl : Token.mark? '\x7d' = some .closeObject) each).cons rfl

end TwoWire.Json
