import Mathlib.Data.List.TakeWhile
import TwoWire.Proofs.Lexed

/-! What is written is read back: every value without decimals is read from its own text
(`read?_write`). -/

namespace TwoWire.Json

theorem wholeValue_digits (n : Nat) : wholeValue (Nat.toDigits 10 n) = n :=
  Nat.ofDigitChars_ten_toDigits

theorem head_digits {n : Nat} (pos : 0 < n) : (Nat.toDigits 10 n).head? ≠ some '0' := by
  induction n using Nat.base_induction 10 (by decide) with
  | single m lt =>
    have single : ∀ m < 10, 0 < m → [m.digitChar].head? ≠ some '0' := by decide
    rw [Nat.toDigits_of_lt_base lt]
    exact single m lt pos
  | digit m k lt positive ih =>
    rw [← Nat.toDigits_append_toDigits (by decide) positive lt, List.head?_append_of_ne_nil _
      Nat.toDigits_ne_nil]
    exact ih positive

theorem wholeDigits_digits (n : Nat) : wholeDigits (Nat.toDigits 10 n) = true := by
  have digits := Token.isDigit_of_mem_digits n
  rcases Nat.eq_zero_or_pos n with rfl | pos
  · rfl
  · have head := head_digits pos
    cases written : Nat.toDigits 10 n with
    | nil => exact absurd written Nat.toDigits_ne_nil
    | cons c rest =>
      rw [written] at digits head
      have nonzero : c ≠ '0' := fun same => head (congrArg some same)
      simp_all [wholeDigits]

theorem cut_digits (n : Nat) :
    (Nat.toDigits 10 n).takeWhile Char.isDigit = Nat.toDigits 10 n ∧
      (Nat.toDigits 10 n).dropWhile Char.isDigit = [] :=
  ⟨List.takeWhile_eq_self_iff.mpr (Token.isDigit_of_mem_digits n),
    List.dropWhile_eq_nil_iff.mpr (Token.isDigit_of_mem_digits n)⟩

theorem number?_toString (value : Int) : number? (toString value) = some (.int value) := by
  cases value with
  | ofNat n =>
    have unsigned : ∀ rest, Nat.toDigits 10 n ≠ '-' :: rest := by
      intro rest written
      have digits := Token.isDigit_of_mem_digits n
      rw [written] at digits
      cases digits '-' List.mem_cons_self
    rw [Token.toString_ofNat, number?, String.toList_ofList]
    split
    rename_i negative digits cut
    split at cut
    case h_1 rest written => exact absurd written (unsigned rest)
    case h_2 =>
      cases cut
      simp [cut_digits, wholeDigits_digits, wholeValue_digits]
  | negSucc n =>
    rw [Token.toString_negSucc, number?, String.toList_ofList]
    simp [cut_digits, wholeDigits_digits, wholeValue_digits, Int.negSucc_eq]

namespace Reading

/-- A value that is due is read from its lexemes. -/
def Reads (json : Json) : Prop :=
  ∀ stack, json.lexemes.foldlM advance? (.value stack) = some (deliver json stack)

theorem reads_joined {pieces : List α} {lexemes : α → List Token} {due after : List α → Reading}
    {closing : Token} {whole : List α → Reading}
    (piece : ∀ piece ∈ pieces, ∀ done,
      (lexemes piece).foldlM advance? (due done) = some (after (piece :: done)))
    (comma : ∀ done, advance? (after done) .comma = some (due done))
    (close : ∀ done, advance? (after done) closing = some (whole done.reverse))
    (nonempty : pieces ≠ []) (done : List α) :
    ([Token.comma].intercalate (pieces.map lexemes) ++ [closing]).foldlM advance? (due done) =
      some (whole (done.reverse ++ pieces)) := by
  induction pieces generalizing done with
  | nil => exact absurd rfl nonempty
  | cons first rest ih =>
    obtain ⟨own, later⟩ := List.forall_mem_cons.mp piece
    cases rest with
    | nil => simp [own, close]
    | cons second rest =>
      have further := ih later (List.cons_ne_nil _ _) (first :: done)
      rw [List.map_cons, List.map_cons, List.intercalate_cons_cons, ← List.map_cons,
        List.append_assoc, List.append_assoc, List.foldlM_append, own]
      change List.foldlM advance? (after (first :: done)) (Token.comma :: _) = _
      rw [List.foldlM_cons, comma]
      refine further.trans ?_
      rw [List.reverse_cons, List.append_assoc]
      rfl

theorem reads_one {json : Json} {token : Token} (alone : json.lexemes = [token])
    (begins : ∀ stack, begin? token stack = some (deliver json stack)) : Reads json := by
  intro stack
  rw [alone, List.foldlM_cons]
  change (begin? token stack).bind _ = _
  rw [begins]
  rfl

theorem exists_lexemes (json : Json) :
    ∃ first rest, json.lexemes = first :: rest ∧ first ≠ .closeList := by
  cases json <;> exact ⟨_, _, rfl, nofun⟩

theorem foldlM_eq_of_head {here there : Reading} {first : Token} (rest : List Token)
    (same : here.advance? first = there.advance? first) :
    (first :: rest).foldlM advance? here = (first :: rest).foldlM advance? there := by
  rw [List.foldlM_cons, same, List.foldlM_cons]

theorem exists_joined (first : List Token) (rest : List (List Token)) :
    ∃ tail, [Token.comma].intercalate (first :: rest) = first ++ tail := by
  cases rest with
  | nil => exact ⟨[], by simp⟩
  | cons second rest => exact ⟨_, by rw [List.intercalate_cons_cons, List.append_assoc]⟩

theorem reads_list {items : List Json} (all : ∀ item ∈ items, Reads item) :
    Reads (.list items) := by
  intro stack
  rw [lexemes, itemLexemes_eq, List.cons_append, List.foldlM_cons]
  change List.foldlM advance? (.firstItem stack) _ = _
  cases items with
  | nil => rfl
  | cons item rest =>
    have gathered := @reads_joined _ (item :: rest) lexemes
      (fun done => .value (.list done :: stack)) (fun done => .afterItem done stack) .closeList
      (fun items => deliver (.list items) stack) (fun item mem done => all item mem _)
      (fun _ => rfl) (fun _ => rfl) (List.cons_ne_nil _ _) []
    obtain ⟨first, others, begins, open_⟩ := exists_lexemes item
    obtain ⟨tail, joined⟩ := exists_joined item.lexemes (rest.map lexemes)
    rw [List.map_cons, joined, begins] at gathered ⊢
    refine (foldlM_eq_of_head _ ?_).trans gathered
    cases first <;> first | rfl | exact absurd rfl open_

theorem reads_object {fields : List (String × Json)} (all : ∀ field ∈ fields, Reads field.2) :
    Reads (.object fields) := by
  intro stack
  rw [lexemes, fieldLexemes_eq, List.cons_append, List.foldlM_cons]
  change List.foldlM advance? (.firstName stack) _ = _
  cases fields with
  | nil => rfl
  | cons field rest =>
    have gathered := @reads_joined _ (field :: rest)
      (fun field => .text field.1 :: .colon :: lexemes field.2)
      (fun done => .name done stack) (fun done => .afterField done stack) .closeObject
      (fun fields => deliver (.object fields) stack)
      (fun field mem done => all field mem (.field done field.1 :: stack))
      (fun _ => rfl) (fun _ => rfl) (List.cons_ne_nil _ _) []
    obtain ⟨tail, joined⟩ := exists_joined (.text field.1 :: .colon :: field.2.lexemes)
      (rest.map fun field => .text field.1 :: .colon :: lexemes field.2)
    rw [List.map_cons, joined] at gathered ⊢
    exact (foldlM_eq_of_head _ rfl).trans gathered

theorem reads_of_plain {json : Json} (plain : json.Plain) : Reads json := by
  induction plain with
  | null => exact reads_one rfl fun _ => rfl
  | bool value => cases value <;> exact reads_one rfl fun _ => rfl
  | int value =>
    refine reads_one rfl fun stack => ?_
    rw [begin?, number?_toString]
    rfl
  | text value => exact reads_one rfl fun _ => rfl
  | list _ ih => exact reads_list ih
  | object _ ih => exact reads_object ih

end Reading

theorem read?_write {json : Json} (plain : json.Plain) : read? json.write = some json := by
  have spelled := spells_write plain [] Token.ends_nil
  rw [List.append_nil] at spelled
  have tokens : Token.ofText? json.write = some json.lexemes := by
    rw [Token.ofText?, spelled]
    simp [Token.scan?, Token.finish?]
  simp [read?, tokens, Reading.reads_of_plain plain [], Reading.deliver, Reading.result?]

end TwoWire.Json
