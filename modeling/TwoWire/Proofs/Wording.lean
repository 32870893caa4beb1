import Mathlib.Data.List.Nodup
import TwoWire.Proofs.Reread
import TwoWire.Report.Record

/-! What the texts of records tell apart. The words of no event begin another's, and a violation
stands between marks that occur in none of the parts before them. -/

namespace TwoWire

/-- A text is cut in one way only at the first place of the character that a separator begins
with. -/
theorem cut_unique {front back front' back' separator : String} {mark : Char}
    (begins : separator.toList.head? = some mark) (absent : mark ∉ front.toList)
    (absent' : mark ∉ front'.toList)
    (same : front ++ separator ++ back = front' ++ separator ++ back') :
    front = front' ∧ back = back' := by
  obtain ⟨rest, written⟩ := List.head?_eq_some_iff.mp begins
  have until_mark {front : String} (back : String) (absent : mark ∉ front.toList) :
      (front ++ separator ++ back).toList.takeWhile (· ≠ mark) = front.toList := by
    have before : ∀ c ∈ front.toList, decide (c ≠ mark) = true := fun c mem =>
      decide_eq_true fun same => absent (same ▸ mem)
    rw [String.toList_append, String.toList_append, written, List.append_assoc,
      List.takeWhile_append_of_pos before]
    simp
  obtain rfl : front = front' := by
    rw [← String.toList_inj, ← until_mark back absent, same, until_mark back' absent']
  exact ⟨rfl, (String.append_right_inj _).mp same⟩

theorem begins_or_begins {front back front' back' : String}
    (same : front ++ back = front' ++ back') :
    front.toList <+: front'.toList ∨ front'.toList <+: front.toList := by
  have same := congrArg String.toList same
  rw [String.toList_append, String.toList_append] at same
  exact List.prefix_or_prefix_of_prefix (List.prefix_append _ _) (same.symm ▸ List.prefix_append _ _)

/-- Neither of the marks that a violation is told between is in the text. -/
def Plain (text : String) : Prop := ':' ∉ text.toList ∧ '@' ∉ text.toList

theorem plain_ofList {chars : List Char} (plain : ':' ∉ chars ∧ '@' ∉ chars) :
    Plain (.ofList chars) := by
  unfold Plain
  rwa [String.toList_ofList]

theorem Plain.append {front back : String} (front_plain : Plain front) (back_plain : Plain back) :
    Plain (front ++ back) := by
  simp only [Plain, String.toList_append, List.mem_append, not_or]
  exact ⟨⟨front_plain.1, back_plain.1⟩, front_plain.2, back_plain.2⟩

theorem int_injective {i j : Int} (same : toString i = toString j) : i = j := by
  have read := Json.number?_toString i
  rw [same, Json.number?_toString] at read
  exact (Json.int.inj (Option.some.inj read)).symm

theorem nat_injective {m n : Nat} (same : toString m = toString n) : m = n :=
  Int.ofNat.inj (int_injective same)

theorem at_not_mem_int (i : Int) : '@' ∉ (toString i).toList := by
  have undigit (n : Nat) : '@' ∉ Nat.toDigits 10 n := fun mem =>
    absurd (Json.Token.isDigit_of_mem_digits n _ mem) (by decide)
  cases i with
  | ofNat n =>
    rw [Json.Token.toString_ofNat, String.toList_ofList]
    exact undigit n
  | negSucc n =>
    rw [Json.Token.toString_negSucc, String.toList_ofList]
    exact List.not_mem_cons_of_ne_of_not_mem (by decide) (undigit _)

def hexValue (digits : List Char) : Nat :=
  digits.foldl (fun value digit => 16 * value + (Json.Token.hexValue? digit).getD 0) 0

theorem hexValue_toDigits : ∀ n < 256, hexValue (Nat.toDigits 16 n) = n := by decide +kernel

theorem hexText_injective : Function.Injective hexText := by
  intro byte byte' same
  have same := String.ofList_injective ((String.append_right_inj "0x").mp same)
  have value := congrArg hexValue same
  rw [hexValue_toDigits _ byte.toNat_lt, hexValue_toDigits _ byte'.toNat_lt] at value
  exact UInt8.toNat_inj.mp value

namespace Event

/-- The words that an event is told in, up to the number that some events end in. -/
def words : Event → String
  | .byteReceived _ => "Byte received: "
  | .speed _ => "Speed = "
  | .transactionStarted direction _ =>
    "Master " ++ direction.text ++ " transaction started, device address="
  | event => event.text

def number : Event → String
  | .byteReceived byte => hexText byte
  | .speed kbps => toString kbps ++ " Kbps"
  | .transactionStarted _ address => hexText address
  | _ => ""

def unnumbered : Event → Event
  | .byteReceived _ => .byteReceived 0
  | .speed _ => .speed 0
  | .transactionStarted direction _ => .transactionStarted direction 0
  | event => event

def kinds : List Event :=
  [startBit, repeatedStart, stopBit, byteReceived 0, byteSent, speed 0, transactionStarted .write 0,
    transactionStarted .read 0, sendingAck, sendingNack, peerAck, peerNack, waitingForStop]

variable {event other : Event}

theorem text_eq_append (event : Event) : event.text = event.words ++ event.number := by
  cases event with
  | byteReceived | transactionStarted => rfl
  | speed kbps => exact String.append_assoc
  | _ => rfl

theorem words_unnumbered (event : Event) : event.unnumbered.words = event.words := by
  cases event <;> rfl

theorem unnumbered_mem_kinds (event : Event) : event.unnumbered ∈ kinds := by
  cases event with
  | transactionStarted direction => cases direction <;> simp [kinds, unnumbered]
  | _ => simp [kinds, unnumbered]

theorem eq_of_words_begin : ∀ event ∈ kinds, ∀ other ∈ kinds,
    event.words.toList <+: other.words.toList → event = other := by
  decide +kernel

theorem unnumbered_eq (same : event.text = other.text) : event.unnumbered = other.unnumbered := by
  rw [text_eq_append, text_eq_append, ← words_unnumbered event, ← words_unnumbered other] at same
  rcases begins_or_begins same with begins | begins
  · exact eq_of_words_begin _ event.unnumbered_mem_kinds _ other.unnumbered_mem_kinds begins
  · exact (eq_of_words_begin _ other.unnumbered_mem_kinds _ event.unnumbered_mem_kinds begins).symm

theorem text_injective : Function.Injective text := by
  intro event other same
  have kind := unnumbered_eq same
  have words : event.words = other.words := by
    rw [← words_unnumbered event, kind, words_unnumbered]
  rw [text_eq_append, text_eq_append, words] at same
  have number := (String.append_right_inj _).mp same
  cases event with
  | byteReceived byte =>
    cases other <;> cases kind
    exact congrArg byteReceived (hexText_injective number)
  | speed kbps =>
    cases other <;> cases kind
    exact congrArg speed (nat_injective ((String.append_left_inj _).mp number))
  | transactionStarted direction address =>
    cases other <;> cases kind
    exact congrArg (transactionStarted direction) (hexText_injective number)
  | _ =>
    cases other <;> cases kind
    rfl

theorem words_no_error : ∀ event ∈ kinds, ¬event.words.toList <+: "ERROR: ".toList ∧
    ¬"ERROR: ".toList <+: event.words.toList := by
  decide +kernel

theorem text_ne_error (event : Event) (rest : String) : event.text ≠ "ERROR: " ++ rest := by
  intro same
  obtain ⟨before, after⟩ := words_no_error _ event.unnumbered_mem_kinds
  rw [text_eq_append, ← words_unnumbered] at same
  exact (begins_or_begins same).elim before after

end Event

namespace TimingParam

/-- One parameter of each wording. -/
def worded : List TimingParam :=
  [.dataValid, .startHold, .startSetup, .dataSetup, .clockLow, .clockHigh, .stopSetup, .busFree]

/-- The parameter that a text names. Of a repeated start it names that of a start. -/
def named : TimingParam → TimingParam
  | .repeatedStartSetup => .startSetup
  | param => param

theorem text_named (param : TimingParam) : param.named.text = param.text := by
  cases param <;> rfl

theorem named_mem_worded (param : TimingParam) : param.named ∈ worded := by
  cases param <;> decide

theorem named_eq {param other : TimingParam} (same : param.text = other.text) :
    param.named = other.named := by
  have apart : (worded.map text).Nodup := by decide
  refine List.inj_on_of_nodup_map apart param.named_mem_worded other.named_mem_worded ?_
  rw [text_named, text_named, same]

theorem plain_text (param : TimingParam) : Plain param.text := by
  cases param <;> exact plain_ofList (by decide)

end TimingParam

theorem Phase.name_injective : Function.Injective Phase.name := fun phase other =>
  List.inj_on_of_nodup_map (by decide : (all.map name).Nodup) phase.mem_all other.mem_all

theorem Phase.plain_name (phase : Phase) : Plain phase.name := by
  cases phase <;> exact plain_ofList (by decide)

namespace Violation

/-- Two violations that are told alike: the set-up of a start and of a repeated start take as long,
or the speed is judged the same. -/
inductive Alike : Violation → Violation → Prop
  | same (violation : Violation) : Alike violation violation
  | repeated (interval : Int) :
    Alike (.timing .startSetup interval) (.timing .repeatedStartSetup interval)
  | first (interval : Int) :
    Alike (.timing .repeatedStartSetup interval) (.timing .startSetup interval)
  | speed (verdict : SpeedVerdict) (measured expected measured' expected' : Nat) :
    Alike (.speed verdict measured expected) (.speed verdict measured' expected')

/-- The violation as far as it is told. -/
def shown : Violation → Violation
  | .timing param interval => .timing param.named interval
  | .speed verdict _ _ => .speed verdict 0 0
  | violation => violation

def fixed : List Violation :=
  [.speed .tooSlow 0 0, .speed .tooFast 0 0, .sequence .simultaneousEdges, .sequence .stopMidByte,
    .sequence .startMidByte, .sequence .peerDrivingDuringAck, .sequence .activityAfterNack,
    .lineMismatch .clock false, .lineMismatch .clock true, .lineMismatch .data false,
    .lineMismatch .data true] ++ Phase.all.map .illegalPhase

variable {violation other : Violation}

theorem text_timing (param : TimingParam) (interval : Int) :
    (timing param interval).text = param.text ++ ": " ++ (toString interval ++ "ns") :=
  String.append_assoc

theorem text_shown (violation : Violation) : violation.shown.text = violation.text := by
  cases violation with
  | timing param interval =>
    rw [shown, text_timing, text_timing, param.text_named]
  | speed verdict => cases verdict <;> rfl
  | _ => rfl

theorem shown_of_alike (alike : violation.Alike other) : violation.shown = other.shown := by
  cases alike <;> rfl

theorem alike_of_shown (same : violation.shown = other.shown) : violation.Alike other := by
  cases violation with
  | timing param interval =>
    cases other with
    | timing param' interval' =>
      obtain ⟨named, rfl⟩ := timing.inj same
      cases param <;> cases param' <;>
        first | exact .same _ | exact .repeated _ | exact .first _ | cases named
    | _ => cases same
  | speed verdict measured expected =>
    cases other <;> cases same
    exact .speed ..
  | _ =>
    cases other <;> cases same
    exact .same _

theorem shown_mem_fixed (untimed : violation.kind ≠ .timing) : violation.shown ∈ fixed := by
  cases violation with
  | timing => exact absurd rfl untimed
  | speed verdict => cases verdict <;> simp [shown, fixed]
  | sequence fault => cases fault <;> simp [shown, fixed]
  | lineMismatch line expected => cases line <;> cases expected <;> simp [shown, fixed]
  | illegalPhase source => simp [shown, fixed, source.mem_all]

theorem nodup_fixed : (fixed.map text).Nodup := by decide +kernel

theorem plain_text (untimed : violation.kind ≠ .timing) : Plain violation.text := by
  cases violation with
  | timing => exact absurd rfl untimed
  | speed verdict => cases verdict <;> exact plain_ofList (by decide)
  | sequence fault => cases fault <;> exact plain_ofList (by decide)
  | lineMismatch line expected =>
    have line : Plain line.text := by cases line <;> exact plain_ofList (by decide)
    have level : Plain (levelText expected) := by cases expected <;> exact plain_ofList (by decide)
    exact (line.append (plain_ofList (by decide))).append level
  | illegalPhase source => exact (plain_ofList (by decide)).append source.plain_name

theorem colon_timing (param : TimingParam) (interval : Int) :
    ':' ∈ (timing param interval).text.toList := by
  simp [text_timing]

theorem shown_of_text (same : violation.text = other.text) : violation.shown = other.shown := by
  by_cases timed : violation.kind = .timing <;> by_cases timed' : other.kind = .timing
  · cases violation <;> cases timed
    cases other <;> cases timed'
    rw [text_timing, text_timing] at same
    obtain ⟨params, intervals⟩ := cut_unique rfl (TimingParam.plain_text _).1
      (TimingParam.plain_text _).1 same
    have interval := int_injective ((String.append_left_inj _).mp intervals)
    rw [shown, shown, TimingParam.named_eq params, interval]
  · cases violation <;> cases timed
    exact absurd (same ▸ colon_timing ..) (plain_text timed').1
  · cases other <;> cases timed'
    exact absurd (same ▸ colon_timing ..) (plain_text timed).1
  · refine List.inj_on_of_nodup_map nodup_fixed (shown_mem_fixed timed) (shown_mem_fixed timed') ?_
    rw [text_shown, text_shown, same]

theorem text_eq_iff : violation.text = other.text ↔ violation.Alike other := by
  refine ⟨fun same => alike_of_shown (shown_of_text same), fun alike => ?_⟩
  rw [← text_shown, shown_of_alike alike, text_shown]

theorem at_not_mem_timing (param : TimingParam) (interval : Int) :
    '@' ∉ (timing param interval).text.toList := by
  intro mem
  rw [text_timing] at mem
  simp only [String.toList_append, List.mem_append] at mem
  rcases mem with (mem | mem) | mem | mem
  · exact param.plain_text.2 mem
  · revert mem
    decide
  · exact at_not_mem_int interval mem
  · revert mem
    decide

theorem at_not_mem (violation : Violation) : '@' ∉ (violation.text ++ " ").toList := by
  have absent : '@' ∉ violation.text.toList := by
    by_cases timed : violation.kind = .timing
    · cases violation <;> cases timed
      exact at_not_mem_timing _ _
    · exact (plain_text timed).2
  simpa using absent

end Violation

namespace Record

theorem text_violation (time : Nat) (phase : Phase) (violation : Violation) :
    text ⟨time, phase, .violation violation⟩ =
      "ERROR: " ++ (phase.name ++ ": " ++ (violation.text ++ " " ++ "@ " ++ toString time)) := by
  simp only [text, String.append_assoc]
  rfl

theorem text_violation_eq_iff {time time' : Nat} {phase phase' : Phase}
    {violation violation' : Violation} :
    text ⟨time, phase, .violation violation⟩ = text ⟨time', phase', .violation violation'⟩ ↔
      time = time' ∧ phase = phase' ∧ violation.Alike violation' := by
  constructor
  · intro same
    rw [text_violation, text_violation] at same
    obtain ⟨names, same⟩ := cut_unique rfl phase.plain_name.1 phase'.plain_name.1
      ((String.append_right_inj _).mp same)
    obtain ⟨texts, times⟩ := cut_unique rfl violation.at_not_mem violation'.at_not_mem same
    have texts := (String.append_left_inj " ").mp texts
    exact ⟨nat_injective times, Phase.name_injective names, Violation.text_eq_iff.mp texts⟩
  · rintro ⟨rfl, rfl, alike⟩
    rw [text_violation, text_violation, Violation.text_eq_iff.mpr alike]

end Record
end TwoWire
