/-! The lexemes of the JSON data format. What is half read of a lexeme is the scanner's mode. -/

namespace TwoWire.Json

inductive Token
  | openList
  | closeList
  | openObject
  | closeObject
  | comma
  | colon
  | word (letters : String)
  | number (written : String)
  | text (value : String)
  deriving DecidableEq, Repr

namespace Token

def isBlank (c : Char) : Bool := c = ' ' || c = '\t' || c = '\n' || c = '\r'

def isNumeral (c : Char) : Bool :=
  c.isDigit || c = '-' || c = '+' || c = '.' || c = 'e' || c = 'E'

def mark? : Char → Option Token
  | '[' => some .openList
  | ']' => some .closeList
  | '\x7b' => some .openObject
  | '\x7d' => some .closeObject
  | ',' => some .comma
  | ':' => some .colon
  | _ => none

def hexValue? (c : Char) : Option Nat :=
  if c.isDigit then some (c.toNat - 48)
  else if 'a' ≤ c && c ≤ 'f' then some (c.toNat - 87)
  else if 'A' ≤ c && c ≤ 'F' then some (c.toNat - 55)
  else none

def escaped? : Char → Option Char
  | '"' => some '"'
  | '\\' => some '\\'
  | '/' => some '/'
  | 'b' => some '\x08'
  | 'f' => some '\x0c'
  | 'n' => some '\n'
  | 'r' => some '\r'
  | 't' => some '\t'
  | _ => none

/-- What the scanner is in the middle of. Characters read so far are held newest first; `high` is
the first half of a surrogate pair whose second half has to follow. -/
inductive Mode
  | between
  | word (letters : List Char)
  | number (digits : List Char)
  | string (content : List Char) (high : Option Nat)
  | escape (content : List Char) (high : Option Nat)
  | unit (content : List Char) (high : Option Nat) (value digits : Nat)

/-- The mode that the first character of a lexeme leads to, and the lexeme if it is complete. -/
def begin? (c : Char) : Option (Mode × List Token) :=
  if isBlank c then some (.between, [])
  else if c = '"' then some (.string [] none, [])
  else if c.isDigit || c = '-' then some (.number [c], [])
  else if c.isAlpha then some (.word [c], [])
  else (mark? c).map fun token => (.between, [token])

/-- A sixteen-bit unit written as an escape: a character, or half of a pair. -/
def unit? (content : List Char) (high : Option Nat) (value : Nat) : Option Mode :=
  match high with
  | none =>
    if 0xd800 ≤ value && value < 0xdc00 then some (.string content (some value))
    else if 0xdc00 ≤ value && value < 0xe000 then none
    else some (.string (Char.ofNat value :: content) none)
  | some first =>
    if 0xdc00 ≤ value && value < 0xe000 then
      let point := 0x10000 + (first - 0xd800) * 0x400 + (value - 0xdc00)
      some (.string (Char.ofNat point :: content) none)
    else none

def advance? (mode : Mode) (c : Char) : Option (Mode × List Token) :=
  match mode with
  | .between => begin? c
  | .word letters =>
    if c.isAlpha then some (.word (c :: letters), [])
    else (begin? c).map fun (mode, tokens) =>
      (mode, .word (String.ofList letters.reverse) :: tokens)
  | .number digits =>
    if isNumeral c then some (.number (c :: digits), [])
    else (begin? c).map fun (mode, tokens) =>
      (mode, .number (String.ofList digits.reverse) :: tokens)
  | .string content none =>
    if c = '"' then some (.between, [.text (String.ofList content.reverse)])
    else if c = '\\' then some (.escape content none, [])
    else if c.toNat < 32 then none
    else some (.string (c :: content) none, [])
  | .string content (some high) =>
    if c = '\\' then some (.escape content (some high), []) else none
  | .escape content high =>
    if c = 'u' then some (.unit content high 0 4, [])
    else if high.isSome then none
    else (escaped? c).map fun c => (.string (c :: content) none, [])
  | .unit content high value digits =>
    (hexValue? c).bind fun digit =>
      let value := 16 * value + digit
      if digits ≤ 1 then (unit? content high value).map fun mode => (mode, [])
      else some (.unit content high value (digits - 1), [])

def finish? : Mode → Option (List Token)
  | .between => some []
  | .word letters => some [.word (String.ofList letters.reverse)]
  | .number digits => some [.number (String.ofList digits.reverse)]
  | _ => none

def scan? (mode : Mode) : List Char → Option (List Token)
  | [] => finish? mode
  | c :: rest =>
    match advance? mode c with
    | none => none
    | some (mode, tokens) => (scan? mode rest).map (tokens ++ ·)

def ofText? (text : String) : Option (List Token) := scan? .between text.toList

end Token
end TwoWire.Json
