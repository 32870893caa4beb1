import TwoWire.Json.Token
import TwoWire.Json.Value

/-! Reading values, as a fold over the lexemes that holds the lists and objects it is inside of. -/

namespace TwoWire.Json

/-- A list or object that is read in part; items and fields are held newest first. -/
inductive Frame
  | list (done : List Json)
  | field (done : List (String × Json)) (key : String)

inductive Reading
  | value (stack : List Frame)
  | firstItem (stack : List Frame)
  | afterItem (done : List Json) (stack : List Frame)
  | firstName (stack : List Frame)
  | name (done : List (String × Json)) (stack : List Frame)
  | colon (done : List (String × Json)) (key : String) (stack : List Frame)
  | afterField (done : List (String × Json)) (stack : List Frame)
  | complete (json : Json)

def wholeDigits : List Char → Bool
  | ['0'] => true
  | c :: rest => c.isDigit && c != '0' && rest.all Char.isDigit
  | [] => false

def wholeValue (digits : List Char) : Nat :=
  digits.foldl (fun value c => 10 * value + (c.toNat - 48)) 0

def exponentDigits : List Char → Bool
  | '+' :: rest => !rest.isEmpty && rest.all Char.isDigit
  | '-' :: rest => !rest.isEmpty && rest.all Char.isDigit
  | rest => !rest.isEmpty && rest.all Char.isDigit

def isExponentMark (c : Char) : Bool := c = 'e' || c = 'E'

def fractionAndExponent (tail : List Char) : Bool :=
  match tail with
  | [] => false
  | '.' :: rest =>
    let digits := rest.takeWhile Char.isDigit
    let exponent := rest.dropWhile Char.isDigit
    !digits.isEmpty && (exponent.isEmpty ||
      (exponent.head?.any isExponentMark && exponentDigits exponent.tail))
  | mark :: rest => isExponentMark mark && exponentDigits rest

/-- An integer has no fraction and no exponent. A zero with a sign is no integer. -/
def number? (written : String) : Option Json :=
  let (negative, digits) := match written.toList with
    | '-' :: rest => (true, rest)
    | rest => (false, rest)
  let whole := digits.takeWhile Char.isDigit
  let tail := digits.dropWhile Char.isDigit
  if !wholeDigits whole then none
  else if tail.isEmpty then
    if !negative then some (.int (wholeValue whole))
    else if wholeValue whole = 0 then some (.decimal written)
    else some (.int (-(wholeValue whole : Int)))
  else if fractionAndExponent tail then some (.decimal written)
  else none

def word? (letters : String) : Option Json :=
  if letters = "null" then some .null
  else if letters = "true" then some (.bool true)
  else if letters = "false" then some (.bool false)
  else none

namespace Reading

def deliver (json : Json) : List Frame → Reading
  | [] => .complete json
  | .list done :: stack => .afterItem (json :: done) stack
  | .field done key :: stack => .afterField ((key, json) :: done) stack

def begin? (token : Token) (stack : List Frame) : Option Reading :=
  match token with
  | .openList => some (.firstItem stack)
  | .openObject => some (.firstName stack)
  | .word letters => (word? letters).map fun json => deliver json stack
  | .number written => (number? written).map fun json => deliver json stack
  | .text content => some (deliver (.text content) stack)
  | _ => none

def advance? : Reading → Token → Option Reading
  | .value stack, token => begin? token stack
  | .firstItem stack, .closeList => some (deliver (.list []) stack)
  | .firstItem stack, token => begin? token (.list [] :: stack)
  | .afterItem done stack, .comma => some (.value (.list done :: stack))
  | .afterItem done stack, .closeList => some (deliver (.list done.reverse) stack)
  | .firstName stack, .closeObject => some (deliver (.object []) stack)
  | .firstName stack, .text key => some (.colon [] key stack)
  | .name done stack, .text key => some (.colon done key stack)
  | .colon done key stack, .colon => some (.value (.field done key :: stack))
  | .afterField done stack, .comma => some (.name done stack)
  | .afterField done stack, .closeObject => some (deliver (.object done.reverse) stack)
  | _, _ => none

def result? : Reading → Option Json
  | .complete json => some json
  | _ => none

end Reading

def read? (text : String) : Option Json := do
  let tokens ← Token.ofText? text
  let reading ← tokens.foldlM Reading.advance? (.value [])
  reading.result?

end TwoWire.Json
