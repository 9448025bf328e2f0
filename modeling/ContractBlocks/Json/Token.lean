import ContractBlocks.Json.Literal

namespace ContractBlocks.Json

/-- Why reading stops at a place. Each cause is a fault, and some are named differently where the
    value is only skipped. -/
inductive Stop
  | valueDue
  | stray
  | colonDue (ended : Bool)
  | word (ended : Bool)
  | number (ended : Bool)
  | string (fault skipFault : Fault)

namespace Stop

/-- The fault of a stop where the value is wanted. -/
def fault : Stop → Fault
  | .valueDue | .word true | .number true => .ended .value
  | .stray => .expectedValue
  | .colonDue true => .ended .object
  | .colonDue false => .expectedColon
  | .word false => .expectedWord
  | .number false => .invalidNumber
  | .string fault _ => fault

/-- The fault of a stop where the value is skipped. A skipped number is not looked at beyond its
    spelling, and a skipped literal not beyond its escapes. -/
def skipFault : Stop → Fault
  | .number _ => .invalidNumber
  | .string _ fault => fault
  | stop => stop.fault

end Stop

/-- A word of a JSON text. After `stop` nothing more is read. -/
inductive Token
  | openList
  | closeList
  | openObject
  | closeObject
  | comma
  | colon
  | null
  | bool (value : Bool)
  | number (value : Numeral)
  | string (value : Literal)
  | stop (why : Stop)

namespace Token

/-- Whether a character may stand between tokens. -/
def isSpace (c : Char) : Bool :=
  c = ' ' || c = '\n' || c = '\t' || c = '\r'

/-- Reads the rest of a word such as `null`. -/
def word (token : Token) : List Char → List Char → Token × List Char
  | [], cs => (token, cs)
  | _ :: _, [] => (.stop (.word true), [])
  | e :: es, c :: cs => if e = c then word token es cs else (.stop (.word false), [])

/-- Reads a string literal after its opening quote. -/
def literal (cs : List Char) : Token × List Char :=
  let (pieces, ending, rest) := Literal.scan cs
  let text := (Literal.characters pieces ending).map String.ofList
  match ending, text with
  | .closed, text => (.string ⟨text⟩, rest)
  | ending, .error fault => (.stop (.string fault (Literal.endFault ending)), [])
  | ending, .ok _ => (.stop (.string (Literal.endFault ending) (Literal.endFault ending)), [])

/-- At least one digit, or a stop that says whether the text ended before it. -/
def digits (cs : List Char) : Except Stop (List Char × List Char) :=
  match Decimal.spanDigits cs with
  | ([], rest) => .error (.number rest.isEmpty)
  | (ds, rest) => .ok (ds, rest)

/-- The digits before the point: a zero stands alone. -/
def wholePart (cs : List Char) : Except Stop (List Char × List Char) := do
  match ← digits cs with
  | ('0' :: _ :: _, _) => .error (.number false)
  | found => .ok found

/-- The point and the digits after it, where there is one. -/
def fractionPart : List Char → Except Stop (Option (List Char) × List Char)
  | '.' :: cs => do
    let (ds, rest) ← digits cs
    return (some ds, rest)
  | cs => .ok (none, cs)

/-- The exponent with its mark and sign, where there is one. -/
def exponentPart : List Char → Except Stop (Option Int × List Char)
  | [] => .ok (none, [])
  | c :: cs =>
    if c = 'e' ∨ c = 'E' then do
      let (negative, cs) := Decimal.splitSign cs
      let (ds, rest) ← digits cs
      let size : Int := Decimal.ofDigits ds
      return (some (if negative then -size else size), rest)
    else .ok (none, c :: cs)

/-- A number after its sign. -/
def numeral? (negative : Bool) (cs : List Char) : Except Stop (Numeral × List Char) := do
  let (whole, cs) ← wholePart cs
  let (fraction, cs) ← fractionPart cs
  let (exponent, cs) ← exponentPart cs
  let places := fraction.getD []
  let value : Decimal :=
    ⟨negative, Decimal.ofDigits (whole ++ places), exponent.getD 0 - places.length⟩
  return (⟨value, fraction.isNone && exponent.isNone⟩, cs)

/-- Reads a number after its sign. -/
def numeral (negative : Bool) (cs : List Char) : Token × List Char :=
  match numeral? negative cs with
  | .ok (n, rest) => (.number n, rest)
  | .error why => (.stop why, [])

/-- Reads the token that starts with the character `c`, which is no space. -/
def next (c : Char) (cs : List Char) : Token × List Char :=
  match c with
  | '[' => (.openList, cs)
  | ']' => (.closeList, cs)
  | '\x7b' => (.openObject, cs)
  | '\x7d' => (.closeObject, cs)
  | ',' => (.comma, cs)
  | ':' => (.colon, cs)
  | 'n' => word .null ['u', 'l', 'l'] cs
  | 't' => word (.bool true) ['r', 'u', 'e'] cs
  | 'f' => word (.bool false) ['a', 'l', 's', 'e'] cs
  | '\"' => literal cs
  | '-' => numeral true cs
  | c => if c.isDigit then numeral false (c :: cs) else (.stop .stray, [])

end Token

end ContractBlocks.Json
