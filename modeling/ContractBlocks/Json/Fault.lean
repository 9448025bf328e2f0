import ContractBlocks.Json.Number
import ContractBlocks.Text.Quoted

namespace ContractBlocks.Json

/-- What a text was in the middle of when it ended. -/
inductive Within
  | list
  | object
  | string
  | value
deriving DecidableEq, Repr

/-- What stands at a place where something else was expected. -/
inductive Found
  | null
  | bool (value : Bool)
  | number (value : Number)
  | string (value : String)
  | list
  | object
deriving DecidableEq

/-- Why a text cannot be read. A text is either cut short, not a JSON text, or a JSON text of
    another shape than the reader wants. -/
inductive Fault
  | ended (within : Within)
  | expectedValue
  | expectedWord
  | expectedColon
  | expectedListEnd
  | expectedObjectEnd
  | keyNotString
  | trailingComma
  | trailingText
  | invalidNumber
  | numberOutOfRange
  | invalidEscape
  | loneSurrogate
  | unpairedSurrogate
  | controlCharacter
  | wrongType (found : Found) (expected : String)
  | missingField (name : String)
  | repeatedField (name : String)
  | wrongLength (length : Nat) (expected : String)
  | unknownVariant (name : String) (variants : List String)
  | noAlternative (type : String)
  | refused (reason : String)
deriving DecidableEq

/-- The three ways in which a text fails to be read. -/
inductive FaultClass
  | cut
  | malformed
  | misshapen
deriving DecidableEq, Repr

namespace Within

/-- How messages name what the text was in the middle of. -/
def text : Within → String
  | .list => "a list"
  | .object => "an object"
  | .string => "a string"
  | .value => "a value"

end Within

namespace Found

/-- How messages name what was found. -/
def text : Found → String
  | .null => "null"
  | .bool true => "boolean `true`"
  | .bool false => "boolean `false`"
  | .number (.whole z _) => "integer `" ++ Decimal.intText z ++ "`"
  | .number (.float x) => "floating point `" ++ String.ofList x.spell ++ "`"
  | .string s => "string " ++ Text.quoted s
  | .list => "sequence"
  | .object => "map"

end Found

namespace Fault

/-- Which of the three ways a fault is. -/
def faultClass : Fault → FaultClass
  | .ended _ => .cut
  | .wrongType .. | .missingField _ | .repeatedField _ | .wrongLength .. | .unknownVariant ..
  | .noAlternative _ | .refused _ => .misshapen
  | _ => .malformed

/-- A list of names as messages write it, each in backquotes. -/
def nameList (names : List String) : String :=
  ", ".intercalate (names.map fun name => "`" ++ name ++ "`")

/-- The text of a fault. -/
def message : Fault → String
  | .ended within => "EOF while parsing " ++ within.text
  | .expectedValue => "expected value"
  | .expectedWord => "expected ident"
  | .expectedColon => "expected `:`"
  | .expectedListEnd => "expected `,` or `]`"
  | .expectedObjectEnd => "expected `,` or `\x7d`"
  | .keyNotString => "key must be a string"
  | .trailingComma => "trailing comma"
  | .trailingText => "trailing characters"
  | .invalidNumber => "invalid number"
  | .numberOutOfRange => "number out of range"
  | .invalidEscape => "invalid escape"
  | .loneSurrogate => "lone leading surrogate in hex escape"
  | .unpairedSurrogate => "unexpected end of hex escape"
  | .controlCharacter => "control character (\\u0000-\\u001F) found while parsing a string"
  | .wrongType found expected => "invalid type: " ++ found.text ++ ", expected " ++ expected
  | .missingField name => "missing field `" ++ name ++ "`"
  | .repeatedField name => "duplicate field `" ++ name ++ "`"
  | .wrongLength length expected =>
    "invalid length " ++ Decimal.natText length ++ ", expected " ++ expected
  | .unknownVariant name variants =>
    "unknown variant `" ++ name ++ "`, expected one of " ++ nameList variants
  | .noAlternative type => "data did not match any variant of untagged enum " ++ type
  | .refused reason => reason

end Fault

end ContractBlocks.Json
