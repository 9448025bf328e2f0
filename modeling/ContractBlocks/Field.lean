import ContractBlocks.Json.Decode
import ContractBlocks.Text.Blank

namespace ContractBlocks

/-- What a field holds. Either may stand in any field; what it means there is for the reader. -/
inductive FieldValue
  | number (value : Json.Number)
  | text (value : String)
deriving DecidableEq

namespace FieldValue

/-- The number that a signed 64-bit integer is. -/
def ofInt64 (n : Int64) : FieldValue :=
  .number (.ofInt64 n)

/-- The value as text; a number as a document writes it. -/
def asText : FieldValue → String
  | .number n => n.text
  | .text s => s

/-- An integer as one of 64 bits, where it fits. -/
def toInt64? (z : Int) : Option Int64 :=
  if -0x8000000000000000 ≤ z ∧ z < 0x8000000000000000 then some (Int64.ofInt z) else none

/-- The 64-bit integer that a floating-point number equals, if there is one. -/
def integral? (x : Binary64) : Option Int64 :=
  x.integer?.bind toInt64?

/-- The 64-bit integer that a number is. One that is not stored so is taken as a floating-point
    number. -/
def numberInteger? (n : Json.Number) : Option Int64 :=
  match n.int64? with
  | some n => some n
  | none => n.nearest?.bind integral?

/-- The 64-bit integer that a text spells. A spelling that is not one is taken as a decimal number
    and rounded to a floating-point number first. -/
def textInteger? (cs : List Char) : Option Int64 :=
  match (Decimal.integer? cs).bind toInt64? with
  | some n => some n
  | none => ((Decimal.ofText? cs).bind Binary64.nearest?).bind integral?

/-- The value as a 64-bit integer, where it is one. White space around a text does not count. -/
def asInteger? : FieldValue → Option Int64
  | .number n => numberInteger? n
  | .text s => textInteger? (Text.trim s.toList)

/-- The value in a document. -/
def toJson : FieldValue → Json
  | .number n => .number n
  | .text s => .string s

/-- Reads a field's value. It is read as a JSON value first, so the faults inside a value of another
    type come before the fault that it is of another type. -/
def read (outline : Json.Outline) : Except Json.Fault FieldValue := do
  match ← outline.readJson with
  | .number n => .ok (.number n)
  | .string s => .ok (.text s)
  | _ => .error (.noAlternative "FieldValue")

/-- Reads a text that holds a field's value. -/
def readText (text : String) : Except Json.Fault FieldValue :=
  Json.Outline.readText read text

end FieldValue

end ContractBlocks
