import ContractBlocks.Json.Decode

namespace ContractBlocks.Json

/-- The fields of a record, in their order, each with whether it must be there. -/
structure RecordShape where
  name : String
  fields : List (String × Bool)

namespace RecordShape

/-- How messages name the record. -/
def expected (shape : RecordShape) : String :=
  "struct " ++ shape.name

/-- How messages name the record as a list of its fields. -/
def expectedLength (shape : RecordShape) : String :=
  let count := shape.fields.length
  shape.expected ++ " with " ++ Decimal.natText count ++ (if count = 1 then " element" else " elements")

/-- Whether a record has a field of that name. -/
def has (shape : RecordShape) (name : String) : Bool :=
  shape.fields.any fun field => field.1 = name

/-- The fault of a record written as a list that ends before the fields `left`. -/
def shortFault? (shape : RecordShape) (left : List (String × Bool)) : Option Fault :=
  let given := shape.fields.length - left.length
  (left.findIdx? fun field => field.2).map fun i => .wrongLength (given + i) shape.expectedLength

end RecordShape

namespace Outline

/-- Reads the entries of a record in the order of the text. A field may be given once, and entries
    that are no field of the record are passed over. -/
def readFields {σ : Type} (shape : RecordShape) (read : σ → String → Outline → Except Fault σ)
    (state : σ) (seen : List String) : List (Literal × Outline) → Except Fault σ
  | [] => .ok state
  | (key, value) :: entries => do
    let name ← key.text
    if shape.has name then
      if name ∈ seen then .error (.repeatedField name)
      else
        let state ← read state name value
        readFields shape read state (name :: seen) entries
    else
      skip value
      readFields shape read state seen entries

/-- Reads a record written as the list of its fields. Fields may be left out at its end. -/
def readPositions {σ : Type} (shape : RecordShape) (read : σ → String → Outline → Except Fault σ)
    (state : σ) (ending : ListEnd) : List (String × Bool) → List Outline → Except Fault σ
  | [], [] => do
    check ending.lastFault?
    return state
  | [], _ :: _ => .error .trailingText
  | left, [] => do
    check ending.fault?
    check (shape.shortFault? left)
    return state
  | (name, _) :: left, item :: items => do
    let state ← read state name item
    readPositions shape read state ending left items

/-- Reads a record, written as an object or as the list of its fields. -/
def readRecord {σ : Type} (shape : RecordShape) (read : σ → String → Outline → Except Fault σ)
    (state : σ) : Outline → Except Fault σ
  | .object entries ending => do
    let state ← readFields shape read state [] entries
    check ending.fault?
    return state
  | .list items ending => readPositions shape read state ending shape.fields items
  | other => .error (other.mismatch shape.expected)

/-- The value of a field that must be there. -/
def required {α : Type} (name : String) : Option α → Except Fault α
  | some value => .ok value
  | none => .error (.missingField name)

/-- The fault of an object without an entry where the name of a variant should be its only key. -/
def noVariant (ending : ObjectEnd) : Fault :=
  ending.fault?.getD .expectedValue

/-- Checks that an object ends after the one entry of a variant. -/
def variantEnd (others : List (Literal × Outline)) (ending : ObjectEnd) : Except Fault Unit :=
  match others, ending with
  | [], .closed => .ok ()
  | [], .ended => .error (.ended .object)
  | _, _ => .error .expectedValue

/-- Reads one of several variants, written as its name or as an object that holds its content under
    its name. The name is found first and its content is read then; a bare name has none. -/
def readVariant {ν α : Type} (variant : String → Except Fault ν)
    (content : ν → Option Outline → Except Fault α) : Outline → Except Fault α
  | .string s => do
    let v ← variant (← s.text)
    content v none
  | .object ((key, value) :: others) ending => do
    let v ← variant (← key.text)
    let result ← content v (some value)
    variantEnd others ending
    return result
  | .object [] ending => .error (noVariant ending)
  | .stopped (.string fault _) => .error fault
  | .stopped .valueDue => .error (.ended .value)
  | .stopped (.colonDue ended) => .error (Stop.colonDue ended).fault
  | _ => .error .expectedValue

/-- Reads the content of a variant that has none: nothing, or `null`. -/
def readNothing : Option Outline → Except Fault Unit
  | none | some .null => .ok ()
  | some other => .error (other.mismatch "unit")

end Outline

end ContractBlocks.Json
