import ContractBlocks.Json.Outline

namespace ContractBlocks.Json

/-- Fails with the fault, if there is one. -/
def check : Option Fault → Except Fault Unit
  | none => .ok ()
  | some fault => .error fault

namespace Outline

mutual

/-- Passes over a value. Its numbers and its literals are not looked at beyond their spelling. -/
def skip : Outline → Except Fault Unit
  | .list items ending => do
    skipItems items
    check ending.skipFault?
  | .object entries ending => do
    skipEntries entries
    check ending.skipFault?
  | .stopped why => .error why.skipFault
  | _ => .ok ()

/-- Passes over the items of a list. -/
def skipItems : List Outline → Except Fault Unit
  | [] => .ok ()
  | item :: items => do
    skip item
    skipItems items

/-- Passes over the entries of an object. -/
def skipEntries : List (Literal × Outline) → Except Fault Unit
  | [] => .ok ()
  | (_, value) :: entries => do
    skip value
    skipEntries entries

end

/-- The number that a numeral stands for. -/
def readNumber (n : Numeral) : Except Fault Number :=
  match n.number? with
  | some value => .ok value
  | none => .error .numberOutOfRange

mutual

/-- Reads any JSON value. -/
def readJson : Outline → Except Fault Json
  | .null => .ok .null
  | .bool b => .ok (.bool b)
  | .number n => .number <$> readNumber n
  | .string s => .string <$> s.text
  | .list items ending => do
    let items ← readItems items
    check ending.fault?
    return .list items
  | .object entries ending => do
    let entries ← readEntries [] entries
    check ending.fault?
    return .object entries
  | .stopped why => .error why.fault

/-- Reads the items of a list. -/
def readItems : List Outline → Except Fault (List Json)
  | [] => .ok []
  | item :: items => do
    let item ← readJson item
    return item :: (← readItems items)

/-- Reads entries of an object after those read before. A repeated key keeps its first place and
    takes its last value. -/
def readEntries (before : List (String × Json)) :
    List (Literal × Outline) → Except Fault (List (String × Json))
  | [] => .ok before
  | (key, value) :: entries => do
    let key ← key.text
    let value ← readJson value
    readEntries (putNamed key value before) entries

end

/-- The fault of a value that stands where `expected` should. A number and a literal are read to
    their end first, a list and an object are not. -/
def mismatch (expected : String) : Outline → Fault
  | .null => .wrongType .null expected
  | .bool b => .wrongType (.bool b) expected
  | .number n =>
    match readNumber n with
    | .ok value => .wrongType (.number value) expected
    | .error fault => fault
  | .string s =>
    match s.text with
    | .ok text => .wrongType (.string text) expected
    | .error fault => fault
  | .list .. => .wrongType .list expected
  | .object .. => .wrongType .object expected
  | .stopped why => why.fault

/-- Reads a string. -/
def readString (expected : String) : Outline → Except Fault String
  | .string s => s.text
  | other => .error (other.mismatch expected)

/-- Reads a value or `null`. -/
def readOptional {α : Type} (read : Outline → Except Fault α) : Outline → Except Fault (Option α)
  | .null => .ok none
  | other => some <$> read other

/-- Reads a list of any length. -/
def readList {α : Type} (read : Outline → Except Fault α) : Outline → Except Fault (List α)
  | .list items ending => do
    let items ← items.mapM read
    check ending.fault?
    return items
  | other => .error (other.mismatch "a sequence")

/-- Reads named values after those read before. A repeated name keeps its first place and takes its
    last value. -/
def readNamed {α : Type} (read : Outline → Except Fault α) (before : List (String × α)) :
    List (Literal × Outline) → Except Fault (List (String × α))
  | [] => .ok before
  | (key, value) :: entries => do
    let key ← key.text
    let value ← read value
    readNamed read (putNamed key value before) entries

/-- Reads an object with any keys. -/
def readMap {α : Type} (read : Outline → Except Fault α) :
    Outline → Except Fault (List (String × α))
  | .object entries ending => do
    let entries ← readNamed read [] entries
    check ending.fault?
    return entries
  | other => .error (other.mismatch "a map")

/-- Reads the whole text. Nothing may follow the value. -/
def readText {α : Type} (read : Outline → Except Fault α) (text : String) : Except Fault α := do
  let (outline, rest) := ofText text
  let result ← read outline
  if rest.isEmpty then .ok result else .error .trailingText

end Outline

end ContractBlocks.Json
