import ContractBlocks.Json.Basic
import ContractBlocks.Json.Token.Scan

namespace ContractBlocks.Json

/-- What stands after the items of a list that could be read. -/
inductive ListEnd
  | closed
  | ended
  | commaClosed
  | commaEnded
  | noComma

namespace ListEnd

/-- The fault of a list's end, where it has one. -/
def fault? : ListEnd → Option Fault
  | .closed => none
  | .ended => some (.ended .list)
  | .commaClosed => some .trailingComma
  | .commaEnded => some (.ended .value)
  | .noComma => some .expectedListEnd

/-- The fault of the end of a list that is skipped. -/
def skipFault? : ListEnd → Option Fault
  | .commaClosed => some .expectedValue
  | ending => ending.fault?

/-- The fault of the end of a list that must have no further item. -/
def lastFault? : ListEnd → Option Fault
  | .closed => none
  | .ended => some (.ended .list)
  | .commaClosed => some .trailingComma
  | .commaEnded | .noComma => some .trailingText

end ListEnd

/-- What stands after the entries of an object that could be read. -/
inductive ObjectEnd
  | closed
  | ended
  | commaClosed
  | commaEnded
  | noComma
  | badKey (token : Token)

namespace ObjectEnd

/-- The fault of an object's end, where it has one. -/
def fault? : ObjectEnd → Option Fault
  | .closed => none
  | .ended => some (.ended .object)
  | .commaClosed => some .trailingComma
  | .commaEnded => some (.ended .value)
  | .noComma => some .expectedObjectEnd
  | .badKey (.stop (.string fault _)) => some fault
  | .badKey _ => some .keyNotString

/-- The fault of the end of an object that is skipped. -/
def skipFault? : ObjectEnd → Option Fault
  | .commaClosed => some .keyNotString
  | .commaEnded => some (.ended .object)
  | .badKey (.stop (.string _ fault)) => some fault
  | ending => ending.fault?

end ObjectEnd

/-- A value as far as the text can be read. Lists and objects hold what stands before the place where
    reading stops, so that a reader comes upon the faults of a text in the order of the text. -/
inductive Outline
  | null
  | bool (value : Bool)
  | number (value : Numeral)
  | string (value : Literal)
  | list (items : List Outline) (ending : ListEnd)
  | object (entries : List (Literal × Outline)) (ending : ObjectEnd)
  | stopped (why : Stop)

namespace Outline

/-- A list or an object that is still open, with what has been read of it, the latest first. -/
inductive Frame
  | list (items : List Outline)
  | object (entries : List (Literal × Outline)) (key : Literal)

/-- The outline of the whole text when reading stops with `last` inside the open lists and objects. -/
def enclose : List Frame → Outline → Outline
  | [], last => last
  | .list items :: frames, last => enclose frames (.list (last :: items).reverse .ended)
  | .object entries key :: frames, last =>
    enclose frames (.object ((key, last) :: entries).reverse .ended)

mutual

/-- Reads a value inside the open lists and objects. The result holds the tokens after the outermost
    value. -/
def value (frames : List Frame) : List Token → Outline × List Token
  | [] => (enclose frames (.stopped .valueDue), [])
  | .null :: ts => resume frames .null ts
  | .bool b :: ts => resume frames (.bool b) ts
  | .number n :: ts => resume frames (.number n) ts
  | .string s :: ts => resume frames (.string s) ts
  | [.openList] => (enclose frames (.list [] .ended), [])
  | .openList :: .closeList :: ts => resume frames (.list [] .closed) ts
  | .openList :: ts => value (.list [] :: frames) ts
  | [.openObject] => (enclose frames (.object [] .ended), [])
  | .openObject :: .closeObject :: ts => resume frames (.object [] .closed) ts
  | .openObject :: ts => key frames [] ts
  | .stop why :: _ => (enclose frames (.stopped why), [])
  | _ :: _ => (enclose frames (.stopped .stray), [])

/-- Goes on after the value `last` inside the open lists and objects. -/
def resume (frames : List Frame) (last : Outline) (ts : List Token) : Outline × List Token :=
  match frames, ts with
  | [], ts => (last, ts)
  | .list items :: frames, ts =>
    let items := last :: items
    match ts with
    | [] => (enclose frames (.list items.reverse .ended), [])
    | .closeList :: ts => resume frames (.list items.reverse .closed) ts
    | [.comma] => (enclose frames (.list items.reverse .commaEnded), [])
    | .comma :: .closeList :: _ => (enclose frames (.list items.reverse .commaClosed), [])
    | .comma :: ts => value (.list items :: frames) ts
    | _ :: _ => (enclose frames (.list items.reverse .noComma), [])
  | .object entries name :: frames, ts =>
    let entries := (name, last) :: entries
    match ts with
    | [] => (enclose frames (.object entries.reverse .ended), [])
    | .closeObject :: ts => resume frames (.object entries.reverse .closed) ts
    | [.comma] => (enclose frames (.object entries.reverse .commaEnded), [])
    | .comma :: .closeObject :: _ => (enclose frames (.object entries.reverse .commaClosed), [])
    | .comma :: ts => key frames entries ts
    | _ :: _ => (enclose frames (.object entries.reverse .noComma), [])

/-- Reads a key and its value in an object that has the given entries. -/
def key (frames : List Frame) (entries : List (Literal × Outline)) :
    List Token → Outline × List Token
  | [] => (enclose frames (.object entries.reverse .ended), [])
  | .string name :: .colon :: ts => value (.object entries name :: frames) ts
  | .string name :: ts =>
    (enclose frames (.object ((name, .stopped (.colonDue ts.isEmpty)) :: entries).reverse .ended), [])
  | token :: _ => (enclose frames (.object entries.reverse (.badKey token)), [])

end

/-- The outline of a text, and the tokens after it. -/
def ofText (text : String) : Outline × List Token :=
  value [] (Token.scan text.toList)

end Outline

end ContractBlocks.Json
