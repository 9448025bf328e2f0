import ContractBlocks.Json.Basic

namespace ContractBlocks.Json

/-- The lower-case character of a hexadecimal digit. -/
def hexDigit (d : Nat) : Char :=
  if d < 10 then Char.ofNat ('0'.toNat + d) else Char.ofNat ('a'.toNat + (d - 10))

/-- A character as it stands in a string literal. Quotes, backslashes and control characters are
    escaped; everything else stands for itself. -/
def escape (c : Char) : List Char :=
  match c with
  | '\"' => ['\\', '\"']
  | '\\' => ['\\', '\\']
  | '\n' => ['\\', 'n']
  | '\r' => ['\\', 'r']
  | '\t' => ['\\', 't']
  | c =>
    if c.toNat = 0x08 then ['\\', 'b']
    else if c.toNat = 0x0c then ['\\', 'f']
    else if c.toNat < 0x20 then
      ['\\', 'u', '0', '0', hexDigit (c.toNat / 16), hexDigit (c.toNat % 16)]
    else [c]

/-- A string literal, followed by `rest`. -/
def quoteOnto (s : String) (rest : List Char) : List Char :=
  '\"' :: (s.toList.flatMap escape ++ '\"' :: rest)

/-- What stands between the parts of a document: the break before an item at a given depth, and the
    text between a key and its value. -/
structure Layout where
  lineBreak : Nat → List Char
  afterKey : List Char

namespace Layout

/-- Everything on one line and nothing between the parts. -/
def compact : Layout :=
  ⟨fun _ => [], [':']⟩

/-- An item on each line, two spaces deeper than what it stands in. -/
def pretty : Layout :=
  ⟨fun depth => '\n' :: List.replicate (2 * depth) ' ', [':', ' ']⟩

end Layout

mutual

/-- The text of a value that stands at the given depth, followed by `rest`. -/
def writeOnto (layout : Layout) (depth : Nat) : Json → List Char → List Char
  | .null, rest => 'n' :: 'u' :: 'l' :: 'l' :: rest
  | .bool true, rest => 't' :: 'r' :: 'u' :: 'e' :: rest
  | .bool false, rest => 'f' :: 'a' :: 'l' :: 's' :: 'e' :: rest
  | .number n, rest => n.spell ++ rest
  | .string s, rest => quoteOnto s rest
  | .list [], rest => '[' :: ']' :: rest
  | .list (item :: items), rest =>
    '[' :: (layout.lineBreak (depth + 1) ++ writeOnto layout (depth + 1) item
      (writeItemsOnto layout depth items rest))
  | .object [], rest => '\x7b' :: '\x7d' :: rest
  | .object ((key, value) :: entries), rest =>
    '\x7b' :: (layout.lineBreak (depth + 1) ++ quoteOnto key
      (layout.afterKey ++ writeOnto layout (depth + 1) value
        (writeEntriesOnto layout depth entries rest)))

/-- The remaining items of a list at the given depth and its end, followed by `rest`. -/
def writeItemsOnto (layout : Layout) (depth : Nat) : List Json → List Char → List Char
  | [], rest => layout.lineBreak depth ++ ']' :: rest
  | item :: items, rest =>
    ',' :: (layout.lineBreak (depth + 1) ++ writeOnto layout (depth + 1) item
      (writeItemsOnto layout depth items rest))

/-- The remaining entries of an object at the given depth and its end, followed by `rest`. -/
def writeEntriesOnto (layout : Layout) (depth : Nat) : List (String × Json) → List Char → List Char
  | [], rest => layout.lineBreak depth ++ '\x7d' :: rest
  | (key, value) :: entries, rest =>
    ',' :: (layout.lineBreak (depth + 1) ++ quoteOnto key
      (layout.afterKey ++ writeOnto layout (depth + 1) value
        (writeEntriesOnto layout depth entries rest)))

end

/-- The text of a value on one line. -/
def compact (json : Json) : String :=
  String.ofList (writeOnto .compact 0 json [])

/-- The text of a value over several lines, with no line break at its end. -/
def pretty (json : Json) : String :=
  String.ofList (writeOnto .pretty 0 json [])

end ContractBlocks.Json
