import ContractBlocks.Text.Extending
import ContractBlocks.Text.Invisible

namespace ContractBlocks.Text

/-- The characters of a natural number in base sixteen, without leading zeros. -/
def hexadecimal (n : Nat) : List Char :=
  Nat.toDigits 16 n

/-- A character as it stands in a quoted text of a message. One that would not be seen there on its
    own is shown by its number. -/
def quoteChar (c : Char) : List Char :=
  match c with
  | '\"' => ['\\', '\"']
  | '\\' => ['\\', '\\']
  | '\n' => ['\\', 'n']
  | '\r' => ['\\', 'r']
  | '\t' => ['\\', 't']
  | c =>
    if c.toNat = 0 then ['\\', '0']
    else if isExtending c || isInvisible c then '\\' :: 'u' :: '\x7b' :: (hexadecimal c.toNat ++ ['\x7d'])
    else [c]

/-- A text as messages quote it. -/
def quoted (s : String) : String :=
  String.ofList ('\"' :: (s.toList.flatMap quoteChar ++ ['\"']))

end ContractBlocks.Text
