import ContractBlocks.Json.Fault

namespace ContractBlocks.Json

/-- A piece of a string literal: a character, or a 16-bit code unit written as four hexadecimal
    digits. Two code units can make one character. -/
inductive Piece
  | char (c : Char)
  | unit (value : Nat)
deriving DecidableEq, Repr

/-- How a string literal comes to its end: by its closing quote, or because reading has to stop. -/
inductive LiteralEnd
  | closed
  | ended
  | control
  | badEscape
  | badHex
deriving DecidableEq, Repr

namespace Literal

/-- The value of a hexadecimal digit of either case. -/
def hexValue? (c : Char) : Option Nat :=
  if c.isDigit then some (c.toNat - '0'.toNat)
  else if 'a' ≤ c ∧ c ≤ 'f' then some (c.toNat - 'a'.toNat + 10)
  else if 'A' ≤ c ∧ c ≤ 'F' then some (c.toNat - 'A'.toNat + 10)
  else none

/-- The code unit that four hexadecimal digits spell. -/
def codeUnit? (a b c d : Char) : Option Nat := do
  return 16 * (16 * (16 * (← hexValue? a) + (← hexValue? b)) + (← hexValue? c)) + (← hexValue? d)

/-- The character that a letter stands for after a backslash. -/
def unescape? (c : Char) : Option Char :=
  match c with
  | '\"' => some '\"'
  | '\\' => some '\\'
  | '/' => some '/'
  | 'b' => some (Char.ofNat 0x08)
  | 'f' => some (Char.ofNat 0x0c)
  | 'n' => some '\n'
  | 'r' => some '\r'
  | 't' => some '\t'
  | _ => none

/-- The number of bytes that a text takes. -/
def byteCount (cs : List Char) : Nat :=
  cs.foldr (fun c count => c.utf8Size + count) 0

/-- The pieces of a string literal after its opening quote, how it ends, and what follows it. A code
    unit looks at four bytes, so the text counts as cut short where fewer are left. -/
def scan : List Char → List Piece × LiteralEnd × List Char
  | [] => ([], .ended, [])
  | '\"' :: cs => ([], .closed, cs)
  | ['\\'] => ([], .ended, [])
  | '\\' :: 'u' :: a :: b :: c :: d :: cs =>
    match codeUnit? a b c d with
    | some value =>
      let (pieces, ending, rest) := scan cs
      (.unit value :: pieces, ending, rest)
    | none => ([], .badHex, [])
  | '\\' :: 'u' :: cs => ([], if byteCount cs < 4 then .ended else .badHex, [])
  | '\\' :: e :: cs =>
    match unescape? e with
    | some c =>
      let (pieces, ending, rest) := scan cs
      (.char c :: pieces, ending, rest)
    | none => ([], .badEscape, [])
  | c :: cs =>
    if c.toNat < 0x20 then ([], .control, [])
    else
      let (pieces, ending, rest) := scan cs
      (.char c :: pieces, ending, rest)

/-- What follows a literal is shorter than the text it was read from. -/
theorem scan_length_le (cs : List Char) : (scan cs).2.2.length ≤ cs.length := by
  fun_induction scan cs <;> simp_all <;> omega

/-- What is wrong with a literal that does not close. -/
def endFault : LiteralEnd → Fault
  | .closed | .ended => .ended .string
  | .control => .controlCharacter
  | .badEscape | .badHex => .invalidEscape

/-- What is wrong with a literal whose last piece is the first half of a pair of code units. -/
def halfPairFault : LiteralEnd → Fault
  | .closed | .control | .badEscape => .unpairedSurrogate
  | .ended => .ended .string
  | .badHex => .invalidEscape

/-- Whether a code unit is the first half of a pair. -/
def isHighSurrogate (n : Nat) : Bool :=
  0xd800 ≤ n && n ≤ 0xdbff

/-- Whether a code unit is the second half of a pair. -/
def isLowSurrogate (n : Nat) : Bool :=
  0xdc00 ≤ n && n ≤ 0xdfff

/-- The character that two code units make together. -/
def pairChar (high low : Nat) : Char :=
  Char.ofNat (0x10000 + 0x400 * (high - 0xd800) + (low - 0xdc00))

/-- The characters that the pieces of a literal stand for. Code units must come in pairs where they
    are halves of one, and the literal must close. -/
def characters : List Piece → LiteralEnd → Except Fault (List Char)
  | [], .closed => .ok []
  | [], ending => .error (endFault ending)
  | .char c :: pieces, ending => (c :: ·) <$> characters pieces ending
  | .unit n :: pieces, ending =>
    if isLowSurrogate n then .error .loneSurrogate
    else if isHighSurrogate n then
      match pieces with
      | .unit m :: pieces =>
        if isLowSurrogate m then (pairChar n m :: ·) <$> characters pieces ending
        else .error .loneSurrogate
      | .char _ :: _ => .error .unpairedSurrogate
      | [] => .error (halfPairFault ending)
    else (Char.ofNat n :: ·) <$> characters pieces ending

end Literal

/-- A string literal that closes: its text, or why a text cannot be made of it. -/
structure Literal where
  text : Except Fault String

namespace Literal

/-- The literal of a text. -/
def ofString (s : String) : Literal :=
  ⟨.ok s⟩

end Literal

end ContractBlocks.Json
