namespace ContractBlocks

/-- The decimal number `± digits · 10 ^ exponent`. The sign is kept apart because a zero has one too. -/
structure Decimal where
  negative : Bool
  digits : Nat
  exponent : Int
deriving DecidableEq, Repr

namespace Decimal

/-- The decimal number that an integer is. -/
def ofInt (z : Int) : Decimal :=
  ⟨z < 0, z.natAbs, 0⟩

/-- The character of a digit below ten. -/
def digitChar (d : Nat) : Char :=
  Char.ofNat ('0'.toNat + d)

/-- The digit that a character stands for. -/
def digitValue (c : Char) : Nat :=
  c.toNat - '0'.toNat

/-- The decimal spelling of `n`, without leading zeros, followed by `rest`. -/
def spellOnto (n : Nat) (rest : List Char) : List Char :=
  if n < 10 then digitChar n :: rest else spellOnto (n / 10) (digitChar (n % 10) :: rest)

/-- The decimal spelling of a natural number, without leading zeros. -/
def spell (n : Nat) : List Char :=
  spellOnto n []

/-- The decimal spelling of an integer: a minus sign only where it is negative. -/
def spellInt (z : Int) : List Char :=
  if z < 0 then '-' :: spell z.natAbs else spell z.natAbs

/-- The text of a natural number. -/
def natText (n : Nat) : String :=
  String.ofList (spell n)

/-- The text of an integer. -/
def intText (z : Int) : String :=
  String.ofList (spellInt z)

/-- The number that a run of digits spells. -/
def ofDigits (ds : List Char) : Nat :=
  ds.foldl (fun n c => 10 * n + digitValue c) 0

/-- The run of digits that a text starts with, and what follows it. -/
def spanDigits (cs : List Char) : List Char × List Char :=
  (cs.takeWhile Char.isDigit, cs.dropWhile Char.isDigit)

/-- Splits off a leading sign; the flag says whether it is a minus. -/
def splitSign : List Char → Bool × List Char
  | '-' :: cs => (true, cs)
  | '+' :: cs => (false, cs)
  | cs => (false, cs)

/-- The integer that an optional sign and at least one digit spell. -/
def integer? (cs : List Char) : Option Int :=
  let (negative, ds) := splitSign cs
  if ds ≠ [] ∧ ds.all Char.isDigit then
    some (if negative then -(ofDigits ds : Int) else ofDigits ds)
  else none

/-- An exponent part: nothing, or the mark `e` or `E`, an optional sign and at least one digit. -/
def exponentPart? : List Char → Option Int
  | [] => some 0
  | c :: cs => if c = 'e' ∨ c = 'E' then integer? cs else none

/-- The digits after a decimal point, none where no point stands, and what follows them. -/
def fractionPart : List Char → List Char × List Char
  | '.' :: cs => spanDigits cs
  | cs => ([], cs)

/-- The decimal number that a whole text spells: an optional sign, digits with at most one point
    among them and at least one digit in all, and an optional exponent part. -/
def ofText? (cs : List Char) : Option Decimal :=
  let (negative, cs) := splitSign cs
  let (whole, cs) := spanDigits cs
  let (fraction, cs) := fractionPart cs
  if whole ++ fraction = [] then none
  else (exponentPart? cs).map fun exponent =>
    ⟨negative, ofDigits (whole ++ fraction), exponent - fraction.length⟩

end Decimal

end ContractBlocks
