import ContractBlocks.Decimal.Basic

namespace ContractBlocks

/-- A finite binary floating-point number of 64 bits, `± mantissa · 2 ^ exponent`. The mantissa is
    below `2 ^ 53`, and at least `2 ^ 52` unless the exponent is the least one. -/
structure Binary64 where
  negative : Bool
  mantissa : Nat
  exponent : Int
deriving DecidableEq, Repr

namespace Binary64

/-- The first natural number that is too large for a mantissa, `2 ^ 53`. -/
def mantissaBound : Nat := 0x20000000000000

/-- The exponent of the smallest positive number. -/
def leastExponent : Int := -1074

/-- The exponent of the largest number. -/
def greatestExponent : Int := 971

/-- A zero of either sign. -/
def zero (negative : Bool) : Binary64 :=
  ⟨negative, 0, leastExponent⟩

/-- The quotient rounded to the nearest natural number, a half going to the even neighbour. -/
def roundQuotient (num den : Nat) : Nat :=
  let floor := num / den
  let twice := 2 * (num % den)
  if twice < den ∨ (twice = den ∧ floor % 2 = 0) then floor else floor + 1

/-- The fraction `num / den`, divided by `2 ^ exponent`. -/
def scale (num den : Nat) (exponent : Int) : Nat × Nat :=
  (num * Nat.pow 2 (-exponent).toNat, den * Nat.pow 2 exponent.toNat)

/-- The exponent at which the positive fraction `num / den` has a mantissa of 53 bits, or the least
    exponent where that is higher. -/
def exponentFor (num den : Nat) : Int :=
  let guess : Int := (num.log2 : Int) - den.log2 - 53
  let (n, d) := scale num den guess
  max leastExponent (if n / d < mantissaBound then guess else guess + 1)

/-- The number nearest to the positive fraction `num / den`, a tie going to the even mantissa, or
    `none` where that lies beyond the largest number. -/
def nearestFraction? (negative : Bool) (num den : Nat) : Option Binary64 :=
  let exponent := exponentFor num den
  let (n, d) := scale num den exponent
  let mantissa := roundQuotient n d
  let (mantissa, exponent) :=
    if mantissa = mantissaBound then (mantissaBound / 2, exponent + 1) else (mantissa, exponent)
  if exponent ≤ greatestExponent then some ⟨negative, mantissa, exponent⟩ else none

/-- The number nearest to a decimal, or `none` where that lies beyond the largest number. Decimals
    below `10 ^ -324` are nearer to zero than to the smallest number, and those from `10 ^ 309` on
    are too large, whatever their digits. -/
def nearest? (x : Decimal) : Option Binary64 :=
  let magnitude : Int := x.exponent + (Decimal.spell x.digits).length
  if x.digits = 0 ∨ magnitude ≤ -324 then some (zero x.negative)
  else if 310 ≤ magnitude then none
  else nearestFraction? x.negative (x.digits * Nat.pow 10 x.exponent.toNat)
    (Nat.pow 10 (-x.exponent).toNat)

/-- The integer that the number equals, if there is one. -/
def integer? (x : Binary64) : Option Int :=
  let den := Nat.pow 2 (-x.exponent).toNat
  let num := x.mantissa * Nat.pow 2 x.exponent.toNat
  if num % den = 0 then
    some (if x.negative then -(num / den : Nat) else (num / den : Nat))
  else none

end Binary64

end ContractBlocks
