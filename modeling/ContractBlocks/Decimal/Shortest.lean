import ContractBlocks.Decimal.Binary64

namespace ContractBlocks.Binary64

/-- The fractions, over one denominator, that bound the reals which round to a positive number: its
    lower end, its value and its upper end. The lower half-gap is narrower at a power of two. -/
structure Rounding where
  low : Nat
  value : Nat
  high : Nat
  den : Nat
  closed : Bool
deriving Repr

/-- The interval of reals that round to `x`, whose ends belong to it when the mantissa is even. -/
def rounding (x : Binary64) : Rounding :=
  let narrow := 2 * x.mantissa = mantissaBound ∧ leastExponent < x.exponent
  let unit := Nat.pow 2 (x.exponent - 2).toNat
  { low := (4 * x.mantissa - if narrow then 1 else 2) * unit
    value := 4 * x.mantissa * unit
    high := (4 * x.mantissa + 2) * unit
    den := Nat.pow 2 (2 - x.exponent).toNat
    closed := x.mantissa % 2 = 0 }

namespace Rounding

/-- The factors that turn the interval and a grid of step `10 ^ exponent` into whole numbers: one
    for the interval's ends and one for the grid's points. -/
def factors (r : Rounding) (exponent : Int) : Nat × Nat :=
  (Nat.pow 10 (-exponent).toNat, r.den * Nat.pow 10 exponent.toNat)

/-- Whether the grid point `digits · 10 ^ exponent` rounds to the number. -/
def contains (r : Rounding) (digits : Nat) (exponent : Int) : Bool :=
  let (f, g) := r.factors exponent
  if r.closed then r.low * f ≤ digits * g && digits * g ≤ r.high * f
  else r.low * f < digits * g && digits * g < r.high * f

/-- The grid points next to the value, below and above. -/
def neighbours (r : Rounding) (exponent : Int) : Nat × Nat :=
  let (f, g) := r.factors exponent
  (r.value * f / g, r.value * f / g + 1)

/-- Whether the value lies nearer to the lower of two neighbours on the grid; the middle belongs to
    the even one. -/
def prefersLower (r : Rounding) (lower : Nat) (exponent : Int) : Bool :=
  let (f, g) := r.factors exponent
  let twice := 2 * (r.value * f)
  let middle := (2 * lower + 1) * g
  twice < middle || (twice = middle && lower % 2 = 0)

/-- The grid point that stands for the number, where the grid has one in the interval. -/
def onGrid? (r : Rounding) (exponent : Int) : Option Nat :=
  let (lower, upper) := r.neighbours exponent
  match r.contains lower exponent, r.contains upper exponent with
  | true, true => some (if r.prefersLower lower exponent then lower else upper)
  | true, false => some lower
  | false, true => some upper
  | false, false => none

/-- The exponent of the value's first decimal digit. -/
def leadingExponent (r : Rounding) : Int :=
  if r.den ≤ r.value then (Decimal.spell (r.value / r.den)).length - 1
  else
    match (List.range 400).find? fun k => r.den ≤ r.value * Nat.pow 10 k with
    | some k => -(k : Int)
    | none => 0

/-- The fewest digits that read back, and the exponent of the last of them. -/
def shortest (r : Rounding) : Nat × Int :=
  let leading := r.leadingExponent
  let grids := (List.range 17).map fun k : Nat => leading - k
  match grids.findSome? fun e => (r.onGrid? e).map fun digits => (digits, e) with
  | some found => found
  | none => (0, 0)

end Rounding

/-- Drops the zeros at the end of a run of digits. -/
def dropTrailingZeros (ds : List Char) : List Char :=
  (ds.reverse.dropWhile (· = '0')).reverse

/-- Lays out the digits `d₁d₂…` of `0.d₁d₂… · 10 ^ (leading + 1)`. From `10 ^ -5` to below `10 ^ 16`
    all places are written, with at least one after the point; otherwise one digit stands before the
    point and the exponent follows with its sign. -/
def layOut (ds : List Char) (leading : Int) : List Char :=
  if leading < -5 ∨ 15 < leading then
    let mark := if leading < 0 then "e-".toList else "e+".toList
    let mantissa := match ds with
      | [] => []
      | [d] => [d]
      | d :: ds => d :: '.' :: ds
    mantissa ++ mark ++ Decimal.spell leading.natAbs
  else if leading < 0 then
    "0.".toList ++ List.replicate (leading.natAbs - 1) '0' ++ ds
  else
    let places := leading.toNat + 1
    let whole := ds.take places ++ List.replicate (places - ds.length) '0'
    let fraction := ds.drop places
    whole ++ '.' :: (if fraction = [] then ['0'] else fraction)

/-- The text of a number: the fewest digits that read back, laid out by `layOut`. -/
def spell (x : Binary64) : List Char :=
  let body :=
    if x.mantissa = 0 then "0.0".toList
    else
      let (digits, exponent) := x.rounding.shortest
      let ds := Decimal.spell digits
      layOut (dropTrailingZeros ds) (exponent + ds.length - 1)
  if x.negative then '-' :: body else body

end ContractBlocks.Binary64
