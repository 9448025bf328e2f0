import ContractBlocks.Decimal.Shortest

namespace ContractBlocks.Json

/-- Whether an integer fits one 64-bit word, signed or unsigned. -/
def FitsWord (z : Int) : Prop :=
  -0x8000000000000000 ≤ z ∧ z < 0x10000000000000000

instance (z : Int) : Decidable (FitsWord z) :=
  inferInstanceAs (Decidable (_ ∧ _))

/-- A number in a document: an integer of one 64-bit word, or a floating-point number. -/
inductive Number
  | whole (value : Int) (fits : FitsWord value)
  | float (value : Binary64)
deriving DecidableEq

namespace Number

theorem fitsWord_toInt (n : Int64) : FitsWord n.toInt := by
  have hlow := n.le_toInt
  have hhigh := n.toInt_lt
  unfold FitsWord
  omega

/-- The number that a signed 64-bit integer is. -/
def ofInt64 (n : Int64) : Number :=
  .whole n.toInt (fitsWord_toInt n)

theorem fitsWord_toNat (n : UInt64) : FitsWord n.toNat := by
  have hhigh := n.toNat_lt
  unfold FitsWord
  omega

/-- The number that an unsigned 64-bit integer is. -/
def ofUInt64 (n : UInt64) : Number :=
  .whole n.toNat (fitsWord_toNat n)

/-- The signed 64-bit integer that the number is stored as. A float is never one, whatever its value. -/
def int64? : Number → Option Int64
  | .whole z _ => if z < 0x8000000000000000 then some (Int64.ofInt z) else none
  | .float _ => none

/-- The floating-point number nearest to the number. -/
def nearest? : Number → Option Binary64
  | .whole z _ => Binary64.nearest? (.ofInt z)
  | .float x => some x

/-- The number's text in a document. -/
def spell : Number → List Char
  | .whole z _ => Decimal.spellInt z
  | .float x => x.spell

/-- The number's text in a document. -/
def text (n : Number) : String :=
  String.ofList n.spell

end Number

/-- A number as a text spells it. It is plain when it has neither a point nor an exponent. -/
structure Numeral where
  value : Decimal
  plain : Bool
deriving DecidableEq, Repr

namespace Numeral

/-- The number that a numeral stands for, or `none` where it lies beyond the largest float. A plain
    numeral is an integer if that fits a word; minus zero does not, since an integer has no sign then. -/
def number? (n : Numeral) : Option Number :=
  let z : Int := if n.value.negative then -n.value.digits else n.value.digits
  if h : n.plain ∧ FitsWord z ∧ ¬(n.value.negative ∧ n.value.digits = 0) then
    some (.whole z h.2.1)
  else (Binary64.nearest? n.value).map .float

end Numeral

end ContractBlocks.Json
