import ContractBlocks.Field
import ContractBlocks.Proofs.Decimal.Neighbours
import ContractBlocks.Proofs.Decimal.Spelled
import ContractBlocks.Proofs.Json.Parsed
import Mathlib.Data.Nat.Cast.Field

namespace ContractBlocks

theorem Binary64.magnitude_eq_div (x : Binary64) :
    x.magnitude = ((x.mantissa * 2 ^ x.exponent.toNat : ℕ) : ℚ) / (2 ^ (-x.exponent).toNat : ℕ) := by
  rw [magnitude, zpow_eq_div two_ne_zero]
  push_cast
  ring

theorem signed_natCast (negative : Bool) (n : ℕ) :
    signed negative n = ((if negative then -(n : ℤ) else n : ℤ) : ℚ) := by
  cases negative <;> simp [signed]

/-- A floating-point number is taken for an integer exactly if it is one. -/
theorem Binary64.integer?_eq_some_iff (x : Binary64) (z : ℤ) : x.integer? = some z ↔ x.value = z := by
  have hden : 0 < 2 ^ (-x.exponent).toNat := Nat.pow_pos two_pos
  have hden' : ((2 ^ (-x.exponent).toNat : ℕ) : ℚ) ≠ 0 := by exact_mod_cast hden.ne'
  have hsize := x.magnitude_eq_div
  unfold integer?
  simp only [Nat.pow_eq]
  generalize x.mantissa * 2 ^ x.exponent.toNat = num at hsize ⊢
  generalize 2 ^ (-x.exponent).toNat = den at hden hden' hsize ⊢
  split
  · next hdivides =>
    rw [← Nat.cast_div (Nat.dvd_of_mod_eq_zero hdivides) hden'] at hsize
    rw [value, hsize, signed_natCast, Int.cast_inj, Option.some_inj]
  · next hdivides =>
    refine ⟨by simp, fun hvalue => absurd ?_ hdivides⟩
    have hnum : (num : ℚ) = (z.natAbs * den : ℕ) := by
      rw [← abs_value, hvalue, eq_div_iff hden', ← Int.cast_abs, ← Int.natCast_natAbs, Int.cast_natCast] at hsize
      rw [← hsize, Nat.cast_mul]
    rw [Nat.cast_inj.1 hnum, Nat.mul_mod_left]

/-- The exact value of a number. -/
def Json.Number.value : Json.Number → ℚ
  | .whole z _ => z
  | .float x => x.value

theorem Decimal.value_ofInt (z : ℤ) : (Decimal.ofInt z).value = z := by
  rw [ofInt, value, zpow_zero, mul_one, signed_natAbs]

namespace FieldValue

open Binary64 Decimal Json

theorem toInt64?_eq_some_iff (z : ℤ) (n : Int64) : toInt64? z = some n ↔ z = n.toInt := by
  have hlow := n.le_toInt
  have hhigh := n.toInt_lt
  unfold toInt64?
  split
  · next hfits =>
    rw [Option.some_inj, ← Int64.toInt_inj, Int64.toInt_ofInt_of_le hfits.1 hfits.2]
  · next hfits =>
    refine ⟨nofun, fun hz => absurd ?_ hfits⟩
    omega

theorem integral?_eq_some_iff (x : Binary64) (n : Int64) : integral? x = some n ↔ x.value = n.toInt := by
  simp only [integral?, Option.bind_eq_some_iff, integer?_eq_some_iff, toInt64?_eq_some_iff]
  exact ⟨fun ⟨z, hvalue, hz⟩ => hz ▸ hvalue, fun hvalue => ⟨_, hvalue, rfl⟩⟩

theorem le_toInt_cast (n : Int64) : -2 ^ 63 ≤ (n.toInt : ℚ) := by
  exact_mod_cast n.le_toInt

theorem toInt_cast_lt (n : Int64) : (n.toInt : ℚ) < 2 ^ 63 := by
  exact_mod_cast n.toInt_lt

/-- The floating-point number nearest to a value is the integer. -/
def NearestIs (v : ℚ) (n : Int64) : Prop :=
  ∃ x : Binary64, x.IsNearest v ∧ x.value = n.toInt

theorem NearestIs.le {v : ℚ} {n : Int64} (h : NearestIs v n) : -2 ^ 63 - 2 ^ 10 ≤ v := by
  obtain ⟨x, hx, hvalue⟩ := h
  by_contra hlow
  have hless := hx.value_lt_minusWord (not_le.1 hlow)
  have hword := le_toInt_cast n
  linarith

theorem NearestIs.lt {v : ℚ} {n : Int64} (h : NearestIs v n) : v < 2 ^ 63 := by
  obtain ⟨x, hx, hvalue⟩ := h
  by_contra hhigh
  have hle := hx.le_value_of_word_le (not_lt.1 hhigh)
  have hword := toInt_cast_lt n
  linarith

theorem overflowBound_gt : 2 ^ 63 + 2 ^ 10 < overflowBound := by
  have hgreatest : (2 : ℚ) ^ (11 : ℤ) ≤ 2 ^ greatestExponent := zpow_le_zpow_right₀ one_le_two (by decide)
  calc (2 : ℚ) ^ 63 + 2 ^ 10 < (mantissaBound - 1 / 2) * 2 ^ (11 : ℤ) := by norm_num [mantissaBound]
    _ ≤ overflowBound := mul_le_mul_of_nonneg_left hgreatest (by norm_num [mantissaBound])

/-- Rounding a decimal and taking the result for an integer goes by the nearest number. Decimals that
    are too large for a floating-point number are too large for an integer. -/
theorem nearest?_bind_integral?_iff (x : Decimal) (n : Int64) :
    (Binary64.nearest? x).bind integral? = some n ↔ NearestIs x.value n := by
  cases hnearest : Binary64.nearest? x with
  | none =>
    refine ⟨nofun, fun h => ?_⟩
    have hlarge := nearest?_eq_none_iff.1 hnearest
    have hlow := h.le
    have hhigh := h.lt
    have hbound := overflowBound_gt
    rcases abs_cases x.value with ⟨habs, -⟩ | ⟨habs, -⟩ <;> linarith
  | some y =>
    have hy := isNearest_of_nearest? hnearest
    rw [Option.bind_some, integral?_eq_some_iff]
    refine ⟨fun hvalue => ⟨y, hy, hvalue⟩, ?_⟩
    rintro ⟨z, hz, hvalue⟩
    rw [hy.unique hz, hvalue]

/-- The decimal number that a field's value was written as: a text that spells it with white space
    around it, or the value that a JSON text of it is read as. -/
inductive WrittenAs : FieldValue → Numeral → Prop
  | text {s : String} {core : List Char} {m : Numeral} (hspelled : DecimalText m core)
      (hpadded : Text.Padded core s.toList) :
    WrittenAs (.text s) m
  | json {s : String} {core after : List Char} {m : Numeral} {value : FieldValue}
      (hspelled : NumeralText m core) (hbefore : Blanks s.toList (core ++ after))
      (hafter : Blanks after []) (hread : readText s = .ok value) :
    WrittenAs value m

/-- The value lies in the range of a 64-bit integer. -/
def InRange (v : ℚ) : Prop :=
  -2 ^ 63 ≤ v ∧ v < 2 ^ 63

instance (v : ℚ) : Decidable (InRange v) :=
  inferInstanceAs (Decidable (_ ∧ _))

theorem inRange_toInt (n : Int64) : InRange n.toInt :=
  ⟨le_toInt_cast n, toInt_cast_lt n⟩

theorem not_inRange_of_toInt64? {z : ℤ} (h : toInt64? z = none) : ¬InRange z := by
  rintro ⟨hlow, hhigh⟩
  have hlow' : -2 ^ 63 ≤ z := by exact_mod_cast hlow
  have hhigh' : z < 2 ^ 63 := by exact_mod_cast hhigh
  have hsome := (toInt64?_eq_some_iff z (.ofInt z)).2 (Int64.toInt_ofInt_of_le hlow' hhigh').symm
  rw [h] at hsome
  cases hsome

/-- What a decimal number reads as: itself if it is plain and in range, else the nearest
    floating-point number if that is an integer. -/
def ReadsAs (m : Numeral) (n : Int64) : Prop :=
  if m.plain ∧ InRange m.value.value then m.value.value = n.toInt else NearestIs m.value.value n

theorem textInteger?_eq_some_iff {m : Numeral} {core : List Char} (hspelled : DecimalText m core) (n : Int64) :
    textInteger? core = some n ↔ ReadsAs m n := by
  have hnearest := nearest?_bind_integral?_iff m.value n
  unfold textInteger? ReadsAs
  rw [integer?_of_decimalText hspelled, ofText?_of_decimalText hspelled, Option.bind_some]
  cases hplain : m.plain with
  | false => simpa using hnearest
  | true =>
    have hvalue := hspelled.value_eq_of_plain hplain
    rw [if_pos rfl, Option.bind_some]
    cases hword : toInt64? m.value.signedDigits with
    | none =>
      have hout := not_inRange_of_toInt64? hword
      rw [← hvalue] at hout
      simpa [hout] using hnearest
    | some k =>
      rw [(toInt64?_eq_some_iff _ k).1 hword] at hvalue
      simp [hvalue, inRange_toInt, Int64.toInt_inj]

theorem readText_of_numeralText {s : String} {core after : List Char} {m : Numeral}
    (hspelled : NumeralText m core) (hbefore : Blanks s.toList (core ++ after)) (hafter : Blanks after []) :
    readText s = (Outline.readNumber m).map FieldValue.number := by
  have hscan : Token.scan s.toList = [.number m] := by
    rw [Token.scan_of_blanks hbefore, Token.scan_number hspelled (.of_blanks hafter nofun),
      Token.scan_of_blanks hafter, Token.scan]
  have houtline : Outline.ofText s = (.number m, []) := by
    rw [Outline.ofText, hscan, Outline.value, Outline.resume]
  rw [readText, Outline.readText, houtline]
  cases hnumber : Outline.readNumber m <;> simp [read, Outline.readJson, hnumber] <;> rfl

/-- A number reads as the integer that it is, whether it goes through a floating-point number or not. -/
theorem numberInteger?_eq_some_iff (number : Json.Number) (n : Int64) :
    numberInteger? number = some n ↔ number.value = n.toInt := by
  unfold numberInteger?
  cases number with
  | float x => exact integral?_eq_some_iff x n
  | whole z fits =>
    have hrounded := nearest?_bind_integral?_iff (Decimal.ofInt z) n
    simp only [Json.Number.int64?, Json.Number.nearest?, Json.Number.value, Int.cast_inj]
    split
    · next hstored =>
      split at hstored
      · next hhigh =>
        cases hstored
        rw [Option.some_inj, ← Int64.toInt_inj, Int64.toInt_ofInt_of_le fits.1 hhigh]
      · cases hstored
    · next hstored =>
      split at hstored
      · cases hstored
      · next hhigh =>
        rw [hrounded, Decimal.value_ofInt]
        have hlarge : (2 : ℚ) ^ 63 ≤ z := by exact_mod_cast not_lt.1 hhigh
        constructor
        · intro hnearest
          exact absurd hnearest.lt (not_lt.2 hlarge)
        · rintro rfl
          exact absurd n.toInt_lt hhigh

theorem nearestIs_value_iff {x : Binary64} (hx : x.WellFormed) (n : Int64) :
    NearestIs x.value n ↔ x.value = n.toInt := by
  refine ⟨?_, fun hvalue => ⟨x, hx.isNearest_self, hvalue⟩⟩
  rintro ⟨y, hy, hvalue⟩
  rw [hx.isNearest_self.unique hy, hvalue]

/-- A number that is stored as a word reads as its text does: if it is not in range, it is at least
    `2 ^ 63`, and no integer is nearest to it. -/
theorem readsAs_of_fitsWord {m : Numeral} {z : ℤ} (hplain : m.plain) (hz : m.value.value = z)
    (hfits : FitsWord z) (n : Int64) : ReadsAs m n ↔ m.value.value = n.toInt := by
  unfold ReadsAs
  split
  · rfl
  · next hout =>
    have hlow : -2 ^ 63 ≤ m.value.value := by
      rw [hz]
      exact_mod_cast hfits.1
    have hlarge : 2 ^ 63 ≤ m.value.value := by
      by_contra hhigh
      exact hout ⟨hplain, hlow, not_le.1 hhigh⟩
    constructor
    · intro hnearest
      exact absurd hnearest.lt (not_lt.2 hlarge)
    · intro hvalue
      exact absurd (hvalue ▸ toInt_cast_lt n) (not_lt.2 hlarge)

/-- A number that is stored as the nearest floating-point number reads as its text does: of the plain
    numbers in range, only minus zero is stored so. -/
theorem readsAs_of_isNearest {m : Numeral} {core : List Char} {x : Binary64} (hspelled : DecimalText m core)
    (hnearest : x.IsNearest m.value.value)
    (hother : m.plain → ∀ z : ℤ, m.value.value = z → FitsWord z → m.value.negative ∧ z = 0)
    (n : Int64) : ReadsAs m n ↔ x.value = n.toInt := by
  unfold ReadsAs
  split
  · next hin =>
    have hvalue := hspelled.value_eq_of_plain hin.1
    have hfits : FitsWord m.value.signedDigits := by
      have hrange := hin.2
      rw [hvalue] at hrange
      have hlow : -2 ^ 63 ≤ m.value.signedDigits := by exact_mod_cast hrange.1
      have hhigh : m.value.signedDigits < 2 ^ 63 := by exact_mod_cast hrange.2
      exact ⟨hlow, by omega⟩
    have hzero : m.value.value = 0 := by rw [hvalue, (hother hin.1 _ hvalue hfits).2, Int.cast_zero]
    rw [hzero] at hnearest ⊢
    rw [hnearest.value_eq_zero_iff.2 (by rw [abs_zero]; positivity)]
  · refine ⟨?_, fun hvalue => ⟨x, hnearest, hvalue⟩⟩
    rintro ⟨y, hy, hvalue⟩
    exact (hnearest.unique hy).trans hvalue

/-- A number that a JSON text spells reads as the text does. -/
theorem numberInteger?_of_standsFor {m : Numeral} {core : List Char} {number : Json.Number}
    (hspelled : DecimalText m core) (hnumber : m.StandsFor number) (n : Int64) :
    numberInteger? number = some n ↔ ReadsAs m n := by
  rw [numberInteger?_eq_some_iff]
  cases hnumber with
  | whole hplain hz _ fits => rw [readsAs_of_fitsWord hplain hz fits, hz, Json.Number.value]
  | float hother hnearest _ _ => rw [readsAs_of_isNearest hspelled hnearest hother, Json.Number.value]

/-- Every value that was written as a decimal number reads as that number says. -/
theorem WrittenAs.asInteger?_eq_some_iff {value : FieldValue} {m : Numeral} (hwritten : value.WrittenAs m)
    (n : Int64) : value.asInteger? = some n ↔ ReadsAs m n := by
  cases hwritten with
  | text hspelled hpadded =>
    rw [asInteger?, hspelled.trim_eq hpadded]
    exact textInteger?_eq_some_iff hspelled n
  | json hspelled hbefore hafter hread =>
    rw [readText_of_numeralText hspelled hbefore hafter, Outline.readNumber] at hread
    split at hread
    · next number hnumber =>
      cases hread
      exact numberInteger?_of_standsFor (decimalText_of_numeralText hspelled)
        (hspelled.number?_eq_some_iff.1 hnumber) n
    · cases hread

end FieldValue

end ContractBlocks
