import ContractBlocks.Decimal.Binary64
import Mathlib.Algebra.Order.Field.Power
import Mathlib.Tactic.FieldSimp
import Mathlib.Tactic.Linarith
import Mathlib.Tactic.NormNum
import Mathlib.Tactic.Positivity
import Mathlib.Tactic.Ring

namespace ContractBlocks

/-- A magnitude with a sign; the flag says whether it is a minus. -/
def signed (negative : Bool) (v : ℚ) : ℚ :=
  if negative then -v else v

theorem abs_signed (negative : Bool) (v : ℚ) : |signed negative v| = |v| := by
  cases negative <;> simp [signed]

theorem signed_sub (negative : Bool) (v w : ℚ) :
    signed negative v - signed negative w = signed negative (v - w) := by
  cases negative <;> simp [signed]
  ring

theorem signed_add (negative : Bool) (v w : ℚ) :
    signed negative v + signed negative w = signed negative (v + w) := by
  cases negative <;> simp [signed]
  ring

theorem signed_natAbs (z : ℤ) : signed (decide (z < 0)) z.natAbs = z := by
  have hcast : (z.natAbs : ℚ) = |(z : ℚ)| := by
    rw [← Int.cast_natCast, Int.natCast_natAbs, Int.cast_abs]
  rw [hcast]
  rcases lt_or_ge z 0 with hneg | hpos
  · rw [decide_eq_true hneg, abs_of_neg (by exact_mod_cast hneg)]
    simp [signed]
  · rw [decide_eq_false (not_lt.2 hpos), abs_of_nonneg (by exact_mod_cast hpos)]
    rfl

theorem zpow_eq_div {b : ℚ} (hb : b ≠ 0) (e : ℤ) : b ^ e = b ^ e.toNat / b ^ (-e).toNat := by
  rw [eq_div_iff (pow_ne_zero _ hb), ← zpow_natCast, ← zpow_natCast, ← zpow_add₀ hb]
  congr 1
  omega

namespace Binary64

/-- The exact size of a number, without its sign. -/
def magnitude (x : Binary64) : ℚ :=
  x.mantissa * 2 ^ x.exponent

/-- The exact value of a number. -/
def value (x : Binary64) : ℚ :=
  signed x.negative x.magnitude

/-- The mantissa has at most 53 bits, and exactly so many unless the exponent is the least one. -/
structure WellFormed (x : Binary64) : Prop where
  mantissa_lt : x.mantissa < mantissaBound
  normal : mantissaBound ≤ 2 * x.mantissa ∨ x.exponent = leastExponent
  least_le : leastExponent ≤ x.exponent
  le_greatest : x.exponent ≤ greatestExponent

theorem magnitude_nonneg (x : Binary64) : 0 ≤ x.magnitude := by
  unfold magnitude
  positivity

theorem abs_value (x : Binary64) : |x.value| = x.magnitude := by
  rw [value, abs_signed, abs_of_nonneg x.magnitude_nonneg]

theorem value_eq_or_eq_neg {x y : Binary64} (hsize : y.magnitude = x.magnitude) :
    y.value = x.value ∨ y.value = -x.value := by
  rw [← abs_eq_abs, abs_value, abs_value, hsize]

/-- `x` is the number nearest to `v`. No number is nearer, and if another is as near, the mantissa of
    `x` is even. -/
structure IsNearest (x : Binary64) (v : ℚ) : Prop where
  wellFormed : x.WellFormed
  nearest : ∀ y : Binary64, y.WellFormed → |v - x.value| ≤ |v - y.value|
  even : ∀ y : Binary64, y.WellFormed → y.value ≠ x.value → |v - y.value| = |v - x.value| →
    x.mantissa % 2 = 0

section Quotient

variable {num den : ℕ}

theorem quotient_eq (hden : 0 < den) :
    (num : ℚ) / den = (num / den : ℕ) + ((num % den : ℕ) : ℚ) / den := by
  have hden' : (den : ℚ) ≠ 0 := by exact_mod_cast hden.ne'
  have hsplit : (num : ℚ) = den * (num / den : ℕ) + (num % den : ℕ) := by
    exact_mod_cast (Nat.div_add_mod num den).symm
  rw [div_eq_iff hden', add_mul, div_mul_cancel₀ _ hden', ← mul_comm (den : ℚ)]
  exact hsplit

theorem remainder_div_lt_one (num : ℕ) (hden : 0 < den) : ((num % den : ℕ) : ℚ) / den < 1 := by
  rw [div_lt_one (by exact_mod_cast hden)]
  exact_mod_cast Nat.mod_lt num hden

/-- A quotient is rounded by at most one half. -/
theorem abs_sub_roundQuotient_le (hden : 0 < den) :
    |(num : ℚ) / den - roundQuotient num den| ≤ 1 / 2 := by
  have hpos : (0 : ℚ) < den := by exact_mod_cast hden
  have hless := remainder_div_lt_one num hden
  have hnonneg : (0 : ℚ) ≤ ((num % den : ℕ) : ℚ) / den := by positivity
  unfold roundQuotient
  rw [quotient_eq hden]
  dsimp only
  split
  · next hdown =>
    have htwice : 2 * (num % den) ≤ den := by omega
    have hhalf : ((num % den : ℕ) : ℚ) / den ≤ 1 / 2 := by
      rw [div_le_div_iff₀ hpos two_pos]
      exact_mod_cast (by omega : num % den * 2 ≤ 1 * den)
    rw [add_sub_cancel_left, abs_of_nonneg hnonneg]
    exact hhalf
  · next hup =>
    have hhalf : (1 : ℚ) / 2 ≤ ((num % den : ℕ) : ℚ) / den := by
      rw [div_le_div_iff₀ two_pos hpos]
      exact_mod_cast (by omega : 1 * den ≤ num % den * 2)
    rw [abs_le]
    push_cast
    constructor <;> linarith

/-- A quotient that lies in the middle is rounded to the even neighbour. -/
theorem roundQuotient_even (hden : 0 < den)
    (htie : |(num : ℚ) / den - roundQuotient num den| = 1 / 2) : roundQuotient num den % 2 = 0 := by
  have hpos : (0 : ℚ) < den := by exact_mod_cast hden
  have hnonneg : (0 : ℚ) ≤ ((num % den : ℕ) : ℚ) / den := by positivity
  have hmiddle : 2 * (num % den) = den := by
    have hhalf : ((num % den : ℕ) : ℚ) / den = 1 / 2 := by
      have hless := remainder_div_lt_one num hden
      unfold roundQuotient at htie
      rw [quotient_eq hden] at htie
      dsimp only at htie
      split at htie
      · rwa [add_sub_cancel_left, abs_of_nonneg hnonneg] at htie
      · rw [abs_eq (by norm_num)] at htie
        push_cast at htie
        rcases htie with htie | htie <;> linarith
    rw [div_eq_div_iff hpos.ne' two_ne_zero] at hhalf
    have hnat : num % den * 2 = 1 * den := by exact_mod_cast hhalf
    omega
  unfold roundQuotient
  dsimp only
  split <;> omega

end Quotient

/-- On the grid of step `2 ^ e` the number `v` takes the bits of a mantissa: it lies below `2 ^ 53`
    steps, and not below half of them unless the step is the smallest. -/
structure Fits (v : ℚ) (e : ℤ) : Prop where
  least_le : leastExponent ≤ e
  lt : v < mantissaBound * 2 ^ e
  half_le : mantissaBound * 2 ^ e ≤ 2 * v ∨ e = leastExponent

/-- The multiple `m` of the step is next to `v` on the grid where `v` fits. In the middle it is even. -/
structure RoundsTo (v : ℚ) (m : ℕ) (e : ℤ) : Prop extends Fits v e where
  near : |v - m * 2 ^ e| ≤ 2 ^ e / 2
  even : |v - m * 2 ^ e| = 2 ^ e / 2 → m % 2 = 0

theorem half_le_abs_sub {v : ℚ} {m j : ℕ} {e : ℤ} (hnear : |v - m * 2 ^ e| ≤ 2 ^ e / 2) (hne : j ≠ m) :
    2 ^ e / 2 ≤ |v - j * 2 ^ e| := by
  have hstep : (0 : ℚ) < 2 ^ e := by positivity
  have hapart : (1 : ℚ) ≤ |(m : ℚ) - j| := by
    have hint : (1 : ℤ) ≤ |(m : ℤ) - j| := Int.one_le_abs (by omega)
    exact_mod_cast hint
  have hgap : 2 ^ e ≤ |(m : ℚ) * 2 ^ e - j * 2 ^ e| := by
    rw [← sub_mul, abs_mul, abs_of_pos hstep]
    exact le_mul_of_one_le_left hstep.le hapart
  have htriangle := abs_sub_le ((m : ℚ) * 2 ^ e) v (j * 2 ^ e)
  rw [abs_sub_comm _ v] at htriangle
  linarith

theorem exists_magnitude_eq {y : Binary64} {e : ℤ} (hexponent : e ≤ y.exponent) :
    ∃ j : ℕ, y.magnitude = j * 2 ^ e := by
  refine ⟨y.mantissa * 2 ^ (y.exponent - e).toNat, ?_⟩
  have hsplit : (2 : ℚ) ^ y.exponent = 2 ^ (y.exponent - e).toNat * 2 ^ e := by
    rw [← zpow_natCast, ← zpow_add₀ two_ne_zero]
    congr 1
    omega
  rw [magnitude, hsplit]
  push_cast
  ring

theorem WellFormed.two_mul_magnitude_lt {y : Binary64} {e : ℤ} (hy : y.WellFormed)
    (hexponent : y.exponent < e) : 2 * y.magnitude < mantissaBound * 2 ^ e := by
  have hmantissa : (y.mantissa : ℚ) < mantissaBound := by exact_mod_cast hy.mantissa_lt
  have hstep : (2 : ℚ) * 2 ^ y.exponent ≤ 2 ^ e := by
    rw [← zpow_one_add₀ two_ne_zero]
    exact zpow_le_zpow_right₀ one_le_two (by omega)
  have hbound : (0 : ℚ) ≤ mantissaBound := by positivity
  calc 2 * y.magnitude = y.mantissa * (2 * 2 ^ y.exponent) := by rw [magnitude]; ring
    _ < mantissaBound * (2 * 2 ^ y.exponent) := by gcongr
    _ ≤ mantissaBound * 2 ^ e := by gcongr

theorem half_mantissaBound_mul_two : ((mantissaBound / 2 : ℕ) : ℚ) * 2 = mantissaBound := by
  exact_mod_cast (by decide : mantissaBound / 2 * 2 = mantissaBound)

namespace RoundsTo

variable {v : ℚ} {m : ℕ} {e : ℤ}

theorem le_grid (hrounds : RoundsTo v m e) (j : ℕ) : |v - m * 2 ^ e| ≤ |v - j * 2 ^ e| := by
  by_cases hj : j = m
  · rw [hj]
  · exact hrounds.near.trans (half_le_abs_sub hrounds.near hj)

/-- A number with a smaller step than the grid's lies below all multiples that `v` can round to. -/
theorem lt_of_exponent_lt (hrounds : RoundsTo v m e) {y : Binary64} (hy : y.WellFormed)
    (hexponent : y.exponent < e) : |v - m * 2 ^ e| < |v - y.magnitude| := by
  have hbelow := hy.two_mul_magnitude_lt hexponent
  have hhalf : mantissaBound * 2 ^ e ≤ 2 * v := by
    refine hrounds.half_le.resolve_right fun hleast => ?_
    have := hy.least_le
    omega
  have hgrid := hrounds.le_grid (mantissaBound / 2)
  have hat : ((mantissaBound / 2 : ℕ) : ℚ) * 2 ^ e * 2 = mantissaBound * 2 ^ e := by
    rw [mul_right_comm, half_mantissaBound_mul_two]
  rw [abs_of_nonneg (by linarith : 0 ≤ v - (mantissaBound / 2 : ℕ) * 2 ^ e)] at hgrid
  rw [abs_of_nonneg (by linarith : 0 ≤ v - y.magnitude)]
  linarith

theorem le_magnitude (hrounds : RoundsTo v m e) {y : Binary64} (hy : y.WellFormed) :
    |v - m * 2 ^ e| ≤ |v - y.magnitude| := by
  rcases lt_or_ge y.exponent e with hexponent | hexponent
  · exact (hrounds.lt_of_exponent_lt hy hexponent).le
  · obtain ⟨j, hj⟩ := exists_magnitude_eq hexponent
    rw [hj]
    exact hrounds.le_grid j

theorem even_of_tie (hrounds : RoundsTo v m e) {y : Binary64} (hy : y.WellFormed)
    (hne : y.magnitude ≠ m * 2 ^ e) (htie : |v - y.magnitude| = |v - m * 2 ^ e|) : m % 2 = 0 := by
  rcases lt_or_ge y.exponent e with hexponent | hexponent
  · exact absurd htie (hrounds.lt_of_exponent_lt hy hexponent).ne'
  · obtain ⟨j, hj⟩ := exists_magnitude_eq hexponent
    rw [hj] at hne htie
    have hjm : j ≠ m := fun h => hne (by rw [h])
    have hhalf := half_le_abs_sub hrounds.near hjm
    exact hrounds.even (le_antisymm hrounds.near (htie ▸ hhalf))

/-- A number of that size is nearest to `v` among the numbers of both signs. -/
theorem isNearest (hrounds : RoundsTo v m e) (hpos : 0 < v) {x : Binary64} (hx : x.WellFormed)
    (hsize : x.magnitude = m * 2 ^ e) (hparity : m % 2 = 0 → x.mantissa % 2 = 0) :
    x.IsNearest (signed x.negative v) := by
  have hown : |signed x.negative v - x.value| = |v - m * 2 ^ e| := by
    rw [value, signed_sub, abs_signed, hsize]
  have hother (y : Binary64) : |v - y.magnitude| ≤ |signed x.negative v - y.value| := by
    have hdistance := abs_abs_sub_abs_le (signed x.negative v) y.value
    rwa [abs_signed, abs_value, abs_of_pos hpos] at hdistance
  refine ⟨hx, fun y hy => ?_, fun y hy hne htie => hparity ?_⟩
  · rw [hown]
    exact (hrounds.le_magnitude hy).trans (hother y)
  · rw [hown] at htie
    have hmagnitude : |v - y.magnitude| = |v - m * 2 ^ e| :=
      le_antisymm (htie ▸ hother y) (hrounds.le_magnitude hy)
    refine hrounds.even_of_tie hy (fun hsame => hne ?_) hmagnitude
    rw [← hsize] at hsame
    -- A number of the same size and the other sign is farther away, unless both are zero.
    rcases value_eq_or_eq_neg hsame with hvalue | hvalue
    · exact hvalue
    · have hfar : |signed x.negative v - y.value| = v + x.magnitude := by
        rw [hvalue, value, sub_neg_eq_add, signed_add, abs_signed,
          abs_of_pos (add_pos_of_pos_of_nonneg hpos x.magnitude_nonneg)]
      have hzero : x.magnitude = 0 := by
        have hnonneg := x.magnitude_nonneg
        rw [hfar, ← hsize] at htie
        rcases abs_cases (v - x.magnitude) with ⟨habs, -⟩ | ⟨habs, -⟩ <;> linarith
      have hboth : x.value = 0 := by rw [← abs_eq_zero, abs_value, hzero]
      rw [hvalue, hboth, neg_zero]

end RoundsTo

end Binary64

end ContractBlocks
