import ContractBlocks.Proofs.Decimal.Rounding

namespace ContractBlocks

/-- The exact value of a decimal number. -/
def Decimal.value (x : Decimal) : ℚ :=
  signed x.negative (x.digits * 10 ^ x.exponent)

theorem Decimal.abs_value (x : Decimal) : |x.value| = x.digits * 10 ^ x.exponent := by
  rw [value, abs_signed, abs_of_nonneg (by positivity)]

namespace Binary64

theorem mantissaBound_eq : (mantissaBound : ℚ) = 2 ^ (53 : ℤ) := by
  norm_num [mantissaBound]

section Fraction

variable {num den : ℕ}

theorem scale_snd_pos (hden : 0 < den) (e : ℤ) : 0 < (scale num den e).2 :=
  Nat.mul_pos hden (Nat.pow_pos two_pos)

theorem scale_fst_div_snd (e : ℤ) :
    ((scale num den e).1 : ℚ) / (scale num den e).2 = num / den / 2 ^ e := by
  simp only [scale, Nat.pow_eq, Nat.cast_mul, Nat.cast_pow, Nat.cast_ofNat]
  rw [zpow_eq_div two_ne_zero e]
  field_simp

theorem two_zpow_log2_le (hnum : 0 < num) : (2 : ℚ) ^ (num.log2 : ℤ) ≤ num := by
  rw [zpow_natCast]
  exact_mod_cast Nat.log2_self_le hnum.ne'

theorem lt_two_zpow_log2 (num : ℕ) : (num : ℚ) < 2 ^ ((num.log2 : ℤ) + 1) := by
  have hlog : num < 2 ^ (num.log2 + 1) := Nat.lt_log2_self
  rw [← Nat.cast_succ, zpow_natCast]
  exact_mod_cast hlog

/-- The lengths of numerator and denominator give the size of a fraction up to a factor of four. -/
theorem log2_bounds (hnum : 0 < num) (hden : 0 < den) :
    (2 : ℚ) ^ ((num.log2 : ℤ) - den.log2) < 2 * (num / den) ∧
      (num : ℚ) / den < 2 ^ ((num.log2 : ℤ) - den.log2 + 1) := by
  have hpos : (0 : ℚ) < den := by exact_mod_cast hden
  have hsplit (k l : ℤ) : (2 : ℚ) ^ (k + l) = 2 ^ k * 2 ^ l := zpow_add₀ two_ne_zero k l
  constructor
  · rw [← mul_div_assoc, lt_div_iff₀ hpos]
    calc (2 : ℚ) ^ ((num.log2 : ℤ) - den.log2) * den
        < 2 ^ ((num.log2 : ℤ) - den.log2) * 2 ^ ((den.log2 : ℤ) + 1) := by
          gcongr
          exact lt_two_zpow_log2 den
      _ = 2 * 2 ^ (num.log2 : ℤ) := by
          rw [← hsplit, ← zpow_one_add₀ two_ne_zero]
          congr 1
          ring
      _ ≤ 2 * num := by
          gcongr
          exact two_zpow_log2_le hnum
  · rw [div_lt_iff₀ hpos]
    calc (num : ℚ) < 2 ^ ((num.log2 : ℤ) + 1) := lt_two_zpow_log2 num
      _ = 2 ^ ((num.log2 : ℤ) - den.log2 + 1) * 2 ^ (den.log2 : ℤ) := by
          rw [← hsplit]
          congr 1
          ring
      _ ≤ 2 ^ ((num.log2 : ℤ) - den.log2 + 1) * den := by
          gcongr
          exact two_zpow_log2_le hden

theorem scale_div_lt_iff (hden : 0 < den) (e : ℤ) (bound : ℕ) :
    (scale num den e).1 / (scale num den e).2 < bound ↔ (num : ℚ) / den < bound * 2 ^ e := by
  have hpos : (0 : ℚ) < (scale num den e).2 := by exact_mod_cast scale_snd_pos hden e
  rw [Nat.div_lt_iff_lt_mul (scale_snd_pos hden e), ← div_lt_iff₀ (by positivity : (0 : ℚ) < 2 ^ e),
    ← scale_fst_div_snd e, div_lt_iff₀ hpos]
  exact_mod_cast Iff.rfl

/-- The guess from the lengths is at most one too low, which one look at the quotient tells. -/
theorem exponentFor_fits (hnum : 0 < num) (hden : 0 < den) :
    Fits ((num : ℚ) / den) (exponentFor num den) := by
  obtain ⟨hlow, hhigh⟩ := log2_bounds hnum hden
  have hunits (e : ℤ) : (mantissaBound : ℚ) * 2 ^ e = 2 ^ (53 + e) := by
    rw [mantissaBound_eq, ← zpow_add₀ two_ne_zero]
  obtain ⟨e, he, hlt, hle⟩ : ∃ e, exponentFor num den = max leastExponent e ∧
      (num : ℚ) / den < mantissaBound * 2 ^ e ∧ mantissaBound * 2 ^ e ≤ 2 * ((num : ℚ) / den) := by
    unfold exponentFor
    dsimp only
    set guess : ℤ := (num.log2 : ℤ) - den.log2 - 53 with hguess
    have hlow' : mantissaBound * 2 ^ guess ≤ 2 * ((num : ℚ) / den) := by
      rw [hunits, hguess, add_sub_cancel]
      exact hlow.le
    split
    · next htest => exact ⟨guess, rfl, (scale_div_lt_iff hden guess _).1 htest, hlow'⟩
    · next htest =>
      refine ⟨guess + 1, rfl, ?_, ?_⟩
      · rw [hunits, hguess, ← add_assoc, add_sub_cancel]
        exact hhigh
      · have hquotient := not_lt.1 (mt (scale_div_lt_iff hden guess _).2 htest)
        rw [zpow_add_one₀ two_ne_zero]
        linarith
  rw [he]
  refine ⟨le_max_left _ _, hlt.trans_le ?_, ?_⟩
  · gcongr
    · exact one_le_two
    · exact le_max_right _ _
  · rcases max_choice leastExponent e with hmax | hmax
    · exact .inr hmax
    · rw [hmax]
      exact .inl hle

/-- The mantissa of a positive fraction before a carry out of it. -/
theorem roundsTo_exponentFor (hnum : 0 < num) (hden : 0 < den) :
    RoundsTo ((num : ℚ) / den)
      (roundQuotient (scale num den (exponentFor num den)).1 (scale num den (exponentFor num den)).2)
      (exponentFor num den) := by
  have hfits := exponentFor_fits hnum hden
  generalize exponentFor num den = e at hfits ⊢
  have hstep : (0 : ℚ) < 2 ^ e := by positivity
  have hscaled (m : ℕ) : |(num : ℚ) / den - m * 2 ^ e| = |(num : ℚ) / den / 2 ^ e - m| * 2 ^ e := by
    rw [← abs_of_pos hstep, ← abs_mul, sub_mul, abs_of_pos hstep, div_mul_cancel₀ _ hstep.ne']
  refine ⟨hfits, ?_, fun htie => ?_⟩
  · have hround : |((scale num den e).1 : ℚ) / (scale num den e).2 - _| ≤ _ :=
      abs_sub_roundQuotient_le (scale_snd_pos hden e)
    rw [scale_fst_div_snd] at hround
    calc |(num : ℚ) / den - _| = |(num : ℚ) / den / 2 ^ e - _| * 2 ^ e := hscaled _
      _ ≤ 1 / 2 * 2 ^ e := by gcongr
      _ = 2 ^ e / 2 := by ring
  · apply roundQuotient_even (scale_snd_pos hden e)
    rw [scale_fst_div_snd]
    refine mul_right_cancel₀ hstep.ne' ?_
    rw [← hscaled, htie]
    ring

end Fraction

/-- The middle between the largest number and the power of two after it. From here on numbers are
    too large, since the largest mantissa is odd. -/
def overflowBound : ℚ :=
  (mantissaBound - 1 / 2) * 2 ^ greatestExponent

/-- Mantissa and exponent after a carry out of the mantissa. -/
def carried (m : ℕ) (e : ℤ) : ℕ × ℤ :=
  if m = mantissaBound then (mantissaBound / 2, e + 1) else (m, e)

theorem carried_value (m : ℕ) (e : ℤ) : ((carried m e).1 : ℚ) * 2 ^ (carried m e).2 = m * 2 ^ e := by
  unfold carried
  split
  · next hcarry =>
    rw [hcarry, zpow_add_one₀ two_ne_zero, ← half_mantissaBound_mul_two]
    ring
  · rfl

theorem even_carried {m : ℕ} (heven : m % 2 = 0) (e : ℤ) : (carried m e).1 % 2 = 0 := by
  unfold carried
  split
  · exact (by decide : mantissaBound / 2 % 2 = 0)
  · exact heven

theorem wellFormed_carried {m : ℕ} {e : ℤ} (hle : m ≤ mantissaBound)
    (hnormal : mantissaBound ≤ 2 * m ∨ e = leastExponent) (hleast : leastExponent ≤ e)
    (hgreatest : (carried m e).2 ≤ greatestExponent) (negative : Bool) :
    WellFormed ⟨negative, (carried m e).1, (carried m e).2⟩ := by
  unfold carried at hgreatest ⊢
  split at hgreatest
  · next hcarry =>
    rw [if_pos hcarry]
    have hlt : mantissaBound / 2 < mantissaBound := by decide
    have hhalf : mantissaBound ≤ 2 * (mantissaBound / 2) := by decide
    exact ⟨hlt, .inl hhalf, Int.le_add_one hleast, hgreatest⟩
  · next hcarry =>
    rw [if_neg hcarry]
    exact ⟨Nat.lt_of_le_of_ne hle hcarry, hnormal, hleast, hgreatest⟩

namespace RoundsTo

variable {v : ℚ} {m : ℕ} {e : ℤ}

theorem le_mantissaBound (hrounds : RoundsTo v m e) : m ≤ mantissaBound := by
  have hstep : (0 : ℚ) < 2 ^ e := by positivity
  have hless : (m : ℚ) < mantissaBound + 1 := by
    have hnear := (abs_le.1 hrounds.near).1
    have hlt := hrounds.lt
    refine lt_of_mul_lt_mul_right ?_ hstep.le
    linarith
  exact Nat.lt_succ_iff.1 (by exact_mod_cast hless)

theorem normal (hrounds : RoundsTo v m e) : mantissaBound ≤ 2 * m ∨ e = leastExponent := by
  refine hrounds.half_le.imp_left fun hhalf => ?_
  have hstep : (0 : ℚ) < 2 ^ e := by positivity
  have hless : (mantissaBound : ℚ) ≤ 2 * m + 1 := by
    have hnear := (abs_le.1 hrounds.near).2
    refine le_of_mul_le_mul_right ?_ hstep
    linarith
  -- The bound is even, so that it cannot be the odd number between.
  have hnat : mantissaBound ≤ 2 * m + 1 := by exact_mod_cast hless
  have heven : mantissaBound % 2 = 0 := by decide
  omega

theorem lt_overflowBound (hrounds : RoundsTo v m e) (hgreatest : (carried m e).2 ≤ greatestExponent) :
    v < overflowBound := by
  have hbound : (1 : ℚ) ≤ mantissaBound := by norm_num [mantissaBound]
  have hstep : (0 : ℚ) < 2 ^ e := by positivity
  unfold carried at hgreatest
  split at hgreatest
  · have hdouble : (2 : ℚ) * 2 ^ e ≤ 2 ^ greatestExponent := by
      rw [← zpow_one_add₀ two_ne_zero]
      exact zpow_le_zpow_right₀ one_le_two (by omega)
    calc v < mantissaBound * 2 ^ e := hrounds.lt
      _ ≤ (mantissaBound - 1 / 2) * (2 * 2 ^ e) := by nlinarith
      _ ≤ overflowBound := mul_le_mul_of_nonneg_left hdouble (by linarith)
  · next hcarry =>
    have hle : m + 1 ≤ mantissaBound := Nat.lt_of_le_of_ne hrounds.le_mantissaBound hcarry
    have hle' : (m : ℚ) + 1 ≤ mantissaBound := by exact_mod_cast hle
    have hnear := (abs_le.1 hrounds.near).2
    have hgrid : (mantissaBound - 1 / 2) * 2 ^ e ≤ overflowBound :=
      mul_le_mul_of_nonneg_left (zpow_le_zpow_right₀ one_le_two hgreatest) (by linarith)
    have hlast : ((m : ℚ) + 1 / 2) * 2 ^ e ≤ (mantissaBound - 1 / 2) * 2 ^ e :=
      mul_le_mul_of_nonneg_right (by linarith) hstep.le
    refine lt_of_le_of_ne (by linarith) fun htop => ?_
    -- Only the middle above the largest mantissa reaches the bound, and that mantissa is odd.
    have htie : |v - m * 2 ^ e| = 2 ^ e / 2 := by
      rw [abs_of_nonneg] <;> linarith
    have hsame : (m : ℚ) + 1 / 2 = mantissaBound - 1 / 2 :=
      mul_right_cancel₀ hstep.ne' (by linarith)
    have hodd : m + 1 = mantissaBound := by
      have hcast : ((m + 1 : ℕ) : ℚ) = mantissaBound := by
        push_cast
        linarith
      exact_mod_cast hcast
    have heven := hrounds.even htie
    have hparity : mantissaBound % 2 = 0 := by decide
    omega

theorem overflowBound_le (hrounds : RoundsTo v m e) (hgreatest : greatestExponent < (carried m e).2) :
    overflowBound ≤ v := by
  have hbound : (1 : ℚ) ≤ mantissaBound := by norm_num [mantissaBound]
  have hstep : (0 : ℚ) < 2 ^ e := by positivity
  unfold carried at hgreatest
  split at hgreatest
  · next hcarry =>
    have hnear := (abs_le.1 hrounds.near).1
    rw [hcarry] at hnear
    have hgrid : overflowBound ≤ (mantissaBound - 1 / 2) * 2 ^ e :=
      mul_le_mul_of_nonneg_left (zpow_le_zpow_right₀ one_le_two (by omega)) (by linarith)
    linarith
  · have hdouble : (2 : ℚ) * 2 ^ greatestExponent ≤ 2 ^ e := by
      rw [← zpow_one_add₀ two_ne_zero]
      exact zpow_le_zpow_right₀ one_le_two (by omega)
    have hhalf : mantissaBound * 2 ^ e ≤ 2 * v := by
      refine hrounds.half_le.resolve_right fun hleast => ?_
      have hrange : leastExponent < greatestExponent := by decide
      omega
    have htop : (0 : ℚ) < 2 ^ greatestExponent := by positivity
    unfold overflowBound
    nlinarith

end RoundsTo

theorem nearestFraction?_eq (negative : Bool) (num den : ℕ) :
    nearestFraction? negative num den =
      let e := exponentFor num den
      let c := carried (roundQuotient (scale num den e).1 (scale num den e).2) e
      if c.2 ≤ greatestExponent then some ⟨negative, c.1, c.2⟩ else none :=
  rfl

section Fraction

variable {negative : Bool} {num den : ℕ}

theorem isNearest_of_nearestFraction? {x : Binary64} (hnum : 0 < num) (hden : 0 < den)
    (h : nearestFraction? negative num den = some x) : x.IsNearest (signed negative (num / den)) := by
  have hpos : (0 : ℚ) < num / den := by positivity
  have hrounds := roundsTo_exponentFor hnum hden
  rw [nearestFraction?_eq] at h
  dsimp only at h
  split at h
  · next hgreatest =>
    cases h
    have hform := wellFormed_carried hrounds.le_mantissaBound hrounds.normal hrounds.least_le hgreatest negative
    exact hrounds.isNearest hpos hform (carried_value _ _) fun heven => even_carried heven _
  · cases h

theorem nearestFraction?_eq_none_iff (hnum : 0 < num) (hden : 0 < den) :
    nearestFraction? negative num den = none ↔ overflowBound ≤ (num : ℚ) / den := by
  have hrounds := roundsTo_exponentFor hnum hden
  rw [nearestFraction?_eq]
  dsimp only
  split
  · next hgreatest =>
    have hless := hrounds.lt_overflowBound hgreatest
    simp [hless]
  · next hgreatest => simp [hrounds.overflowBound_le (not_le.1 hgreatest)]

end Fraction

theorem WellFormed.value_eq_zero_or {y : Binary64} (hy : y.WellFormed) :
    y.value = 0 ∨ 2 ^ leastExponent ≤ |y.value| := by
  rw [← abs_eq_zero, abs_value, magnitude]
  rcases Nat.eq_zero_or_pos y.mantissa with hzero | hpos
  · exact .inl (by rw [hzero, Nat.cast_zero, zero_mul])
  · have hone : (1 : ℚ) ≤ y.mantissa := by exact_mod_cast hpos
    have hleast : (2 : ℚ) ^ leastExponent ≤ 2 ^ y.exponent := zpow_le_zpow_right₀ one_le_two hy.least_le
    exact .inr (hleast.trans (le_mul_of_one_le_left (by positivity) hone))

@[simp] theorem value_zero (negative : Bool) : (zero negative).value = 0 := by
  rw [← abs_eq_zero, abs_value]
  simp [zero, magnitude]

theorem wellFormed_least {m : ℕ} (hm : m < mantissaBound) (negative : Bool) :
    WellFormed ⟨negative, m, leastExponent⟩ :=
  have hrange : leastExponent ≤ greatestExponent := by decide
  ⟨hm, .inr rfl, le_rfl, hrange⟩

/-- Up to half of the smallest number, zero is the nearest. -/
theorem isNearest_zero {v : ℚ} (negative : Bool) (hsmall : |v| ≤ 2 ^ leastExponent / 2) :
    (zero negative).IsNearest v := by
  refine ⟨wellFormed_least (by decide) negative, fun y hy => ?_, fun _ _ _ _ => rfl⟩
  rw [value_zero, sub_zero]
  rcases hy.value_eq_zero_or with hzero | hapart
  · rw [hzero, sub_zero]
  · have htriangle := abs_sub_abs_le_abs_sub y.value v
    rw [abs_sub_comm] at htriangle
    linarith

end Binary64

namespace Decimal

/-- The length of a spelling tells the size of the number. -/
theorem spellOnto_bounds (n : ℕ) (rest : List Char) :
    ∃ k, (spellOnto n rest).length = k + rest.length ∧ n < 10 ^ k ∧ (0 < n → 10 ^ k ≤ 10 * n) := by
  fun_induction spellOnto n rest with
  | case1 n rest hn => exact ⟨1, by simp [Nat.add_comm], by omega, by omega⟩
  | case2 n rest hn ih =>
    obtain ⟨k, hlength, hlt, hle⟩ := ih
    refine ⟨k + 1, by rw [hlength, List.length_cons]; omega, ?_, fun _ => ?_⟩
    · rw [pow_succ]
      omega
    · have hdigits := hle (by omega)
      rw [pow_succ]
      omega

theorem spell_bounds {n : ℕ} (hn : 0 < n) :
    (n : ℚ) < 10 ^ ((spell n).length : ℤ) ∧ (10 : ℚ) ^ ((spell n).length : ℤ) ≤ 10 * n := by
  obtain ⟨k, hlength, hlt, hle⟩ := spellOnto_bounds n []
  have hk : (spell n).length = k := hlength
  rw [hk, zpow_natCast]
  exact ⟨by exact_mod_cast hlt, by exact_mod_cast hle hn⟩

/-- The number of digits and the exponent bound a decimal. -/
theorem abs_value_bounds {x : Decimal} (hdigits : 0 < x.digits) :
    |x.value| < 10 ^ (x.exponent + (spell x.digits).length) ∧
      (10 : ℚ) ^ (x.exponent + (spell x.digits).length) ≤ 10 * |x.value| := by
  obtain ⟨hlt, hle⟩ := spell_bounds hdigits
  have hpos : (0 : ℚ) < 10 ^ x.exponent := by positivity
  rw [abs_value, zpow_add₀ (by norm_num), mul_comm]
  constructor
  · gcongr
  · calc (10 : ℚ) ^ x.exponent * 10 ^ ((spell x.digits).length : ℤ) ≤ 10 ^ x.exponent * (10 * x.digits) := by
          gcongr
      _ = 10 * (10 ^ x.exponent * x.digits) := by ring

end Decimal

namespace Binary64

variable {x : Decimal} {y : Binary64}

theorem fraction_eq (x : Decimal) :
    ((x.digits * 10 ^ x.exponent.toNat : ℕ) : ℚ) / (10 ^ (-x.exponent).toNat : ℕ) =
      x.digits * 10 ^ x.exponent := by
  simp only [Nat.cast_mul, Nat.cast_pow, Nat.cast_ofNat]
  rw [zpow_eq_div (by norm_num) x.exponent, mul_div_assoc]

theorem half_least_eq : (2 : ℚ) ^ leastExponent / 2 = 2 ^ (-1075 : ℤ) := by
  rw [div_eq_mul_inv, ← zpow_sub_one₀ two_ne_zero]
  rfl

theorem ten_zpow_le_half_least : (10 : ℚ) ^ (-324 : ℤ) ≤ 2 ^ leastExponent / 2 := by
  have hpowers : (2 : ℚ) ^ 1075 ≤ 10 ^ 324 := by
    exact_mod_cast (by decide +kernel : 2 ^ 1075 ≤ 10 ^ 324)
  rw [half_least_eq, zpow_neg, zpow_neg]
  exact inv_anti₀ (by positivity) (by exact_mod_cast hpowers)

theorem ten_mul_overflowBound_le : 10 * overflowBound ≤ 10 ^ (310 : ℤ) := by
  have hpowers : (10 : ℚ) * (mantissaBound * 2 ^ 971) ≤ 10 ^ 310 := by
    exact_mod_cast (by decide +kernel : 10 * (mantissaBound * 2 ^ 971) ≤ 10 ^ 310)
  calc 10 * overflowBound ≤ 10 * (mantissaBound * 2 ^ greatestExponent) := by
        unfold overflowBound
        gcongr
        linarith
    _ = 10 * (mantissaBound * 2 ^ 971) := congrArg (fun p : ℚ => 10 * (mantissaBound * p)) (zpow_natCast 2 971)
    _ ≤ 10 ^ 310 := hpowers
    _ = 10 ^ (310 : ℤ) := (zpow_natCast 10 310).symm

theorem half_least_lt_overflowBound : (2 : ℚ) ^ leastExponent / 2 < overflowBound := by
  have hleast : (2 : ℚ) ^ leastExponent ≤ 2 ^ (0 : ℤ) := zpow_le_zpow_right₀ one_le_two (by decide)
  have hgreatest : (2 : ℚ) ^ (0 : ℤ) ≤ 2 ^ greatestExponent := zpow_le_zpow_right₀ one_le_two (by decide)
  have hbound : (2 : ℚ) ≤ mantissaBound := by norm_num [mantissaBound]
  rw [zpow_zero] at hleast hgreatest
  unfold overflowBound
  nlinarith

/-- Decimals that are taken as zero without a look at their digits are at most half of the smallest
    number. -/
theorem abs_value_le_of_small
    (hsmall : x.digits = 0 ∨ x.exponent + (Decimal.spell x.digits).length ≤ -324) :
    |x.value| ≤ 2 ^ leastExponent / 2 := by
  rcases Nat.eq_zero_or_pos x.digits with hzero | hpos
  · rw [Decimal.abs_value, hzero, Nat.cast_zero, zero_mul]
    positivity
  · have hexponent := hsmall.resolve_left hpos.ne'
    calc |x.value| ≤ 10 ^ (x.exponent + (Decimal.spell x.digits).length) := (Decimal.abs_value_bounds hpos).1.le
      _ ≤ 10 ^ (-324 : ℤ) := zpow_le_zpow_right₀ (by norm_num) hexponent
      _ ≤ 2 ^ leastExponent / 2 := ten_zpow_le_half_least

/-- Decimals that are refused without a look at their digits are too large. -/
theorem overflowBound_le_of_large (hpos : 0 < x.digits)
    (hlarge : 310 ≤ x.exponent + (Decimal.spell x.digits).length) : overflowBound ≤ |x.value| := by
  have hsize := (Decimal.abs_value_bounds hpos).2
  have hten : (10 : ℚ) ^ (310 : ℤ) ≤ 10 ^ (x.exponent + (Decimal.spell x.digits).length) :=
    zpow_le_zpow_right₀ (by norm_num) hlarge
  have hbound := ten_mul_overflowBound_le
  linarith

/-- The number that a decimal is taken as is the nearest one. -/
theorem isNearest_of_nearest? (h : nearest? x = some y) : y.IsNearest x.value := by
  unfold nearest? at h
  simp only [Nat.pow_eq] at h
  split at h
  · next hsmall =>
    cases h
    exact isNearest_zero _ (abs_value_le_of_small hsmall)
  · next hsmall =>
    split at h
    · cases h
    · have hpos : 0 < x.digits := Nat.pos_of_ne_zero fun hzero => hsmall (.inl hzero)
      have hnearest := isNearest_of_nearestFraction? (by positivity) (by positivity) h
      rwa [fraction_eq] at hnearest

/-- Only decimals beyond the largest number are taken as none. -/
theorem nearest?_eq_none_iff : nearest? x = none ↔ overflowBound ≤ |x.value| := by
  unfold nearest?
  simp only [Nat.pow_eq]
  split
  · next hsmall =>
    have hvalue := (abs_value_le_of_small hsmall).trans_lt half_least_lt_overflowBound
    simp [hvalue]
  · next hsmall =>
    have hpos : 0 < x.digits := Nat.pos_of_ne_zero fun hzero => hsmall (.inl hzero)
    split
    · next hlarge => simp [overflowBound_le_of_large hpos hlarge]
    · rw [nearestFraction?_eq_none_iff (by positivity) (by positivity), fraction_eq, Decimal.abs_value]

end Binary64

end ContractBlocks
