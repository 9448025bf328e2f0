import ContractBlocks.Proofs.Decimal.Nearest

namespace ContractBlocks.Binary64

variable {x y : Binary64} {v : ℚ}

/-- The number with the other sign. -/
def opposite (x : Binary64) : Binary64 :=
  { x with negative := !x.negative }

@[simp] theorem value_opposite (x : Binary64) : x.opposite.value = -x.value := by
  cases hsign : x.negative <;> simp [opposite, value, signed, magnitude, hsign]

theorem WellFormed.opposite (hx : x.WellFormed) : x.opposite.WellFormed :=
  ⟨hx.mantissa_lt, hx.normal, hx.least_le, hx.le_greatest⟩

theorem IsNearest.opposite (hx : x.IsNearest v) : x.opposite.IsNearest (-v) := by
  have hmirror (w : ℚ) : |-v - -w| = |v - w| := by rw [← abs_neg, neg_sub_neg, neg_sub]
  have hother (y : Binary64) : |-v - y.value| = |v - y.opposite.value| := by
    rw [value_opposite, ← hmirror, neg_neg]
  refine ⟨hx.wellFormed.opposite, fun y hy => ?_, fun y hy hne htie => ?_⟩
  · rw [value_opposite, hmirror, hother]
    exact hx.nearest y.opposite hy.opposite
  · rw [value_opposite, hmirror, hother] at htie
    refine hx.even y.opposite hy.opposite (fun hsame => hne ?_) htie
    rw [value_opposite] at hsame ⊢
    rw [← hsame, neg_neg]

theorem IsNearest.le_of_le (hx : x.IsNearest v) (hy : y.WellFormed) (hle : y.value ≤ v) :
    y.value ≤ x.value := by
  by_contra hlt
  have hnearest := hx.nearest y hy
  rw [abs_of_nonneg (by linarith), abs_of_nonneg (by linarith)] at hnearest
  linarith

/-- A number is the nearest to itself. -/
theorem WellFormed.isNearest_self (hx : x.WellFormed) : x.IsNearest x.value := by
  refine ⟨hx, fun y _ => ?_, fun y _ hne htie => absurd ?_ hne⟩
  · rw [sub_self, abs_zero]
    exact abs_nonneg _
  · rw [sub_self, abs_zero, abs_eq_zero, sub_eq_zero] at htie
    exact htie.symm

theorem WellFormed.magnitude_lt_of_exponent_lt (hx : x.WellFormed) (hy : y.WellFormed)
    (hexponent : y.exponent < x.exponent) : y.magnitude < x.magnitude := by
  have hbelow := hy.two_mul_magnitude_lt hexponent
  have hnormal : mantissaBound ≤ 2 * x.mantissa := by
    refine hx.normal.resolve_right fun hleast => ?_
    have := hy.least_le
    omega
  have hcast : (mantissaBound : ℚ) ≤ 2 * x.mantissa := by exact_mod_cast hnormal
  have hunits : (mantissaBound : ℚ) * 2 ^ x.exponent ≤ 2 * x.mantissa * 2 ^ x.exponent := by gcongr
  have hsize : x.magnitude = x.mantissa * 2 ^ x.exponent := rfl
  linarith

theorem WellFormed.exponent_eq (hx : x.WellFormed) (hy : y.WellFormed)
    (hsize : x.magnitude = y.magnitude) : x.exponent = y.exponent := by
  rcases lt_trichotomy x.exponent y.exponent with hless | hsame | hless
  · exact absurd hsize (hy.magnitude_lt_of_exponent_lt hx hless).ne
  · exact hsame
  · exact absurd hsize (hx.magnitude_lt_of_exponent_lt hy hless).ne'

theorem WellFormed.mantissa_eq (hx : x.WellFormed) (hy : y.WellFormed)
    (hsize : x.magnitude = y.magnitude) : x.mantissa = y.mantissa := by
  have hexponent := hx.exponent_eq hy hsize
  unfold magnitude at hsize
  rw [hexponent] at hsize
  have hstep : (2 : ℚ) ^ y.exponent ≠ 0 := by positivity
  exact_mod_cast mul_right_cancel₀ hstep hsize

/-- Each size is written in one way, zero too. -/
theorem WellFormed.eq_of_value_eq (hx : x.WellFormed) (hy : y.WellFormed)
    (hsign : x.negative = y.negative) (hvalue : x.value = y.value) : x = y := by
  have hsize : x.magnitude = y.magnitude := by rw [← abs_value, ← abs_value, hvalue]
  have hmantissa := hx.mantissa_eq hy hsize
  have hexponent := hx.exponent_eq hy hsize
  cases x
  cases y
  simp_all

/-- Between a number and a larger one lies at least one step of the first. -/
theorem WellFormed.step_le (hx : x.WellFormed) (hy : y.WellFormed) (hless : x.magnitude < y.magnitude) :
    ((x.mantissa + 1 : ℕ) : ℚ) * 2 ^ x.exponent ≤ y.magnitude := by
  rcases lt_or_ge y.exponent x.exponent with hexponent | hexponent
  · exact absurd hless (hx.magnitude_lt_of_exponent_lt hy hexponent).not_gt
  · obtain ⟨j, hj⟩ := exists_magnitude_eq hexponent
    rw [hj] at hless ⊢
    have hstep : (0 : ℚ) < 2 ^ x.exponent := by positivity
    have hmantissa : (x.mantissa : ℚ) < j := lt_of_mul_lt_mul_right hless hstep.le
    have hsucc : x.mantissa + 1 ≤ j := by exact_mod_cast hmantissa
    gcongr

theorem WellFormed.magnitude_lt (hx : x.WellFormed) : x.magnitude < mantissaBound * 2 ^ greatestExponent := by
  have hmantissa : (x.mantissa : ℚ) < mantissaBound := by exact_mod_cast hx.mantissa_lt
  have hpowers : (2 : ℚ) ^ x.exponent ≤ 2 ^ greatestExponent :=
    zpow_le_zpow_right₀ one_le_two hx.le_greatest
  have hstep : (0 : ℚ) < 2 ^ x.exponent := by positivity
  exact (mul_lt_mul_of_pos_right hmantissa hstep).trans_le (mul_le_mul_of_nonneg_left hpowers (Nat.cast_nonneg _))

/-- The next number up from one that is not the largest. -/
theorem WellFormed.exists_next (hx : x.WellFormed) (hy : y.WellFormed) (hless : x.magnitude < y.magnitude) :
    ∃ z : Binary64, z.WellFormed ∧ z.negative = false ∧
      z.magnitude = ((x.mantissa + 1 : ℕ) : ℚ) * 2 ^ x.exponent ∧
      (x.mantissa % 2 = 0 → z.mantissa = x.mantissa + 1) := by
  have hstep := hx.step_le hy hless
  have hgreatest : (carried (x.mantissa + 1) x.exponent).2 ≤ greatestExponent := by
    unfold carried
    split
    · next hcarry =>
      rw [hcarry] at hstep
      have hpowers : (2 : ℚ) ^ x.exponent < 2 ^ greatestExponent :=
        lt_of_mul_lt_mul_left (hstep.trans_lt hy.magnitude_lt) (by positivity)
      exact (zpow_lt_zpow_iff_right₀ one_lt_two).1 hpowers
    · exact hx.le_greatest
  have hnormal := hx.normal.imp_left fun h => h.trans (by omega : 2 * x.mantissa ≤ 2 * (x.mantissa + 1))
  refine ⟨_, wellFormed_carried hx.mantissa_lt hnormal hx.least_le hgreatest false, rfl, carried_value _ _, ?_⟩
  -- An odd mantissa is not the bound, which is even.
  intro heven
  have hbound : mantissaBound % 2 = 0 := by decide
  exact congrArg Prod.fst (if_neg (by omega))

theorem value_of_nonneg (hx : 0 ≤ x.value) : x.value = x.magnitude := by
  rw [← abs_value, abs_of_nonneg hx]

/-- Of two numbers next to each other one has an odd mantissa, so that a tie is decided. -/
theorem IsNearest.not_lt_of_nonneg (hx : x.IsNearest v) (hy : y.IsNearest v) (hpos : 0 ≤ x.value) :
    ¬x.value < y.value := by
  intro hless
  have htie : |v - x.value| = |v - y.value| :=
    le_antisymm (hx.nearest y hy.wellFormed) (hy.nearest x hx.wellFormed)
  have hmiddle : 2 * v = x.value + y.value := by
    rcases abs_eq_abs.1 htie with hsame | hmirror <;> linarith
  have hxvalue := value_of_nonneg hpos
  have hyvalue := value_of_nonneg (hpos.trans hless.le)
  have hxeven := hx.even y hy.wellFormed hless.ne' htie.symm
  have hyeven := hy.even x hx.wellFormed hless.ne htie
  rw [hxvalue, hyvalue] at hless
  obtain ⟨z, hz, hsign, hnext, hmantissa⟩ := hx.wellFormed.exists_next hy.wellFormed hless
  have hstep := hx.wellFormed.step_le hy.wellFormed hless
  have hzvalue : z.value = z.magnitude := by rw [value, hsign]; rfl
  rw [← hnext] at hstep
  rcases hstep.lt_or_eq with hbetween | hsame
  · -- A number strictly between the two would be nearer than both.
    have hbelow : x.magnitude < z.magnitude := by
      rw [hnext]
      unfold magnitude
      gcongr
      exact Nat.lt_succ_self _
    have hnearest := hx.nearest z hz
    rw [hzvalue, hxvalue, abs_of_nonneg (by linarith)] at hnearest
    rcases abs_cases (v - z.magnitude) with ⟨habs, -⟩ | ⟨habs, -⟩ <;> linarith
  · have hodd := hmantissa hxeven
    rw [hz.mantissa_eq hy.wellFormed hsame] at hodd
    omega

theorem IsNearest.value_le (hx : x.IsNearest v) (hy : y.IsNearest v) : y.value ≤ x.value := by
  refine not_lt.1 fun hless => ?_
  rcases le_or_gt 0 x.value with hpos | hneg
  · exact hx.not_lt_of_nonneg hy hpos hless
  · rcases le_or_gt y.value 0 with hnonpos | hpos
    · have hmirror := hy.opposite.not_lt_of_nonneg hx.opposite
      simp only [value_opposite, neg_lt_neg_iff] at hmirror
      exact hmirror (by linarith) hless
    · -- Zero lies between numbers of different signs.
      have hzero : (zero false).WellFormed := wellFormed_least (by decide) false
      have hbelow := hx.nearest (zero false) hzero
      have habove := hy.nearest (zero false) hzero
      rw [value_zero, sub_zero] at hbelow habove
      rcases le_or_gt 0 v with hv | hv
      · rw [abs_of_nonneg hv, abs_of_nonneg (by linarith)] at hbelow
        linarith
      · rw [abs_of_neg hv, abs_of_neg (by linarith)] at habove
        linarith

/-- The nearest number is one only. -/
theorem IsNearest.unique (hx : x.IsNearest v) (hy : y.IsNearest v) : x.value = y.value :=
  le_antisymm (hy.value_le hx) (hx.value_le hy)

theorem negative_of_nearest? {d : Decimal} (h : nearest? d = some x) : x.negative = d.negative := by
  unfold nearest? at h
  dsimp only at h
  split at h
  · cases h
    rfl
  · split at h
    · cases h
    · rw [nearestFraction?_eq] at h
      dsimp only at h
      split at h <;> cases h
      rfl

/-- A decimal is taken as the nearest number with its sign, unless it lies beyond the largest one. -/
theorem nearest?_eq_some_iff {d : Decimal} :
    nearest? d = some x ↔ x.IsNearest d.value ∧ x.negative = d.negative ∧ |d.value| < overflowBound := by
  constructor
  · intro h
    refine ⟨isNearest_of_nearest? h, negative_of_nearest? h, not_le.1 fun hlarge => ?_⟩
    rw [nearest?_eq_none_iff.2 hlarge] at h
    cases h
  · rintro ⟨hnearest, hsign, hsize⟩
    cases h : nearest? d with
    | none => exact absurd hsize (not_lt.2 (nearest?_eq_none_iff.1 h))
    | some y =>
      have hy := isNearest_of_nearest? h
      have hsigns : y.negative = x.negative := (negative_of_nearest? h).trans hsign.symm
      rw [hy.wellFormed.eq_of_value_eq hnearest.wellFormed hsigns (hy.unique hnearest)]

/-- Exactly the values up to half of the smallest number have zero as the nearest. -/
theorem IsNearest.value_eq_zero_iff (hx : x.IsNearest v) : x.value = 0 ↔ |v| ≤ 2 ^ leastExponent / 2 := by
  constructor
  · intro hzero
    have hstep : (0 : ℚ) < 2 ^ leastExponent := by positivity
    have hsmallest (negative : Bool) :
        |v| ≤ |v - signed negative (2 ^ leastExponent)| := by
      have hnearest := hx.nearest _ (wellFormed_least (by decide : 1 < mantissaBound) negative)
      rw [hzero, sub_zero] at hnearest
      simpa only [value, magnitude, Nat.cast_one, one_mul] using hnearest
    rcases le_or_gt 0 v with hpos | hneg
    · have hright : |v| ≤ |v - 2 ^ leastExponent| := hsmallest false
      rw [abs_of_nonneg hpos] at hright ⊢
      rcases abs_cases (v - 2 ^ leastExponent) with ⟨habs, -⟩ | ⟨habs, -⟩ <;> linarith
    · have hleft : |v| ≤ |v - -2 ^ leastExponent| := hsmallest true
      rw [abs_of_neg hneg] at hleft ⊢
      rcases abs_cases (v - -2 ^ leastExponent) with ⟨habs, -⟩ | ⟨habs, -⟩ <;> linarith
  · intro hsmall
    rw [hx.unique (isNearest_zero false hsmall), value_zero]

/-- A mantissa that is too short is made longer until it is not, or the exponent is the least one. -/
theorem exists_wellFormed {m : ℕ} {e : ℤ} (hm : m < mantissaBound) (hleast : leastExponent ≤ e)
    (hgreatest : e ≤ greatestExponent) (negative : Bool) :
    ∃ y : Binary64, y.WellFormed ∧ y.value = signed negative (m * 2 ^ e) := by
  obtain ⟨k, hk⟩ := Int.le.dest hleast
  induction k generalizing m e with
  | zero => exact ⟨⟨negative, m, e⟩, ⟨hm, .inr (by simpa using hk.symm), hleast, hgreatest⟩, rfl⟩
  | succ k ih =>
    by_cases hnormal : mantissaBound ≤ 2 * m
    · exact ⟨⟨negative, m, e⟩, ⟨hm, .inl hnormal, hleast, hgreatest⟩, rfl⟩
    · have hdouble : ((2 * m : ℕ) : ℚ) * 2 ^ (e - 1) = m * 2 ^ e := by
        rw [zpow_sub_one₀ two_ne_zero]
        push_cast
        ring
      rw [← hdouble]
      exact ih (not_le.1 hnormal) (by omega) (by omega) (by omega)

/-- Integers up to `2 ^ 53` are numbers. -/
theorem exists_wellFormed_int {z : ℤ} (hz : z.natAbs ≤ mantissaBound) :
    ∃ y : Binary64, y.WellFormed ∧ y.value = z := by
  rw [← signed_natAbs z]
  rcases hz.lt_or_eq with hlt | heq
  · simpa using exists_wellFormed hlt (by decide : leastExponent ≤ 0) (by decide) (decide (z < 0))
  · have hcarry := carried_value mantissaBound 0
    rw [carried, if_pos rfl, zpow_zero, mul_one] at hcarry
    rw [heq, ← hcarry]
    exact exists_wellFormed (by decide) (by decide) (by decide) _

/-- The number `± (2 ^ 52 + k) · 2 ^ 11`, which is `2 ^ 63` or one of the numbers after it. -/
def aboveWord (negative : Bool) (k : ℕ) : Binary64 :=
  ⟨negative, mantissaBound / 2 + k, 11⟩

theorem wellFormed_aboveWord {k : ℕ} (hk : k < mantissaBound / 2) (negative : Bool) :
    (aboveWord negative k).WellFormed := by
  have hhalf : mantissaBound / 2 + mantissaBound / 2 = mantissaBound := by decide
  have hleast : leastExponent ≤ 11 := by decide
  have hgreatest : 11 ≤ greatestExponent := by decide
  refine ⟨?_, .inl ?_, hleast, hgreatest⟩ <;> simp only [aboveWord] <;> omega

theorem magnitude_aboveWord (negative : Bool) (k : ℕ) :
    (aboveWord negative k).magnitude = 2 ^ 63 + k * 2 ^ 11 := by
  have hhalf : mantissaBound / 2 = 2 ^ 52 := by decide
  simp only [aboveWord, magnitude, hhalf]
  push_cast
  ring

theorem value_minusWord : (aboveWord true 0).value = -2 ^ 63 := by
  rw [value, magnitude_aboveWord, Nat.cast_zero, zero_mul, add_zero]
  rfl

/-- Values down to the middle below `-2 ^ 63` have it as the nearest, since its mantissa is even. -/
theorem isNearest_minusWord (hlow : -2 ^ 63 - 2 ^ 10 ≤ v) (hhigh : v ≤ -2 ^ 63) :
    (aboveWord true 0).IsNearest v := by
  have hform := wellFormed_aboveWord (by decide : 0 < mantissaBound / 2) true
  have hsize : (aboveWord true 0).magnitude = 2 ^ 63 := by
    rw [magnitude_aboveWord, Nat.cast_zero, zero_mul, add_zero]
  refine ⟨hform, fun y hy => ?_, fun _ _ _ _ => by decide⟩
  rw [value_minusWord, abs_of_nonpos (by linarith)]
  rcases le_or_gt (-2 ^ 63) y.value with habove | hbelow
  · rw [abs_of_nonpos (by linarith)]
    linarith
  · have hlarger : (aboveWord true 0).magnitude < y.magnitude := by
      rw [hsize, ← abs_value, abs_of_nonpos (by linarith)]
      linarith
    have hstep := hform.step_le hy hlarger
    have hgap : (((aboveWord true 0).mantissa + 1 : ℕ) : ℚ) * 2 ^ (aboveWord true 0).exponent =
        2 ^ 63 + 2 ^ 11 := by
      have hsecond := magnitude_aboveWord true 1
      rw [Nat.cast_one, one_mul] at hsecond
      exact hsecond
    rw [hgap, ← abs_value, abs_of_nonpos (by linarith)] at hstep
    rw [abs_of_nonneg (by linarith)]
    linarith

/-- Values below that middle have a nearest number below `-2 ^ 63`. -/
theorem IsNearest.value_lt_minusWord (hx : x.IsNearest v) (hlow : v < -2 ^ 63 - 2 ^ 10) :
    x.value < -2 ^ 63 := by
  by_contra hlarge
  have hnearest := hx.nearest _ (wellFormed_aboveWord (by decide : 1 < mantissaBound / 2) true)
  have hvalue : (aboveWord true 1).value = -(2 ^ 63 + 2 ^ 11) := by
    rw [value, magnitude_aboveWord, Nat.cast_one, one_mul]
    rfl
  rw [hvalue, abs_of_nonpos (by linarith)] at hnearest
  rcases abs_cases (v - -(2 ^ 63 + 2 ^ 11)) with ⟨habs, -⟩ | ⟨habs, -⟩ <;> linarith

/-- Values from `2 ^ 63` on have a nearest number from there on. -/
theorem IsNearest.le_value_of_word_le (hx : x.IsNearest v) (hhigh : 2 ^ 63 ≤ v) : 2 ^ 63 ≤ x.value := by
  have hvalue : (aboveWord false 0).value = 2 ^ 63 := by
    rw [value, magnitude_aboveWord]
    norm_num [signed, aboveWord]
  have hle := hx.le_of_le (wellFormed_aboveWord (by decide : 0 < mantissaBound / 2) false)
  rw [hvalue] at hle
  exact hle hhigh

end ContractBlocks.Binary64
