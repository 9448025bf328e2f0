import ContractBlocks.Compile.Part
import ContractBlocks.Proofs.Compile.Finds
import ContractBlocks.Proofs.Field.Integer
import ContractBlocks.Proofs.Json.Written

namespace ContractBlocks

namespace Decimal

open Json

theorem digitsValue_replicate_zero (zeros : ℕ) (ds : List Char) :
    digitsValue (List.replicate zeros '0' ++ ds) = digitsValue ds := by
  rw [← ofDigits_eq_digitsValue, ← ofDigits_eq_digitsValue]
  induction zeros with
  | zero => rfl
  | succ zeros ih => exact ih

/-- Zeros before the digits of a number do not change it. -/
theorem decimalText_of_spell {negative : Bool} {sign : List Char} (hsign : SignText negative sign) (zeros n : ℕ) :
    DecimalText ⟨⟨negative, n, 0⟩, true⟩ (sign ++ (List.replicate zeros '0' ++ spell n)) := by
  obtain ⟨ds, hspell, hwhole, hds⟩ := exists_spellOnto_eq n []
  rw [List.append_nil] at hspell
  have hdigits : ∀ d ∈ List.replicate zeros '0' ++ ds, d.isDigit := by
    intro d hd
    rcases List.mem_append.1 hd with hd | hd
    · rw [List.eq_of_mem_replicate hd]
      rfl
    · exact hwhole.1.2 d hd
  have hsome : List.replicate zeros '0' ++ ds ++ (none : Option (List Char)).getD [] ≠ [] := by
    simpa using fun _ => hwhole.1.1
  have htext := DecimalText.mk hsign hdigits .absent hsome .absent
  simpa [spell, hspell, digitsValue_replicate_zero, hds] using htext

end Decimal

namespace FieldValue

open Binary64 Decimal Json

/-- Integers of 64 bits are read as they are, with any zeros before their digits and any white space
    around them, and nothing from `2 ^ 63` on is read as an integer. -/
theorem asInteger?_of_word_or_above :
    (∀ z : ℤ, -2 ^ 63 ≤ z → z < 2 ^ 63 →
      (∀ (s : String) (negative : Bool) (sign : List Char) (zeros : ℕ), SignText negative sign →
        z = (if negative then -(z.natAbs : ℤ) else z.natAbs) →
        Text.Padded (sign ++ (List.replicate zeros '0' ++ Decimal.spell z.natAbs)) s.toList →
        (FieldValue.text s).asInteger?.map Int64.toInt = some z) ∧
      ∀ number : Json.Number, number.value = z →
        (FieldValue.number number).asInteger?.map Int64.toInt = some z) ∧
    (∀ value m, WrittenAs value m → 2 ^ 63 ≤ m.value.value → value.asInteger? = none) ∧
    ∀ number : Json.Number, 2 ^ 63 ≤ number.value → (FieldValue.number number).asInteger? = none := by
  refine ⟨fun z hlow hhigh => ?_, fun value m hwritten hlarge => ?_, fun number hlarge => ?_⟩
  · have hword : (Int64.ofInt z).toInt = z := Int64.toInt_ofInt_of_le hlow hhigh
    have hsome {value : FieldValue} (h : value.asInteger? = some (.ofInt z)) :
        value.asInteger?.map Int64.toInt = some z := by
      rw [h, Option.map_some, hword]
    refine ⟨fun s negative sign zeros hsign hz hpadded => hsome ?_, fun number hvalue => hsome ?_⟩
    · have hspelled := decimalText_of_spell hsign zeros z.natAbs
      rw [asInteger?, hspelled.trim_eq hpadded, textInteger?_eq_some_iff hspelled, ReadsAs]
      have hvalue := hspelled.value_eq_of_plain rfl
      rw [Decimal.signedDigits, ← hz] at hvalue
      have hin : InRange z := hword ▸ inRange_toInt (.ofInt z)
      rw [hvalue, if_pos ⟨rfl, hin⟩, hword]
    · rw [asInteger?, numberInteger?_eq_some_iff, hvalue, hword]
  · refine Option.eq_none_iff_forall_ne_some.2 fun n hn => ?_
    have hreads := (hwritten.asInteger?_eq_some_iff n).1 hn
    rw [ReadsAs, if_neg fun hin => absurd hin.2.2 (not_lt.2 hlarge)] at hreads
    exact absurd hreads.lt (not_lt.2 hlarge)
  · refine Option.eq_none_iff_forall_ne_some.2 fun n hn => ?_
    rw [asInteger?, numberInteger?_eq_some_iff] at hn
    exact absurd (hn ▸ toInt_cast_lt n) (not_lt.2 hlarge)

theorem asInteger?_of_word_or_above_at_the_limit :
    (FieldValue.text "\u00a0+0009223372036854775807 \n").asInteger?.map Int64.toInt = some 9223372036854775807 ∧
      (FieldValue.text "9223372036854775808").asInteger? = none ∧
      (FieldValue.number (.whole 9223372036854775808 (by decide))).asInteger? = none := by
  have htheorem := asInteger?_of_word_or_above
  refine ⟨?_, ?_, ?_⟩
  · refine (htheorem.1 9223372036854775807 (by decide) (by decide)).1 _ false ['+'] 3 .plus rfl ?_
    exact ⟨['\u00a0'], [' ', '\n'], List.all_eq_true.1 (by decide), List.all_eq_true.1 (by decide), by decide +kernel⟩
  · have hspelled := decimalText_of_spell .absent 0 9223372036854775808
    have htext : "9223372036854775808".toList = spell 9223372036854775808 := by decide +kernel
    refine htheorem.2.1 _ _ (.text hspelled (htext ▸ .refl _)) ?_
    rw [hspelled.value_eq_of_plain rfl]
    decide +kernel
  · exact htheorem.2.2 _ (by simp only [Json.Number.value]; norm_num)

theorem natAbs_le_mantissaBound {z : ℤ} (hz : |z| ≤ 2 ^ 53) : z.natAbs ≤ mantissaBound := by
  have hbound : ((mantissaBound : ℕ) : ℤ) = 2 ^ 53 := by decide
  rw [Int.abs_eq_natAbs] at hz
  omega

theorem nearestIs_zero_iff {v : ℚ} : NearestIs v 0 ↔ |v| ≤ 2 ^ (-1075 : ℤ) := by
  rw [← half_least_eq]
  constructor
  · rintro ⟨x, hx, hvalue⟩
    exact hx.value_eq_zero_iff.1 (by simpa using hvalue)
  · intro hsmall
    exact ⟨zero false, isNearest_zero false hsmall, by simp⟩

theorem abs_intCast_le_iff {z : ℤ} : |(z : ℚ)| ≤ 2 ^ (-1075 : ℤ) ↔ z = 0 := by
  have hless : (2 : ℚ) ^ (-1075 : ℤ) < 1 := zpow_lt_one_of_neg₀ one_lt_two (by norm_num)
  refine ⟨fun hsmall => Int.abs_lt_one_iff.1 ?_, ?_⟩
  · exact_mod_cast hsmall.trans_lt hless
  · rintro rfl
    rw [Int.cast_zero, abs_zero]
    positivity

/-- A text in range is read as the number that it spells only if it is plain. With a point or an
    exponent it is read as the nearest floating-point number: the integers up to `2 ^ 53` are read
    exactly, and as zero everything up to `2 ^ -1075`. -/
theorem asInteger?_of_inRange {s : String} {core : List Char} {m : Numeral} (hspelled : DecimalText m core)
    (hpadded : Text.Padded core s.toList) (hrange : InRange m.value.value) :
    (∀ n : Int64, (FieldValue.text s).asInteger? = some n ↔
      if m.plain then m.value.value = n.toInt
      else ∃ x : Binary64, x.IsNearest m.value.value ∧ x.value = n.toInt) ∧
    (∀ z : ℤ, |z| ≤ 2 ^ 53 → m.value.value = z →
      (FieldValue.text s).asInteger?.map Int64.toInt = some z) ∧
    ((FieldValue.text s).asInteger? = some 0 ↔ |m.value.value| ≤ 2 ^ (-1075 : ℤ)) := by
  have hreads (n : Int64) : (FieldValue.text s).asInteger? = some n ↔
      if m.plain then m.value.value = n.toInt else NearestIs m.value.value n := by
    simpa [ReadsAs, hrange] using (WrittenAs.text hspelled hpadded).asInteger?_eq_some_iff n
  refine ⟨hreads, fun z hz hvalue => ?_, ?_⟩
  · have hword : (Int64.ofInt z).toInt = z := by
      obtain ⟨hlow, hhigh⟩ := abs_le.1 hz
      exact Int64.toInt_ofInt_of_le (by omega) (by omega)
    obtain ⟨y, hy, hyvalue⟩ := exists_wellFormed_int (natAbs_le_mantissaBound hz)
    have hnearest : NearestIs z (.ofInt z) := by
      rw [← hyvalue, nearestIs_value_iff hy, hword, hyvalue]
    have hsome : (FieldValue.text s).asInteger? = some (.ofInt z) := by
      rw [hreads, hword, hvalue]
      split
      · rfl
      · exact hnearest
    rw [hsome, Option.map_some, hword]
  · rw [hreads, nearestIs_zero_iff]
    split
    · next hplain =>
      rw [hspelled.value_eq_of_plain hplain, abs_intCast_le_iff]
      exact Int.cast_inj
    · rfl

theorem exists_decimalText_tiny : ∃ m, DecimalText m "1e-400".toList ∧ m.value.value = 10 ^ (-400 : ℤ) := by
  have hread : ofText? "1e-400".toList = some ⟨false, 1, -400⟩ := by decide +kernel
  obtain ⟨m, hspelled, hm⟩ := exists_decimalText_of_ofText? hread
  exact ⟨m, hspelled, by simp [hm, Decimal.value, signed]⟩

theorem inRange_tiny : InRange (10 ^ (-400 : ℤ)) := by
  have hpos : (0 : ℚ) < 10 ^ (-400 : ℤ) := by positivity
  have hless : (10 : ℚ) ^ (-400 : ℤ) < 1 := zpow_lt_one_of_neg₀ (by norm_num) (by norm_num)
  constructor <;> linarith

/-- A value that is not zero is read as zero, and an integer that has a point as another one. -/
theorem asInteger?_of_inRange_rounded :
    (∃ m, DecimalText m "1e-400".toList ∧ m.value.value = 10 ^ (-400 : ℤ) ∧
        (FieldValue.text "1e-400").asInteger? = some 0) ∧
      ∃ m, DecimalText m "9007199254740993.0".toList ∧ m.value.value = 9007199254740993 ∧
        (FieldValue.text "9007199254740993.0").asInteger? = some 9007199254740992 := by
  constructor
  · obtain ⟨m, hspelled, hvalue⟩ := exists_decimalText_tiny
    have hsmall : |m.value.value| ≤ 2 ^ (-1075 : ℤ) := by
      rw [hvalue, abs_of_pos (by positivity), ← half_least_eq]
      exact (zpow_le_zpow_right₀ (by norm_num) (by norm_num)).trans ten_zpow_le_half_least
    have hread := asInteger?_of_inRange hspelled (.refl _) (hvalue ▸ inRange_tiny)
    exact ⟨m, hspelled, hvalue, hread.2.2.2 hsmall⟩
  · have hread : ofText? "9007199254740993.0".toList = some ⟨false, 90071992547409930, -1⟩ := by decide +kernel
    have hnearest : Binary64.nearest? ⟨false, 90071992547409930, -1⟩ = some ⟨false, 4503599627370496, 1⟩ := by
      decide +kernel
    obtain ⟨m, hspelled, hm⟩ := exists_decimalText_of_ofText? hread
    have hvalue : m.value.value = 9007199254740993 := by norm_num [hm, Decimal.value, signed]
    have hplain : m.plain = false := by
      have hinteger : integer? "9007199254740993.0".toList = none := by decide +kernel
      rw [integer?_of_decimalText hspelled] at hinteger
      simpa using hinteger
    have hrange : InRange m.value.value := by
      rw [hvalue]
      constructor <;> norm_num
    refine ⟨m, hspelled, hvalue, ((asInteger?_of_inRange hspelled (.refl _) hrange).1 _).2 ?_⟩
    rw [hplain, if_neg Bool.false_ne_true]
    rw [← hm] at hnearest
    refine ⟨_, isNearest_of_nearest? hnearest, ?_⟩
    have hword : (9007199254740992 : Int64).toInt = 9007199254740992 := by decide
    rw [hword]
    norm_num [Binary64.value, magnitude, signed]

/-- Being in range is not enough for a text to be read as exactly the integer that it spells. -/
theorem not_asInteger?_eq_some_iff_of_inRange :
    ¬∀ (s : String) (core : List Char) (m : Numeral), DecimalText m core → Text.Padded core s.toList →
      InRange m.value.value →
      ∀ n : Int64, (FieldValue.text s).asInteger? = some n ↔ m.value.value = n.toInt := by
  intro hexact
  obtain ⟨m, hspelled, hvalue⟩ := exists_decimalText_tiny
  have hread : (FieldValue.text "1e-400").asInteger? = some 0 := by decide +kernel
  have hzero := (hexact _ _ m hspelled (.refl _) (hvalue ▸ inRange_tiny) 0).1 hread
  rw [hvalue, Int64.toInt_zero, Int.cast_zero] at hzero
  have hpos : (0 : ℚ) < 10 ^ (-400 : ℤ) := by positivity
  exact hpos.ne' hzero

/-- Below the range of 64-bit integers a value is refused, in a compilation as a field that is not an
    integer, except down to the middle between `-2 ^ 63` and the next floating-point number: those
    values are read as `-2 ^ 63`. -/
theorem asInteger?_of_below {value : FieldValue} {m : Numeral} (hwritten : value.WrittenAs m)
    (hlow : m.value.value < -2 ^ 63) :
    (value.asInteger? = none ↔ m.value.value < -2 ^ 63 - 2 ^ 10) ∧
    (∀ n, value.asInteger? = some n → n = Int64.minValue) ∧
    ∀ (S : Source) (node : NodeId) (kind : Kind) (field : String) (path : List NodeId),
      S.field node field = some value →
      S.integerOf node kind field path =
        if m.value.value < -2 ^ 63 - 2 ^ 10 then (.error (.notInteger node kind field value.asText), path)
        else (.ok Int64.minValue, path) := by
  have hreads (n : Int64) : value.asInteger? = some n ↔ NearestIs m.value.value n := by
    have hout : ¬InRange m.value.value := fun hin => absurd hin.1 (not_le.2 hlow)
    simpa [ReadsAs, hout] using hwritten.asInteger?_eq_some_iff n
  have hinteger : value.asInteger? =
      if m.value.value < -2 ^ 63 - 2 ^ 10 then none else some Int64.minValue := by
    split
    · next hbelow =>
      refine Option.eq_none_iff_forall_ne_some.2 fun n hn => ?_
      exact absurd ((hreads n).1 hn).le (not_le.2 hbelow)
    · next habove =>
      refine (hreads _).2 ⟨_, isNearest_minusWord (not_lt.1 habove) hlow.le, ?_⟩
      rw [value_minusWord, Int64.toInt_minValue]
      norm_num
  refine ⟨?_, fun n hn => ?_, fun S node kind field path hfield => ?_⟩
  · rw [hinteger]
    split <;> simp_all
  · rw [hinteger] at hn
    split at hn
    · cases hn
    · exact (Option.some.inj hn).symm
  · simp only [Source.integerOf, Source.fieldOf, hfield, pure_bind, hinteger]
    split <;> rfl

theorem writtenAs_minus {s : String} {n : ℕ} (hs : s.toList = '-' :: Decimal.spell n) :
    WrittenAs (.text s) ⟨⟨true, n, 0⟩, true⟩ :=
  .text (decimalText_of_spell .minus 0 n) (hs ▸ .refl _)

theorem value_minus (n : ℕ) : Decimal.value ⟨true, n, 0⟩ = -n := by
  simp [Decimal.value, signed]

/-- The integer just below the range is read as another one; the first that is refused lies `2 ^ 10`
    further down. -/
theorem asInteger?_of_below_next_to_the_limit :
    (∃ m, WrittenAs (.text "-9223372036854775809") m ∧ m.value.value = -9223372036854775809 ∧
        (FieldValue.text "-9223372036854775809").asInteger? = some Int64.minValue) ∧
      ∃ m, WrittenAs (.text "-9223372036854776833") m ∧ m.value.value = -9223372036854776833 ∧
        (FieldValue.text "-9223372036854776833").asInteger? = none := by
  have hnear : WrittenAs (.text "-9223372036854775809") ⟨⟨true, 9223372036854775809, 0⟩, true⟩ :=
    writtenAs_minus (by decide +kernel)
  have hfar : WrittenAs (.text "-9223372036854776833") ⟨⟨true, 9223372036854776833, 0⟩, true⟩ :=
    writtenAs_minus (by decide +kernel)
  obtain ⟨hnone, hmin, -⟩ := asInteger?_of_below hnear (by rw [value_minus]; norm_num)
  refine ⟨⟨_, hnear, value_minus _, ?_⟩, _, hfar, value_minus _, ?_⟩
  · cases hread : (FieldValue.text "-9223372036854775809").asInteger? with
    | none =>
      have hbelow := hnone.1 hread
      rw [value_minus] at hbelow
      norm_num at hbelow
    | some n => rw [hmin n hread]
  · refine (asInteger?_of_below hfar (by rw [value_minus]; norm_num)).1.2 ?_
    rw [value_minus]
    norm_num

/-- Being below the range is not enough for a value to be refused. -/
theorem not_asInteger?_eq_none_of_below :
    ¬∀ (value : FieldValue) (m : Numeral), value.WrittenAs m → m.value.value < -2 ^ 63 →
      value.asInteger? = none := by
  intro hrefused
  have hwritten : WrittenAs (.text "-9223372036854775809") ⟨⟨true, 9223372036854775809, 0⟩, true⟩ :=
    writtenAs_minus (by decide +kernel)
  have hsome : (FieldValue.text "-9223372036854775809").asInteger? = some Int64.minValue := by decide +kernel
  have hnone := hrefused _ _ hwritten (by rw [value_minus]; norm_num)
  rw [hsome] at hnone
  cases hnone

end FieldValue

end ContractBlocks
