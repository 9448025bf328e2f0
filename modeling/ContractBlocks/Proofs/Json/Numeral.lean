import ContractBlocks.Proofs.Decimal.Neighbours
import ContractBlocks.Proofs.Json.Grammar
import ContractBlocks.Proofs.Outcome

namespace ContractBlocks

namespace Json

/-- What may stand after a number, so that the number ends there. -/
def EndsNumber (rest : List Char) : Prop :=
  ∀ c ∈ rest.head?, c.isDigit = false ∧ c ≠ '.' ∧ c ≠ 'e' ∧ c ≠ 'E'

theorem IsDigits.exists_cons {ds : List Char} (hdigits : IsDigits ds) :
    ∃ d tail, ds = d :: tail ∧ d.isDigit := by
  cases ds with
  | nil => exact absurd rfl hdigits.1
  | cons d tail => exact ⟨d, tail, rfl, hdigits.2 d List.mem_cons_self⟩

theorem digitsValue_concat (ds : List Char) (d : Char) :
    digitsValue (ds ++ [d]) = 10 * digitsValue ds + Decimal.digitValue d := by
  rw [digitsValue, List.reverse_append, List.reverse_singleton, List.singleton_append, List.map_cons,
    Nat.ofDigits_cons, Nat.add_comm]
  rfl

/-- Digits are read from the left, with ten times what was read before. -/
theorem ofDigits_eq_digitsValue (ds : List Char) : Decimal.ofDigits ds = digitsValue ds := by
  induction ds using List.reverseRecOn with
  | nil => rfl
  | append_singleton ds d ih =>
    rw [digitsValue_concat, ← ih]
    exact List.foldl_concat ..

namespace Token

theorem spanDigits_append {ds rest : List Char} (hdigits : ∀ d ∈ ds, d.isDigit)
    (hrest : ∀ c ∈ rest.head?, c.isDigit = false) : Decimal.spanDigits (ds ++ rest) = (ds, rest) := by
  have htake : rest.takeWhile Char.isDigit = [] := by
    cases rest with
    | nil => rfl
    | cons c cs => rw [List.takeWhile_cons, hrest c rfl]; rfl
  have hdrop : rest.dropWhile Char.isDigit = rest := by
    cases rest with
    | nil => rfl
    | cons c cs => rw [List.dropWhile_cons, hrest c rfl]; rfl
  rw [Decimal.spanDigits, List.takeWhile_append_of_pos hdigits, List.dropWhile_append_of_pos hdigits,
    htake, hdrop, List.append_nil]

theorem digits_append {ds rest : List Char} (hdigits : IsDigits ds)
    (hrest : ∀ c ∈ rest.head?, c.isDigit = false) : digits (ds ++ rest) = .ok (ds, rest) := by
  unfold digits
  rw [spanDigits_append hdigits.2 hrest]
  obtain ⟨d, tail, rfl, -⟩ := hdigits.exists_cons
  rfl

theorem isDigits_of_digits {cs ds rest : List Char} (h : digits cs = .ok (ds, rest)) :
    IsDigits ds ∧ cs = ds ++ rest := by
  unfold digits at h
  split at h
  · cases h
  · next found hfound hspan =>
    cases h
    simp only [Decimal.spanDigits, Prod.mk.injEq] at hspan
    obtain ⟨rfl, rfl⟩ := hspan
    exact ⟨⟨hfound, List.all_eq_true.1 List.all_takeWhile⟩, List.takeWhile_append_dropWhile.symm⟩

theorem wholePart_append {ds rest : List Char} (hwhole : IsWhole ds)
    (hrest : ∀ c ∈ rest.head?, c.isDigit = false) : wholePart (ds ++ rest) = .ok (ds, rest) := by
  unfold wholePart
  rw [digits_append hwhole.1 hrest]
  simp only [bind, Except.bind]
  split
  · next heq =>
    simp only [Prod.mk.injEq] at heq
    obtain ⟨rfl, -⟩ := heq
    cases hwhole.2 rfl
  · rfl

theorem isWhole_of_wholePart {cs ds rest : List Char} (h : wholePart cs = .ok (ds, rest)) :
    IsWhole ds ∧ cs = ds ++ rest := by
  obtain ⟨found, hdigits, hfound⟩ := Outcome.bind_eq_ok_iff.1 h
  split at hfound
  · cases hfound
  · next hzero =>
    cases hfound
    obtain ⟨hds, hcs⟩ := isDigits_of_digits hdigits
    refine ⟨⟨hds, fun hhead => ?_⟩, hcs⟩
    cases ds with
    | nil => cases hhead
    | cons d ds =>
      cases hhead
      cases ds with
      | nil => rfl
      | cons d ds => exact absurd rfl (hzero d ds rest)

theorem fractionPart_append {fraction : Option (List Char)} {text rest : List Char}
    (htext : FractionText fraction text) (hdigit : ∀ c ∈ rest.head?, c.isDigit = false)
    (hpoint : ∀ c ∈ rest.head?, c ≠ '.') : fractionPart (text ++ rest) = .ok (fraction, rest) := by
  cases htext with
  | absent =>
    unfold fractionPart
    split
    · next heq =>
      cases heq
      exact absurd rfl (hpoint '.' rfl)
    · rfl
  | present hdigits =>
    rw [List.cons_append, fractionPart, digits_append hdigits hdigit]
    rfl

theorem fractionText_of_fractionPart {fraction : Option (List Char)} {cs rest : List Char}
    (h : fractionPart cs = .ok (fraction, rest)) :
    ∃ text, FractionText fraction text ∧ cs = text ++ rest := by
  unfold fractionPart at h
  split at h
  · obtain ⟨⟨ds, after⟩, hdigits, hfound⟩ := Outcome.bind_eq_ok_iff.1 h
    cases hfound
    obtain ⟨hds, rfl⟩ := isDigits_of_digits hdigits
    exact ⟨_, .present hds, rfl⟩
  · cases h
    exact ⟨[], .absent, rfl⟩

theorem splitSign_append {negative : Bool} {sign ds rest : List Char} (hsign : SignText negative sign)
    (hdigits : IsDigits ds) : Decimal.splitSign (sign ++ (ds ++ rest)) = (negative, ds ++ rest) := by
  cases hsign with
  | absent =>
    obtain ⟨d, tail, rfl, hd⟩ := hdigits.exists_cons
    unfold Decimal.splitSign
    split
    · next heq =>
      cases heq
      exact absurd hd (by decide)
    · next heq =>
      cases heq
      exact absurd hd (by decide)
    · rfl
  | plus => rfl
  | minus => rfl

theorem signText_of_splitSign {negative : Bool} {cs rest : List Char}
    (h : Decimal.splitSign cs = (negative, rest)) : ∃ sign, SignText negative sign ∧ cs = sign ++ rest := by
  unfold Decimal.splitSign at h
  split at h <;> cases h
  · exact ⟨_, .minus, rfl⟩
  · exact ⟨_, .plus, rfl⟩
  · exact ⟨_, .absent, rfl⟩

theorem exponentPart_append {exponent : Option Int} {text rest : List Char}
    (htext : ExponentText exponent text) (hrest : EndsNumber rest) :
    exponentPart (text ++ rest) = .ok (exponent, rest) := by
  cases htext with
  | absent =>
    cases rest with
    | nil => rfl
    | cons c cs =>
      have hmark : ¬(c = 'e' ∨ c = 'E') := not_or.2 (hrest c rfl).2.2
      simp only [List.nil_append, exponentPart, hmark, if_false]
  | present hmark hsign hdigits =>
    rw [List.cons_append, List.append_assoc, exponentPart, if_pos hmark, splitSign_append hsign hdigits]
    simp only [digits_append hdigits fun c hc => (hrest c hc).1, ← ofDigits_eq_digitsValue]
    rfl

theorem exponentText_of_exponentPart {exponent : Option Int} {cs rest : List Char}
    (h : exponentPart cs = .ok (exponent, rest)) :
    ∃ text, ExponentText exponent text ∧ cs = text ++ rest := by
  unfold exponentPart at h
  split at h
  · cases h
    exact ⟨[], .absent, rfl⟩
  · next c cs =>
    split at h
    · next hmark =>
      generalize hsplit : Decimal.splitSign cs = found at h
      obtain ⟨negative, after⟩ := found
      obtain ⟨⟨ds, after⟩, hdigits, hfound⟩ := Outcome.bind_eq_ok_iff.1 h
      cases hfound
      obtain ⟨hds, rfl⟩ := isDigits_of_digits hdigits
      obtain ⟨sign, hsign, rfl⟩ := signText_of_splitSign hsplit
      rw [ofDigits_eq_digitsValue]
      refine ⟨_, .present hmark hsign hds, ?_⟩
      rw [List.cons_append, List.append_assoc]
    · cases h
      exact ⟨[], .absent, rfl⟩

theorem head_exponentText_append {exponent : Option Int} {text rest : List Char}
    (htext : ExponentText exponent text) (hrest : EndsNumber rest) :
    ∀ c ∈ (text ++ rest).head?, c.isDigit = false ∧ c ≠ '.' := by
  intro c hc
  cases htext with
  | absent => exact ⟨(hrest c hc).1, (hrest c hc).2.1⟩
  | present hmark _ _ =>
    cases hc
    rcases hmark with rfl | rfl <;> decide

theorem head_fractionText_append {fraction : Option (List Char)} {text rest : List Char}
    (htext : FractionText fraction text) (hrest : ∀ c ∈ rest.head?, c.isDigit = false) :
    ∀ c ∈ (text ++ rest).head?, c.isDigit = false := by
  intro c hc
  cases htext with
  | absent => exact hrest c hc
  | present _ =>
    cases hc
    rfl

theorem numeral?_append {negative : Bool} {m : Numeral} {text rest : List Char}
    (htext : UnsignedText negative m text) (hrest : EndsNumber rest) :
    numeral? negative (text ++ rest) = .ok (m, rest) := by
  obtain ⟨hwhole, hfraction, hexponent⟩ := htext
  have hpower := head_exponentText_append hexponent hrest
  have hpoint := head_fractionText_append hfraction fun c hc => (hpower c hc).1
  unfold numeral?
  rw [List.append_assoc, List.append_assoc, wholePart_append hwhole hpoint]
  simp only [bind, Except.bind, exponentPart_append hexponent hrest,
    fractionPart_append hfraction (fun c hc => (hpower c hc).1) fun c hc => (hpower c hc).2,
    ← ofDigits_eq_digitsValue]
  rfl

theorem unsignedText_of_numeral? {negative : Bool} {m : Numeral} {cs rest : List Char}
    (h : numeral? negative cs = .ok (m, rest)) :
    ∃ text, UnsignedText negative m text ∧ cs = text ++ rest := by
  obtain ⟨⟨whole, afterWhole⟩, hwhole, h⟩ := Outcome.bind_eq_ok_iff.1 h
  obtain ⟨⟨fraction, afterFraction⟩, hfraction, h⟩ := Outcome.bind_eq_ok_iff.1 h
  obtain ⟨⟨exponent, afterExponent⟩, hexponent, h⟩ := Outcome.bind_eq_ok_iff.1 h
  cases h
  obtain ⟨hdigits, rfl⟩ := isWhole_of_wholePart hwhole
  obtain ⟨point, hpoint, rfl⟩ := fractionText_of_fractionPart hfraction
  obtain ⟨power, hpower, rfl⟩ := exponentText_of_exponentPart hexponent
  rw [ofDigits_eq_digitsValue]
  refine ⟨_, .mk hdigits hpoint hpower, ?_⟩
  rw [List.append_assoc, List.append_assoc]

end Token

end Json

namespace Decimal

/-- The integer that the digits of a number are with its sign. -/
def signedDigits (x : Decimal) : Int :=
  if x.negative then -(x.digits : Int) else x.digits

theorem value_eq_signedDigits {x : Decimal} (hexponent : x.exponent = 0) : x.value = x.signedDigits := by
  simp only [value, signedDigits, signed, hexponent, zpow_zero, mul_one]
  split <;> simp

theorem signedDigits_eq_zero_iff {x : Decimal} : x.signedDigits = 0 ↔ x.digits = 0 := by
  unfold signedDigits
  split <;> omega

end Decimal

namespace Json

theorem NumeralText.exponent_eq_zero {m : Numeral} {text : List Char} (h : NumeralText m text)
    (hplain : m.plain) : m.value.exponent = 0 := by
  have hunsigned {negative : Bool} {text : List Char} (h : UnsignedText negative m text) :
      m.value.exponent = 0 := by
    obtain ⟨-, hfraction, hexponent⟩ := h
    cases hfraction <;> cases hexponent <;> simp at hplain
    rfl
  cases h with
  | positive htext => exact hunsigned htext
  | negative htext => exact hunsigned htext

/-- The text of a numeral is read to the number that it stands for, and to none if it stands for none. -/
theorem NumeralText.number?_eq_some_iff {m : Numeral} {text : List Char} {n : Number}
    (htext : NumeralText m text) : m.number? = some n ↔ m.StandsFor n := by
  have hvalue (hplain : m.plain) : m.value.value = m.value.signedDigits :=
    Decimal.value_eq_signedDigits (htext.exponent_eq_zero hplain)
  have hnumber : m.number? = if h : m.plain ∧ FitsWord m.value.signedDigits ∧
      ¬(m.value.negative ∧ m.value.digits = 0) then some (.whole m.value.signedDigits h.2.1)
      else (Binary64.nearest? m.value).map .float := rfl
  rw [hnumber]
  split
  · next hword =>
    obtain ⟨hplain, hfits, hzero⟩ := hword
    constructor
    · rintro ⟨⟩
      refine .whole hplain (hvalue hplain) (fun hnegative hnone => hzero ⟨hnegative, ?_⟩) hfits
      exact Decimal.signedDigits_eq_zero_iff.1 hnone
    · intro hstands
      cases hstands with
      | whole _ hz _ fits =>
        have hsame : (m.value.signedDigits : ℚ) = _ := (hvalue hplain).symm.trans hz
        obtain rfl := Int.cast_injective hsame
        rfl
      | float hother _ _ _ =>
        obtain ⟨hnegative, hnone⟩ := hother hplain _ (hvalue hplain) hfits
        exact absurd ⟨hnegative, Decimal.signedDigits_eq_zero_iff.1 hnone⟩ hzero
  · next hword =>
    have hother (hplain : m.plain) (z : ℤ) (hz : m.value.value = z) (hfits : FitsWord z) :
        m.value.negative ∧ z = 0 := by
      obtain rfl : m.value.signedDigits = z := Int.cast_injective ((hvalue hplain).symm.trans hz)
      by_contra hsome
      rw [Decimal.signedDigits_eq_zero_iff] at hsome
      exact hword ⟨hplain, hfits, hsome⟩
    rw [Option.map_eq_some_iff]
    constructor
    · rintro ⟨x, hx, rfl⟩
      obtain ⟨hnearest, hsign, hsize⟩ := Binary64.nearest?_eq_some_iff.1 hx
      exact .float hother hnearest hsign hsize
    · intro hstands
      cases hstands with
      | whole hplain hz hzero fits =>
        obtain ⟨hnegative, hnone⟩ := hother hplain _ hz fits
        exact absurd hnone (hzero hnegative)
      | float _ hnearest hsign hsize =>
        exact ⟨_, Binary64.nearest?_eq_some_iff.2 ⟨hnearest, hsign, hsize⟩, rfl⟩

end Json

end ContractBlocks
