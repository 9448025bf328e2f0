import ContractBlocks.Proofs.Decimal.Nearest
import ContractBlocks.Proofs.Json.Numeral
import ContractBlocks.Text.Blank

namespace ContractBlocks

namespace Text

/-- A text with white space around it, which may be nothing. -/
def Padded (core text : List Char) : Prop :=
  ∃ before after, (∀ c ∈ before, isBlank c) ∧ (∀ c ∈ after, isBlank c) ∧ text = before ++ (core ++ after)

theorem Padded.refl (core : List Char) : Padded core core :=
  ⟨[], [], nofun, nofun, by simp⟩

theorem dropWhile_isBlank_append {blanks rest : List Char} (hblanks : ∀ c ∈ blanks, isBlank c)
    (hrest : ∀ c ∈ rest.head?, isBlank c = false) : (blanks ++ rest).dropWhile isBlank = rest := by
  rw [List.dropWhile_append_of_pos hblanks]
  cases rest with
  | nil => rfl
  | cons c cs => rw [List.dropWhile_cons, hrest c rfl]; rfl

/-- Trimming takes away the white space around a text that has none at its ends. -/
theorem trim_of_padded {core text : List Char} (hpadded : Padded core text) (hcore : core ≠ [])
    (hsolid : ∀ c ∈ core, isBlank c = false) : trim text = core := by
  obtain ⟨before, after, hbefore, hafter, rfl⟩ := hpadded
  have hhead : ∀ c ∈ (core ++ after).head?, isBlank c = false := by
    intro c hc
    rw [List.head?_append_of_ne_nil _ hcore] at hc
    exact hsolid c (List.mem_of_head? hc)
  have hlast : ∀ c ∈ core.reverse.head?, isBlank c = false := by
    intro c hc
    exact hsolid c (List.mem_reverse.1 (List.mem_of_head? hc))
  rw [trim, dropWhile_isBlank_append hbefore hhead, List.reverse_append,
    dropWhile_isBlank_append (fun c hc => hafter c (List.mem_reverse.1 hc)) hlast, List.reverse_reverse]

theorem isBlank_eq_false_of_isDigit {c : Char} (hdigit : c.isDigit) : isBlank c = false := by
  have hrange : 48 ≤ c.toNat ∧ c.toNat ≤ 57 := by
    simpa [Char.isDigit, UInt32.le_iff_toNat_le] using hdigit
  simp only [isBlank, blankRanges, List.any_cons, List.any_nil, Bool.or_false, Bool.or_eq_false_iff,
    Bool.and_eq_false_iff, decide_eq_false_iff_not]
  omega

end Text

namespace Decimal

open Json

/-- A point with any digits after it, or nothing. -/
inductive PlacesText : Option (List Char) → List Char → Prop
  | absent : PlacesText none []
  | present {ds : List Char} (hdigits : ∀ d ∈ ds, d.isDigit) : PlacesText (some ds) ('.' :: ds)

/-- The text of a decimal number: a sign or none, digits with at most one point among them and at
    least one digit in all, and an exponent or none. It may start with zeros, and the point may stand
    before or after all digits. -/
inductive DecimalText : Numeral → List Char → Prop
  | mk {negative : Bool} {sign whole point power : List Char} {places : Option (List Char)}
      {exponent : Option Int} (hsign : SignText negative sign) (hwhole : ∀ d ∈ whole, d.isDigit)
      (hplaces : PlacesText places point) (hsome : whole ++ places.getD [] ≠ [])
      (hexponent : ExponentText exponent power) :
    DecimalText
      ⟨⟨negative, digitsValue (whole ++ places.getD []), exponent.getD 0 - (places.getD []).length⟩,
        places.isNone && exponent.isNone⟩
      (sign ++ (whole ++ (point ++ power)))

/-- A number of a JSON text is a decimal number. -/
theorem decimalText_of_numeralText {m : Numeral} {text : List Char} (h : NumeralText m text) :
    DecimalText m text := by
  have hplaces {places : Option (List Char)} {point : List Char} (h : FractionText places point) :
      PlacesText places point := by
    cases h with
    | absent => exact .absent
    | present hdigits => exact .present hdigits.2
  have hunsigned {negative : Bool} {sign text : List Char} (hsign : SignText negative sign)
      (h : UnsignedText negative m text) : DecimalText m (sign ++ text) := by
    obtain ⟨hwhole, hfraction, hexponent⟩ := h
    exact .mk hsign hwhole.1.2 (hplaces hfraction) (List.append_ne_nil_of_left_ne_nil hwhole.1.1 _) hexponent
  cases h with
  | positive htext => exact hunsigned .absent htext
  | negative htext => exact hunsigned .minus htext

theorem splitSign_append {negative : Bool} {sign rest : List Char} (hsign : SignText negative sign)
    (hrest : ∀ c ∈ rest.head?, c ≠ '-' ∧ c ≠ '+') : splitSign (sign ++ rest) = (negative, rest) := by
  cases hsign with
  | absent =>
    rw [List.nil_append]
    unfold splitSign
    split
    · exact absurd rfl (hrest '-' rfl).1
    · exact absurd rfl (hrest '+' rfl).2
    · rfl
  | plus => rfl
  | minus => rfl

theorem ne_sign_of_isDigit {c : Char} (hdigit : c.isDigit) : c ≠ '-' ∧ c ≠ '+' := by
  constructor <;> rintro rfl <;> exact absurd hdigit (by decide)

theorem integer?_of_signText {negative : Bool} {sign ds : List Char} (hsign : SignText negative sign)
    (hdigits : IsDigits ds) :
    integer? (sign ++ ds) = some (if negative then -(digitsValue ds : Int) else digitsValue ds) := by
  have hhead : ∀ c ∈ ds.head?, c ≠ '-' ∧ c ≠ '+' := fun c hc =>
    ne_sign_of_isDigit (hdigits.2 c (List.mem_of_head? hc))
  have hall : ds.all Char.isDigit := List.all_eq_true.2 hdigits.2
  rw [integer?, splitSign_append hsign hhead]
  simp only [ne_eq, hdigits.1, not_false_eq_true, hall, and_self, if_true, ofDigits_eq_digitsValue]

theorem exponentPart?_of_exponentText {exponent : Option Int} {power : List Char}
    (h : ExponentText exponent power) : exponentPart? power = some (exponent.getD 0) := by
  cases h with
  | absent => rfl
  | present hmark hsign hdigits =>
    rw [exponentPart?, if_pos hmark, integer?_of_signText hsign hdigits]
    rfl

theorem head_power {exponent : Option Int} {power : List Char} (h : ExponentText exponent power) :
    ∀ c ∈ power.head?, c.isDigit = false ∧ c ≠ '.' ∧ c ≠ '-' ∧ c ≠ '+' := by
  intro c hc
  cases h with
  | absent => cases hc
  | present hmark _ _ =>
    cases hc
    rcases hmark with rfl | rfl <;> decide

theorem fractionPart_append {places : Option (List Char)} {point rest : List Char}
    (h : PlacesText places point) (hrest : ∀ c ∈ rest.head?, c.isDigit = false ∧ c ≠ '.') :
    fractionPart (point ++ rest) = (places.getD [], rest) := by
  cases h with
  | absent =>
    rw [List.nil_append]
    unfold fractionPart
    split
    · exact absurd rfl (hrest '.' rfl).2
    · rfl
  | present hdigits =>
    rw [List.cons_append, fractionPart]
    exact Token.spanDigits_append hdigits fun c hc => (hrest c hc).1

theorem head_unsigned {whole point : List Char} {places : Option (List Char)}
    (hwhole : ∀ d ∈ whole, d.isDigit) (hplaces : PlacesText places point)
    (hsome : whole ++ places.getD [] ≠ []) (power : List Char) :
    ∀ c ∈ (whole ++ (point ++ power)).head?, c ≠ '-' ∧ c ≠ '+' := by
  intro c hc
  cases whole with
  | cons d ds =>
    cases hc
    exact ne_sign_of_isDigit (hwhole c List.mem_cons_self)
  | nil =>
    cases hplaces with
    | absent => exact absurd rfl hsome
    | present _ =>
      cases hc
      decide

theorem head_point {places : Option (List Char)} {exponent : Option Int} {point power : List Char}
    (hplaces : PlacesText places point) (hexponent : ExponentText exponent power) :
    ∀ c ∈ (point ++ power).head?, c.isDigit = false := by
  intro c hc
  cases hplaces with
  | absent => exact (head_power hexponent c hc).1
  | present _ =>
    cases hc
    rfl

/-- A decimal number is read off its text. -/
theorem ofText?_of_decimalText {m : Numeral} {cs : List Char} (h : DecimalText m cs) :
    ofText? cs = some m.value := by
  obtain ⟨hsign, hwhole, hplaces, hsome, hexponent⟩ := h
  have hpower := head_power hexponent
  unfold ofText?
  rw [splitSign_append hsign (head_unsigned hwhole hplaces hsome _)]
  simp only [Token.spanDigits_append hwhole (head_point hplaces hexponent),
    fractionPart_append hplaces fun c hc => ⟨(hpower c hc).1, (hpower c hc).2.1⟩,
    exponentPart?_of_exponentText hexponent, if_neg hsome, Option.map_some, ofDigits_eq_digitsValue]

theorem exists_signText_of_integer? {cs : List Char} {z : Int} (h : integer? cs = some z) :
    ∃ negative sign ds, SignText negative sign ∧ IsDigits ds ∧ cs = sign ++ ds ∧
      z = if negative then -(digitsValue ds : Int) else digitsValue ds := by
  unfold integer? at h
  generalize hsplit : splitSign cs = found at h
  obtain ⟨negative, ds⟩ := found
  obtain ⟨sign, hsign, rfl⟩ := Token.signText_of_splitSign hsplit
  dsimp only at h
  rw [ofDigits_eq_digitsValue] at h
  split at h
  · next hdigits =>
    exact ⟨negative, sign, ds, hsign, ⟨hdigits.1, List.all_eq_true.1 hdigits.2⟩, rfl, (Option.some.inj h).symm⟩
  · cases h

theorem exists_exponentText_of_exponentPart? {power : List Char} {e : Int} (h : exponentPart? power = some e) :
    ∃ exponent, ExponentText exponent power ∧ exponent.getD 0 = e := by
  unfold exponentPart? at h
  split at h
  · exact ⟨none, .absent, Option.some.inj h⟩
  · split at h
    · next hmark =>
      obtain ⟨negative, sign, ds, hsign, hdigits, rfl, rfl⟩ := exists_signText_of_integer? h
      exact ⟨_, .present hmark hsign hdigits, rfl⟩
    · cases h

theorem exists_placesText (cs : List Char) :
    ∃ places point, PlacesText places point ∧ cs = point ++ (fractionPart cs).2 ∧
      (fractionPart cs).1 = places.getD [] := by
  unfold fractionPart
  split
  · next cs =>
    refine ⟨some _, _, .present (List.all_eq_true.1 List.all_takeWhile), ?_, rfl⟩
    rw [List.cons_append]
    exact congrArg _ List.takeWhile_append_dropWhile.symm
  · exact ⟨none, [], .absent, rfl, rfl⟩

/-- Only the texts of decimal numbers are read as such. -/
theorem exists_decimalText_of_ofText? {cs : List Char} {x : Decimal} (h : ofText? cs = some x) :
    ∃ m, DecimalText m cs ∧ m.value = x := by
  unfold ofText? at h
  generalize hsplit : splitSign cs = found at h
  obtain ⟨negative, rest⟩ := found
  obtain ⟨sign, hsign, rfl⟩ := Token.signText_of_splitSign hsplit
  have hwhole : ∀ d ∈ rest.takeWhile Char.isDigit, d.isDigit := List.all_eq_true.1 List.all_takeWhile
  obtain ⟨places, point, hplaces, hpoint, hfraction⟩ := exists_placesText (rest.dropWhile Char.isDigit)
  simp only [spanDigits, hfraction] at h
  split at h
  · cases h
  · next hsome =>
    obtain ⟨e, hpart, rfl⟩ := Option.map_eq_some_iff.1 h
    obtain ⟨exponent, hexponent, rfl⟩ := exists_exponentText_of_exponentPart? hpart
    have htext := DecimalText.mk hsign hwhole hplaces hsome hexponent
    rw [← hpoint, List.takeWhile_append_dropWhile] at htext
    rw [ofDigits_eq_digitsValue]
    exact ⟨_, htext, rfl⟩

theorem integer?_eq_none {negative : Bool} {sign rest : List Char} {c : Char} (hsign : SignText negative sign)
    (hhead : ∀ c ∈ rest.head?, c ≠ '-' ∧ c ≠ '+') (hmem : c ∈ rest) (hc : c.isDigit = false) :
    integer? (sign ++ rest) = none := by
  rw [integer?, splitSign_append hsign hhead]
  refine if_neg fun hall => ?_
  have hdigit := List.all_eq_true.1 hall.2 c hmem
  rw [hc] at hdigit
  cases hdigit

/-- A text is read as an integer exactly if it has neither a point nor an exponent. -/
theorem integer?_of_decimalText {m : Numeral} {cs : List Char} (h : DecimalText m cs) :
    integer? cs = if m.plain then some m.value.signedDigits else none := by
  obtain ⟨hsign, hwhole, hplaces, hsome, hexponent⟩ := h
  have hhead := head_unsigned hwhole hplaces hsome
  cases hplaces with
  | absent =>
    cases hexponent with
    | absent =>
      rw [Option.getD_none, List.append_nil] at hsome
      simpa [signedDigits] using integer?_of_signText hsign ⟨hsome, hwhole⟩
    | present hmark _ _ =>
      refine (integer?_eq_none hsign (hhead _) (List.mem_append_right _ List.mem_cons_self) ?_).trans (by simp)
      rcases hmark with rfl | rfl <;> rfl
  | present _ =>
    exact (integer?_eq_none hsign (hhead _) (List.mem_append_right _ List.mem_cons_self) rfl).trans (by simp)

theorem DecimalText.value_eq_of_plain {m : Numeral} {cs : List Char} (h : DecimalText m cs) (hplain : m.plain) :
    m.value.value = m.value.signedDigits := by
  obtain ⟨-, -, hplaces, -, hexponent⟩ := h
  cases hplaces <;> cases hexponent <;> simp at hplain
  exact value_eq_signedDigits rfl

theorem DecimalText.ne_nil {m : Numeral} {cs : List Char} (h : DecimalText m cs) : cs ≠ [] := by
  obtain ⟨-, -, hplaces, hsome, -⟩ := h
  cases hplaces <;> simp_all

theorem DecimalText.isBlank_eq_false {m : Numeral} {cs : List Char} (h : DecimalText m cs) :
    ∀ c ∈ cs, Text.isBlank c = false := by
  obtain ⟨hsign, hwhole, hplaces, -, hexponent⟩ := h
  have hsigned {negative : Bool} {sign : List Char} (h : SignText negative sign) :
      ∀ c ∈ sign, Text.isBlank c = false := by
    cases h <;> simp <;> decide
  intro c hc
  simp only [List.mem_append] at hc
  rcases hc with hc | hc | hc | hc
  · exact hsigned hsign c hc
  · exact Text.isBlank_eq_false_of_isDigit (hwhole c hc)
  · cases hplaces with
    | absent => cases hc
    | present hdigits =>
      rcases List.mem_cons.1 hc with rfl | hc
      · decide
      · exact Text.isBlank_eq_false_of_isDigit (hdigits c hc)
  · cases hexponent with
    | absent => cases hc
    | present hmark hsign hdigits =>
      rcases List.mem_cons.1 hc with rfl | hc
      · rcases hmark with rfl | rfl <;> decide
      · rcases List.mem_append.1 hc with hc | hc
        · exact hsigned hsign c hc
        · exact Text.isBlank_eq_false_of_isDigit (hdigits.2 c hc)

theorem DecimalText.trim_eq {m : Numeral} {cs text : List Char} (h : DecimalText m cs)
    (hpadded : Text.Padded cs text) : Text.trim text = cs :=
  Text.trim_of_padded hpadded h.ne_nil h.isBlank_eq_false

end Decimal

end ContractBlocks
