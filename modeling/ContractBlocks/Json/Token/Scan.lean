import ContractBlocks.Json.Token

namespace ContractBlocks.Json.Token

theorem word_length_le (token : Token) (es cs : List Char) :
    (word token es cs).2.length ≤ cs.length := by
  induction es generalizing cs with
  | nil => simp [word]
  | cons e es ih =>
    cases cs with
    | nil => simp [word]
    | cons c cs =>
      rw [word]
      split
      · exact Nat.le_succ_of_le (ih cs)
      · simp

theorem literal_length_le (cs : List Char) : (literal cs).2.length ≤ cs.length := by
  have hscan := Literal.scan_length_le cs
  unfold literal
  split
  next found hfound =>
  rw [hfound] at hscan
  dsimp only
  split
  · exact hscan
  · simp
  · simp

theorem digits_length_lt {cs ds rest : List Char} (h : digits cs = .ok (ds, rest)) :
    rest.length < cs.length := by
  unfold digits at h
  split at h
  · cases h
  · next found hfound hspan =>
    cases h
    have hsplit : ds ++ rest = cs := by
      simp only [Decimal.spanDigits, Prod.mk.injEq] at hspan
      rw [← hspan.1, ← hspan.2, List.takeWhile_append_dropWhile]
    have hpos : 0 < ds.length := List.length_pos_iff.2 hfound
    rw [← hsplit, List.length_append]
    omega

theorem wholePart_length_lt {cs ds rest : List Char} (h : wholePart cs = .ok (ds, rest)) :
    rest.length < cs.length := by
  unfold wholePart at h
  cases hdigits : digits cs with
  | error stop => simp [hdigits, bind, Except.bind] at h
  | ok found =>
    simp only [hdigits, bind, Except.bind] at h
    split at h
    · cases h
    · cases h
      exact digits_length_lt hdigits

theorem fractionPart_length_le {cs rest : List Char} {ds : Option (List Char)}
    (h : fractionPart cs = .ok (ds, rest)) : rest.length ≤ cs.length := by
  unfold fractionPart at h
  split at h
  · next cs =>
    cases hdigits : digits cs with
    | error stop => simp [hdigits, bind, Except.bind] at h
    | ok found =>
      simp only [hdigits, bind, Except.bind, pure, Except.pure] at h
      cases h
      exact Nat.le_succ_of_le (Nat.le_of_lt (digits_length_lt hdigits))
  · cases h
    exact Nat.le_refl _

theorem splitSign_length_le (cs : List Char) : (Decimal.splitSign cs).2.length ≤ cs.length := by
  unfold Decimal.splitSign
  split <;> simp

theorem exponentPart_length_le {cs rest : List Char} {e : Option Int}
    (h : exponentPart cs = .ok (e, rest)) : rest.length ≤ cs.length := by
  unfold exponentPart at h
  split at h
  · cases h
    exact Nat.le_refl _
  · next c cs =>
    split at h
    · have hsign := splitSign_length_le cs
      cases hdigits : digits (Decimal.splitSign cs).2 with
      | error stop => simp [hdigits, bind, Except.bind] at h
      | ok found =>
        simp only [hdigits, bind, Except.bind, pure, Except.pure] at h
        cases h
        have hrest := digits_length_lt hdigits
        simp only [List.length_cons]
        omega
    · cases h
      exact Nat.le_refl _

theorem numeral?_length_lt {negative : Bool} {cs rest : List Char} {n : Numeral}
    (h : numeral? negative cs = .ok (n, rest)) : rest.length < cs.length := by
  unfold numeral? at h
  cases hwhole : wholePart cs with
  | error stop => simp [hwhole, bind, Except.bind] at h
  | ok whole =>
    cases hfraction : fractionPart whole.2 with
    | error stop => simp [hwhole, hfraction, bind, Except.bind] at h
    | ok fraction =>
      cases hexponent : exponentPart fraction.2 with
      | error stop => simp [hwhole, hfraction, hexponent, bind, Except.bind] at h
      | ok exponent =>
        simp only [hwhole, hfraction, hexponent, bind, Except.bind, pure, Except.pure] at h
        cases h
        have h₁ := wholePart_length_lt hwhole
        have h₂ := fractionPart_length_le hfraction
        have h₃ := exponentPart_length_le hexponent
        omega

theorem numeral_length_le (negative : Bool) (cs : List Char) :
    (numeral negative cs).2.length ≤ cs.length := by
  unfold numeral
  split
  · next hnumeral => exact Nat.le_of_lt (numeral?_length_lt hnumeral)
  · simp

theorem numeral_cons_length_le (c : Char) (cs : List Char) :
    (numeral false (c :: cs)).2.length ≤ cs.length := by
  unfold numeral
  split
  · next hnumeral => exact Nat.le_of_lt_succ (numeral?_length_lt hnumeral)
  · simp

/-- What follows a token is no longer than what followed its first character. -/
theorem next_length_le (c : Char) (cs : List Char) : (next c cs).2.length ≤ cs.length := by
  unfold next
  split <;> try simp only [Nat.le_refl]
  · exact word_length_le ..
  · exact word_length_le ..
  · exact word_length_le ..
  · exact literal_length_le cs
  · exact numeral_length_le true cs
  · split
    · exact numeral_cons_length_le ..
    · simp

/-- The tokens of a text, up to the first place where reading has to stop. -/
def scan (cs : List Char) : List Token :=
  match cs with
  | [] => []
  | c :: cs =>
    if isSpace c then scan cs
    else (next c cs).1 :: scan (next c cs).2
termination_by cs.length
decreasing_by
  · simp
  · exact Nat.lt_succ_of_le (next_length_le c cs)

end ContractBlocks.Json.Token
