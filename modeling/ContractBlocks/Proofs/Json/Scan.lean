import ContractBlocks.Proofs.Json.Literal
import ContractBlocks.Proofs.Json.Numeral

namespace ContractBlocks.Json

namespace Token

/-- What a token says of the text that it was read from. -/
def Stands : Token → List Char → List Char → Prop
  | .openList, cs, rest => cs = '[' :: rest
  | .closeList, cs, rest => cs = ']' :: rest
  | .openObject, cs, rest => cs = '\x7b' :: rest
  | .closeObject, cs, rest => cs = '\x7d' :: rest
  | .comma, cs, rest => cs = ',' :: rest
  | .colon, cs, rest => cs = ':' :: rest
  | .null, cs, rest => Spells (.value .null) cs rest
  | .bool b, cs, rest => Spells (.value (.bool b)) cs rest
  | .number m, cs, rest => ∃ text, NumeralText m text ∧ cs = text ++ rest
  | .string lit, cs, rest =>
    ∃ letters, cs = '\"' :: letters ∧ ∀ s, lit.text = .ok s → Letters s.toList letters rest
  | .stop _, _, _ => True

theorem word_stands {token : Token} {start es : List Char} (cs : List Char)
    (htoken : ∀ rest, token.Stands (start ++ (es ++ rest)) rest) :
    (word token es cs).1.Stands (start ++ cs) (word token es cs).2 := by
  induction es generalizing start cs with
  | nil => exact htoken cs
  | cons e es ih =>
    cases cs with
    | nil => trivial
    | cons c cs =>
      unfold word
      split
      · next heq =>
        subst heq
        have hrest := @ih (start ++ [e]) cs fun rest => by
          rw [List.append_assoc]
          exact htoken rest
        rw [List.append_assoc] at hrest
        exact hrest
      · trivial

theorem literal_stands (cs : List Char) : (literal cs).1.Stands ('\"' :: cs) (literal cs).2 := by
  generalize hfound : literal cs = found
  unfold literal at hfound
  split at hfound
  next pieces ending after hscan =>
  dsimp only at hfound
  split at hfound <;> subst hfound
  · refine ⟨cs, rfl, fun s hs => ?_⟩
    obtain ⟨letters, hletters, rfl⟩ := Outcome.map_eq_ok_iff.1 hs
    rw [String.toList_ofList]
    exact Literal.letters_of_piecesText (Literal.piecesText_of_scan hscan) hletters
  · trivial
  · trivial

theorem numeral_stands {negative : Bool} {start : List Char} (cs : List Char)
    (hsign : ∀ m text, UnsignedText negative m text → NumeralText m (start ++ text)) :
    (numeral negative cs).1.Stands (start ++ cs) (numeral negative cs).2 := by
  unfold numeral
  split
  · next m rest hnumeral =>
    obtain ⟨text, htext, rfl⟩ := unsignedText_of_numeral? hnumeral
    exact ⟨_, hsign m text htext, (List.append_assoc ..).symm⟩
  · trivial

/-- The token at the start of a text stands there. -/
theorem next_stands (c : Char) (cs : List Char) : (next c cs).1.Stands (c :: cs) (next c cs).2 := by
  unfold next
  split
  · rfl
  · rfl
  · rfl
  · rfl
  · rfl
  · rfl
  · exact @word_stands .null ['n'] _ cs fun _ => .null
  · exact @word_stands (.bool true) ['t'] _ cs fun _ => .true
  · exact @word_stands (.bool false) ['f'] _ cs fun _ => .false
  · exact literal_stands cs
  · exact @numeral_stands true ['-'] cs fun _ _ => .negative
  · split
    · exact @numeral_stands false [] (c :: cs) fun _ _ => .positive
    · trivial

theorem isSpace_iff {c : Char} : isSpace c ↔ IsSpace c := by
  simp [isSpace, IsSpace, or_assoc]

theorem scan_of_isSpace {c : Char} (hspace : isSpace c) (cs : List Char) : scan (c :: cs) = scan cs := by
  rw [scan, if_pos hspace]

theorem scan_of_not_isSpace {c : Char} (hspace : isSpace c = false) (cs : List Char) :
    scan (c :: cs) = (next c cs).1 :: scan (next c cs).2 := by
  rw [scan, if_neg (by simp [hspace])]

theorem scan_of_blanks {cs text : List Char} (h : Blanks cs text) : scan cs = scan text := by
  induction h with
  | nil => rfl
  | cons hspace _ ih => rw [scan_of_isSpace (isSpace_iff.2 hspace), ih]

/-- A text without tokens is blank. -/
theorem blanks_of_scan_eq_nil {cs : List Char} (h : scan cs = []) : Blanks cs [] := by
  induction cs with
  | nil => exact .nil
  | cons c cs ih =>
    cases hspace : isSpace c with
    | true => exact .cons (isSpace_iff.1 hspace) (ih (by rwa [scan_of_isSpace hspace] at h))
    | false =>
      rw [scan_of_not_isSpace hspace] at h
      cases h

/-- The first token of a text stands after blanks, and the other tokens are those of what follows it. -/
theorem stands_of_scan_eq_cons {cs : List Char} {token : Token} {ts : List Token}
    (h : scan cs = token :: ts) :
    ∃ text rest, Blanks cs text ∧ token.Stands text rest ∧ ts = scan rest ∧ rest.length < cs.length := by
  induction cs with
  | nil =>
    rw [scan] at h
    cases h
  | cons c cs ih =>
    cases hspace : isSpace c with
    | true =>
      rw [scan_of_isSpace hspace] at h
      obtain ⟨text, rest, hblanks, hstands, hts, hlength⟩ := ih h
      exact ⟨text, rest, .cons (isSpace_iff.1 hspace) hblanks, hstands, hts, Nat.lt_succ_of_lt hlength⟩
    | false =>
      rw [scan_of_not_isSpace hspace] at h
      cases h
      exact ⟨c :: cs, _, .nil, next_stands c cs, rfl, Nat.lt_succ_of_le (next_length_le c cs)⟩

@[simp] theorem scan_openList (rest : List Char) : scan ('[' :: rest) = .openList :: scan rest :=
  scan_of_not_isSpace rfl rest

@[simp] theorem scan_closeList (rest : List Char) : scan (']' :: rest) = .closeList :: scan rest :=
  scan_of_not_isSpace rfl rest

@[simp] theorem scan_openObject (rest : List Char) : scan ('\x7b' :: rest) = .openObject :: scan rest :=
  scan_of_not_isSpace rfl rest

@[simp] theorem scan_closeObject (rest : List Char) : scan ('\x7d' :: rest) = .closeObject :: scan rest :=
  scan_of_not_isSpace rfl rest

@[simp] theorem scan_comma (rest : List Char) : scan (',' :: rest) = .comma :: scan rest :=
  scan_of_not_isSpace rfl rest

@[simp] theorem scan_colon (rest : List Char) : scan (':' :: rest) = .colon :: scan rest :=
  scan_of_not_isSpace rfl rest

@[simp] theorem scan_null (rest : List Char) : scan ('n' :: 'u' :: 'l' :: 'l' :: rest) = .null :: scan rest :=
  scan_of_not_isSpace rfl _

@[simp] theorem scan_true (rest : List Char) :
    scan ('t' :: 'r' :: 'u' :: 'e' :: rest) = .bool true :: scan rest :=
  scan_of_not_isSpace rfl _

@[simp] theorem scan_false (rest : List Char) :
    scan ('f' :: 'a' :: 'l' :: 's' :: 'e' :: rest) = .bool false :: scan rest :=
  scan_of_not_isSpace rfl _

theorem next_digit {c : Char} (hdigit : c.isDigit) (cs : List Char) :
    next c cs = numeral false (c :: cs) := by
  unfold next
  split <;> first | exact absurd hdigit (by decide) | exact if_pos hdigit

theorem isSpace_eq_false_of_isDigit {c : Char} (hdigit : c.isDigit) : isSpace c = false := by
  cases hspace : isSpace c with
  | false => rfl
  | true =>
    rcases isSpace_iff.1 hspace with rfl | rfl | rfl | rfl <;> exact absurd hdigit (by decide)

theorem scan_number {m : Numeral} {text rest : List Char} (htext : NumeralText m text)
    (hrest : EndsNumber rest) : scan (text ++ rest) = .number m :: scan rest := by
  cases htext with
  | positive htext =>
    have hnumeral := numeral?_append htext hrest
    obtain ⟨hwhole, _, _⟩ := htext
    obtain ⟨d, tail, rfl, hd⟩ := hwhole.1.exists_cons
    simp only [List.cons_append] at hnumeral ⊢
    rw [scan_of_not_isSpace (isSpace_eq_false_of_isDigit hd), next_digit hd, numeral, hnumeral]
  | negative htext =>
    rw [List.cons_append, scan_of_not_isSpace rfl]
    change (numeral true _).1 :: scan (numeral true _).2 = _
    rw [numeral, numeral?_append htext hrest]

end Token

end ContractBlocks.Json
