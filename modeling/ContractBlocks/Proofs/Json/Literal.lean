import ContractBlocks.Proofs.Json.Grammar
import ContractBlocks.Proofs.Outcome
import Mathlib.Data.Char
import Mathlib.Tactic.Ring

namespace ContractBlocks.Json

namespace Literal

theorem unescape?_eq_some_iff {e c : Char} : unescape? e = some c ↔ EscapeText e c := by
  constructor
  · intro h
    unfold unescape? at h
    split at h <;> cases h <;> constructor
  · rintro ⟨⟩ <;> rfl

theorem isDigit_iff_le {c : Char} : c.isDigit ↔ '0' ≤ c ∧ c ≤ '9' := by
  simp [Char.isDigit, Char.le_def]

theorem hexValue?_eq_some_iff {c : Char} {n : ℕ} : hexValue? c = some n ↔ HexText n c := by
  simp only [hexValue?, isDigit_iff_le]
  constructor
  · intro h
    split at h
    · next hdigit =>
      cases h
      exact .digit hdigit.1 hdigit.2
    · split at h
      · next hlower =>
        cases h
        exact .lower hlower.1 hlower.2
      · split at h
        · next hupper =>
          cases h
          exact .upper hupper.1 hupper.2
        · cases h
  · -- The three ranges lie apart, so that the tests before the one that holds all fail.
    have hninth : ('9' : Char) < 'A' := by decide
    have hsixth : ('F' : Char) < 'a' := by decide
    have hfirst : ('9' : Char) < 'a' := by decide
    rintro (⟨hlow, hhigh⟩ | ⟨hlow, hhigh⟩ | ⟨hlow, hhigh⟩)
    · rw [if_pos ⟨hlow, hhigh⟩]
    · rw [if_neg fun hdigit => absurd (hlow.trans hdigit.2) (not_le.2 hfirst), if_pos ⟨hlow, hhigh⟩]
    · rw [if_neg fun hdigit => absurd (hlow.trans hdigit.2) (not_le.2 hninth),
        if_neg fun hlower => absurd (hlower.1.trans hhigh) (not_le.2 hsixth), if_pos ⟨hlow, hhigh⟩]

theorem codeUnit?_eq_some_iff {a b c d : Char} {n : ℕ} : codeUnit? a b c d = some n ↔ UnitText n a b c d := by
  have hsum (i j k l : ℕ) : 16 * (16 * (16 * i + j) + k) + l = i * 16 ^ 3 + j * 16 ^ 2 + k * 16 + l := by
    ring
  simp only [codeUnit?, Option.bind_eq_bind, Option.bind_eq_some_iff, Option.pure_def, Option.some_inj,
    hexValue?_eq_some_iff, hsum]
  constructor
  · rintro ⟨i, ha, j, hb, k, hc, l, hd, rfl⟩
    exact ⟨ha, hb, hc, hd⟩
  · rintro ⟨ha, hb, hc, hd⟩
    exact ⟨_, ha, _, hb, _, hc, _, hd, rfl⟩

/-- The pieces of a string literal after its opening quote, up to the closing one. Whether code units
    come in pairs does not matter here. -/
inductive PiecesText : List Piece → List Char → List Char → Prop
  | close {rest : List Char} : PiecesText [] ('\"' :: rest) rest
  | plain {c : Char} {pieces : List Piece} {cs rest : List Char} (hquote : c ≠ '\"')
      (hbackslash : c ≠ '\\') (hcontrol : 0x20 ≤ c.toNat) (hrest : PiecesText pieces cs rest) :
    PiecesText (.char c :: pieces) (c :: cs) rest
  | escape {e c : Char} {pieces : List Piece} {cs rest : List Char} (hescape : EscapeText e c)
      (hrest : PiecesText pieces cs rest) :
    PiecesText (.char c :: pieces) ('\\' :: e :: cs) rest
  | unit {a b c d : Char} {n : Nat} {pieces : List Piece} {cs rest : List Char}
      (hunit : UnitText n a b c d) (hrest : PiecesText pieces cs rest) :
    PiecesText (.unit n :: pieces) ('\\' :: 'u' :: a :: b :: c :: d :: cs) rest

theorem PiecesText.scan_eq {pieces : List Piece} {cs rest : List Char} (h : PiecesText pieces cs rest) :
    scan cs = (pieces, .closed, rest) := by
  induction h with
  | close => simp [scan]
  | plain hquote hbackslash hcontrol _ ih =>
    have hnot : ¬_ < 0x20 := Nat.not_lt.2 hcontrol
    simp_all [scan]
  | @escape e c _ _ _ hescape _ ih =>
    have hletter : e ≠ 'u' := by
      rintro rfl
      cases hescape
    rw [← unescape?_eq_some_iff] at hescape
    simp_all [scan]
  | unit hunit _ ih => simp [scan, codeUnit?_eq_some_iff.2 hunit, ih]

theorem piecesText_of_scan {pieces : List Piece} {cs rest : List Char}
    (h : scan cs = (pieces, .closed, rest)) : PiecesText pieces cs rest := by
  fun_induction scan cs generalizing pieces rest with
  | case1 => cases h
  | case2 cs =>
    cases h
    exact .close
  | case3 => cases h
  | case4 a b c d cs n hunit found ending after hscan ih =>
    cases h
    exact .unit (codeUnit?_eq_some_iff.1 hunit) (ih hscan)
  | case5 => cases h
  | case6 cs =>
    split at h <;> cases h
  | case7 e cs hend hshort c hescape found ending after hscan ih =>
    cases h
    exact .escape (unescape?_eq_some_iff.1 hescape) (ih hscan)
  | case8 => cases h
  | case9 => cases h
  | case10 c cs hquote hlast _ _ hmore hcontrol found ending after hscan ih =>
    cases h
    -- A backslash would have been read by one of the patterns before.
    have hbackslash : c ≠ '\\' := fun hc => by
      cases cs with
      | nil => exact hlast hc rfl
      | cons e cs => exact hmore e cs hc rfl
    exact .plain hquote hbackslash (Nat.not_lt.1 hcontrol) (ih hscan)

theorem isHighSurrogate_iff {n : ℕ} : isHighSurrogate n ↔ 0xd800 ≤ n ∧ n ≤ 0xdbff := by
  simp [isHighSurrogate]

theorem isLowSurrogate_iff {n : ℕ} : isLowSurrogate n ↔ 0xdc00 ≤ n ∧ n ≤ 0xdfff := by
  simp [isLowSurrogate]

theorem not_isSurrogate_iff {n : ℕ} :
    ¬isLowSurrogate n ∧ ¬isHighSurrogate n ↔ n < 0xd800 ∨ 0xdfff < n := by
  rw [isLowSurrogate_iff, isHighSurrogate_iff]
  omega

theorem exists_piecesText_of_letters {s cs rest : List Char} (h : Letters s cs rest) :
    ∃ pieces, PiecesText pieces cs rest ∧ characters pieces .closed = .ok s := by
  induction h with
  | close => exact ⟨[], .close, rfl⟩
  | plain hquote hbackslash hcontrol _ ih =>
    obtain ⟨pieces, htext, hchars⟩ := ih
    exact ⟨_, .plain hquote hbackslash hcontrol htext, by rw [characters, hchars]; rfl⟩
  | escape hescape _ ih =>
    obtain ⟨pieces, htext, hchars⟩ := ih
    exact ⟨_, .escape hescape htext, by rw [characters, hchars]; rfl⟩
  | unit hunit halone _ ih =>
    obtain ⟨pieces, htext, hchars⟩ := ih
    obtain ⟨hlow, hhigh⟩ := not_isSurrogate_iff.2 halone
    refine ⟨_, .unit hunit htext, ?_⟩
    unfold characters
    simp only [hlow, hhigh, hchars]
    rfl
  | @pair _ _ _ _ _ _ _ _ n m _ _ _ hfirst hhigh hsecond hlow _ ih =>
    obtain ⟨pieces, htext, hchars⟩ := ih
    refine ⟨_, .unit hfirst (.unit hsecond htext), ?_⟩
    have hnot : ¬isLowSurrogate n := fun hn => by
      have hrange := isLowSurrogate_iff.1 hn
      omega
    rw [← isHighSurrogate_iff] at hhigh
    rw [← isLowSurrogate_iff] at hlow
    simp only [characters, hnot, hhigh, hlow, hchars, if_true]
    rfl

theorem letters_of_piecesText {s cs rest : List Char} {pieces : List Piece}
    (htext : PiecesText pieces cs rest) (hchars : characters pieces .closed = .ok s) :
    Letters s cs rest := by
  generalize hending : LiteralEnd.closed = ending at hchars
  fun_induction characters pieces ending generalizing s cs with
  | case1 =>
    cases hchars
    cases htext
    exact .close
  | case3 c pieces ending ih =>
    obtain ⟨s, hs, rfl⟩ := Outcome.map_eq_ok_iff.1 hchars
    cases htext with
    | plain hquote hbackslash hcontrol htext =>
      exact .plain hquote hbackslash hcontrol (ih htext hending hs)
    | escape hescape htext => exact .escape hescape (ih htext hending hs)
  | case5 n ending _ hhigh m pieces hlow ih =>
    obtain ⟨s, hs, rfl⟩ := Outcome.map_eq_ok_iff.1 hchars
    cases htext with
    | unit hfirst htext =>
      -- The second half of the pair is no character of its own, so its text is taken apart here too.
      cases htext with
      | unit hsecond htext =>
        exact .pair hfirst (isHighSurrogate_iff.1 hhigh) hsecond (isLowSurrogate_iff.1 hlow) (ih htext hending hs)
  | case9 n pieces ending hlow hhigh ih =>
    obtain ⟨s, hs, rfl⟩ := Outcome.map_eq_ok_iff.1 hchars
    cases htext with
    | unit hunit htext => exact .unit hunit (not_isSurrogate_iff.1 ⟨hlow, hhigh⟩) (ih htext hending hs)
  | case2 | case4 | case6 | case7 | case8 => cases hchars

end Literal

end ContractBlocks.Json
