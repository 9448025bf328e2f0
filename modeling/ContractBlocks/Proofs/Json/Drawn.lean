import ContractBlocks.Json.Decode
import ContractBlocks.Proofs.Json.Scan

namespace ContractBlocks.Json

open Json.Token (scan)

/-- The text of a string literal after its opening quote, up to the closing one. A literal whose code
    units are not paired has no characters and is still a literal. -/
inductive LiteralText : Literal → List Char → List Char → Prop
  | mk {pieces : List Piece} {cs rest : List Char} (hpieces : Literal.PiecesText pieces cs rest) :
    LiteralText ⟨(Literal.characters pieces .closed).map String.ofList⟩ cs rest

theorem LiteralText.of_letters {s : String} {cs rest : List Char} (h : Letters s.toList cs rest) :
    LiteralText (.ofString s) cs rest := by
  obtain ⟨pieces, hpieces, hchars⟩ := Literal.exists_piecesText_of_letters h
  have htext := LiteralText.mk hpieces
  rw [hchars, Except.map, String.ofList_toList] at htext
  exact htext

theorem LiteralText.of_scan {pieces : List Piece} {cs rest : List Char} (h : Literal.scan cs = (pieces, .closed, rest)) :
    LiteralText ⟨(Literal.characters pieces .closed).map String.ofList⟩ cs rest :=
  .mk (Literal.piecesText_of_scan h)

theorem Token.scan_literal {literal : Literal} {cs rest : List Char} (h : LiteralText literal cs rest) :
    scan ('\"' :: cs) = .string literal :: scan rest := by
  obtain ⟨hpieces⟩ := h
  rw [scan_of_not_isSpace rfl]
  change (Token.literal cs).1 :: scan (Token.literal cs).2 = _
  simp only [Token.literal, hpieces.scan_eq]

/-- What a stretch of text holds: a value, the items of a list with its end, or the entries of an
    object with its end. -/
inductive Stretch
  | value (outline : Outline)
  | items (items : List Outline)
  | entries (entries : List (Literal × Outline))

/-- The grammar of JSON texts, with their outlines. It asks of numbers and of literals only that they
    are spelled as such, and the entries of an object stand as they are in the text. -/
inductive Draws : Stretch → List Char → List Char → Prop
  | null {rest : List Char} : Draws (.value .null) ('n' :: 'u' :: 'l' :: 'l' :: rest) rest
  | true {rest : List Char} : Draws (.value (.bool true)) ('t' :: 'r' :: 'u' :: 'e' :: rest) rest
  | false {rest : List Char} :
    Draws (.value (.bool false)) ('f' :: 'a' :: 'l' :: 's' :: 'e' :: rest) rest
  | number {m : Numeral} {text rest : List Char} (htext : NumeralText m text) :
    Draws (.value (.number m)) (text ++ rest) rest
  | string {literal : Literal} {cs rest : List Char} (hliteral : LiteralText literal cs rest) :
    Draws (.value (.string literal)) ('\"' :: cs) rest
  | emptyList {cs rest : List Char} (hclose : Blanks cs (']' :: rest)) :
    Draws (.value (.list [] .closed)) ('[' :: cs) rest
  | list {items : List Outline} {cs rest : List Char} (hitems : Draws (.items items) cs rest) :
    Draws (.value (.list items .closed)) ('[' :: cs) rest
  | emptyObject {cs rest : List Char} (hclose : Blanks cs ('\x7d' :: rest)) :
    Draws (.value (.object [] .closed)) ('\x7b' :: cs) rest
  | object {entries : List (Literal × Outline)} {cs rest : List Char} (hentries : Draws (.entries entries) cs rest) :
    Draws (.value (.object entries .closed)) ('\x7b' :: cs) rest
  | lastItem {item : Outline} {cs text after rest : List Char} (hblanks : Blanks cs text)
      (hitem : Draws (.value item) text after) (hclose : Blanks after (']' :: rest)) :
    Draws (.items [item]) cs rest
  | item {item : Outline} {items : List Outline} {cs text after more rest : List Char}
      (hblanks : Blanks cs text) (hitem : Draws (.value item) text after)
      (hcomma : Blanks after (',' :: more)) (hitems : Draws (.items items) more rest) :
    Draws (.items (item :: items)) cs rest
  | lastEntry {key : Literal} {value : Outline} {cs letters colon blanks text after rest : List Char}
      (hquote : Blanks cs ('\"' :: letters)) (hkey : LiteralText key letters colon)
      (hcolon : Blanks colon (':' :: blanks)) (hblanks : Blanks blanks text)
      (hvalue : Draws (.value value) text after) (hclose : Blanks after ('\x7d' :: rest)) :
    Draws (.entries [(key, value)]) cs rest
  | entry {key : Literal} {value : Outline} {entries : List (Literal × Outline)}
      {cs letters colon blanks text after more rest : List Char}
      (hquote : Blanks cs ('\"' :: letters)) (hkey : LiteralText key letters colon)
      (hcolon : Blanks colon (':' :: blanks)) (hblanks : Blanks blanks text)
      (hvalue : Draws (.value value) text after) (hcomma : Blanks after (',' :: more))
      (hentries : Draws (.entries entries) more rest) :
    Draws (.entries ((key, value) :: entries)) cs rest

/-- A text is a JSON text with an outline: it draws the outline, with blanks before and after. -/
def Drawn (cs : List Char) (outline : Outline) : Prop :=
  ∃ text after, Blanks cs text ∧ Draws (.value outline) text after ∧ Blanks after []

theorem EndsNumber.cons {c : Char} (hc : c.isDigit = false ∧ c ≠ '.' ∧ c ≠ 'e' ∧ c ≠ 'E')
    (rest : List Char) : EndsNumber (c :: rest) := by
  intro d hd
  cases hd
  exact hc

theorem EndsNumber.of_blanks {cs rest : List Char} (hblanks : Blanks cs rest) (hrest : EndsNumber rest) :
    EndsNumber cs := by
  cases hblanks with
  | nil => exact hrest
  | cons hspace _ => rcases hspace with rfl | rfl | rfl | rfl <;> exact .cons (by decide) _

namespace Outline

/-- Tokens are left and the first of them is not the given one. -/
def StartsOtherThan (token : Token) (ts : List Token) : Prop :=
  ∃ first rest, ts = first :: rest ∧ first ≠ token

theorem value_openList {ts : List Token} (h : StartsOtherThan .closeList ts) (frames : List Frame) :
    value frames (.openList :: ts) = value (.list [] :: frames) ts := by
  obtain ⟨first, rest, rfl, hfirst⟩ := h
  simp [value, hfirst]

theorem value_openObject {ts : List Token} (h : StartsOtherThan .closeObject ts) (frames : List Frame) :
    value frames (.openObject :: ts) = key frames [] ts := by
  obtain ⟨first, rest, rfl, hfirst⟩ := h
  simp [value, hfirst]

theorem resume_list_comma {ts : List Token} (h : StartsOtherThan .closeList ts) (frames : List Frame)
    (items : List Outline) (last : Outline) :
    resume (.list items :: frames) last (.comma :: ts) = value (.list (last :: items) :: frames) ts := by
  obtain ⟨first, rest, rfl, hfirst⟩ := h
  simp [resume, hfirst]

theorem resume_object_comma {ts : List Token} (h : StartsOtherThan .closeObject ts)
    (frames : List Frame) (entries : List (Literal × Outline)) (name : Literal) (last : Outline) :
    resume (.object entries name :: frames) last (.comma :: ts) =
      key frames ((name, last) :: entries) ts := by
  obtain ⟨first, rest, rfl, hfirst⟩ := h
  simp [resume, hfirst]

/-- Reading the tokens of a stretch of text gives what the stretch holds. The frames around it do not
    matter, nor does what has been read of the list or object that it stands in. -/
def Traced : Stretch → List Char → List Char → Prop
  | .value outline, cs, rest =>
    EndsNumber rest → StartsOtherThan .closeList (scan cs) ∧
      ∀ frames, value frames (scan cs) = resume frames outline (scan rest)
  | .items items, cs, rest =>
    StartsOtherThan .closeList (scan cs) ∧
      ∀ frames before, value (.list before :: frames) (scan cs) =
        resume frames (.list (before.reverse ++ items) .closed) (scan rest)
  | .entries entries, cs, rest =>
    StartsOtherThan .closeObject (scan cs) ∧
      ∀ frames before, key frames before (scan cs) =
        resume frames (.object (before.reverse ++ entries) .closed) (scan rest)

theorem traced_scalar {outline : Outline} {cs rest : List Char} {token : Token}
    (hscan : EndsNumber rest → scan cs = token :: scan rest) (htoken : token ≠ .closeList)
    (hvalue : ∀ frames ts, value frames (token :: ts) = resume frames outline ts) :
    Traced (.value outline) cs rest := by
  intro hrest
  refine ⟨⟨token, _, hscan hrest, htoken⟩, fun frames => ?_⟩
  rw [hscan hrest, hvalue]

/-- A key with its colon is read, and its value comes next. -/
theorem key_scan {name : Literal} {cs letters colon blanks text : List Char}
    (hquote : Blanks cs ('\"' :: letters))
    (hkey : LiteralText name letters colon) (hcolon : Blanks colon (':' :: blanks))
    (hblanks : Blanks blanks text) :
    StartsOtherThan .closeObject (scan cs) ∧ ∀ frames before, key frames before (scan cs) =
      value (.object before name :: frames) (scan text) := by
  have hscan : scan cs = .string name :: .colon :: scan text := by
    rw [Token.scan_of_blanks hquote, Token.scan_literal hkey, Token.scan_of_blanks hcolon,
      Token.scan_colon, Token.scan_of_blanks hblanks]
  refine ⟨⟨_, _, hscan, nofun⟩, fun frames before => ?_⟩
  rw [hscan, key]

theorem traced_of_draws {stretch : Stretch} {cs rest : List Char} (h : Draws stretch cs rest) :
    Traced stretch cs rest := by
  induction h with
  | null => exact traced_scalar (fun _ => Token.scan_null _) nofun fun _ _ => by rw [value]
  | true => exact traced_scalar (fun _ => Token.scan_true _) nofun fun _ _ => by rw [value]
  | false => exact traced_scalar (fun _ => Token.scan_false _) nofun fun _ _ => by rw [value]
  | number htext => exact traced_scalar (Token.scan_number htext) nofun fun _ _ => by rw [value]
  | string hliteral => exact traced_scalar (fun _ => Token.scan_literal hliteral) nofun fun _ _ => by rw [value]
  | @emptyList cs rest hclose =>
    intro _
    have hscan : scan ('[' :: cs) = .openList :: .closeList :: scan rest := by
      rw [Token.scan_openList, Token.scan_of_blanks hclose, Token.scan_closeList]
    exact ⟨⟨_, _, hscan, nofun⟩, fun frames => by rw [hscan, value]⟩
  | list _ ih =>
    obtain ⟨hstart, hvalue⟩ := ih
    intro _
    refine ⟨⟨_, _, Token.scan_openList _, nofun⟩, fun frames => ?_⟩
    rw [Token.scan_openList, value_openList hstart, hvalue]
    rfl
  | @emptyObject cs rest hclose =>
    intro _
    have hscan : scan ('\x7b' :: cs) = .openObject :: .closeObject :: scan rest := by
      rw [Token.scan_openObject, Token.scan_of_blanks hclose, Token.scan_closeObject]
    exact ⟨⟨_, _, hscan, nofun⟩, fun frames => by rw [hscan, value]⟩
  | object _ ih =>
    obtain ⟨hstart, hvalue⟩ := ih
    intro _
    refine ⟨⟨_, _, Token.scan_openObject _, nofun⟩, fun frames => ?_⟩
    rw [Token.scan_openObject, value_openObject hstart, hvalue]
    rfl
  | lastItem hblanks _ hclose ih =>
    obtain ⟨hstart, hvalue⟩ := ih (.of_blanks hclose (.cons (by decide) _))
    rw [Traced, Token.scan_of_blanks hblanks]
    refine ⟨hstart, fun frames before => ?_⟩
    rw [hvalue, Token.scan_of_blanks hclose, Token.scan_closeList, resume, List.reverse_cons]
  | item hblanks _ hcomma _ ih ihs =>
    obtain ⟨hstart, hvalue⟩ := ih (.of_blanks hcomma (.cons (by decide) _))
    obtain ⟨hstarts, hvalues⟩ := ihs
    rw [Traced, Token.scan_of_blanks hblanks]
    refine ⟨hstart, fun frames before => ?_⟩
    rw [hvalue, Token.scan_of_blanks hcomma, Token.scan_comma, resume_list_comma hstarts, hvalues,
      List.reverse_cons, List.append_assoc, List.singleton_append]
  | lastEntry hquote hkey hcolon hblanks _ hclose ih =>
    obtain ⟨-, hvalue⟩ := ih (.of_blanks hclose (.cons (by decide) _))
    obtain ⟨hstart, hkeys⟩ := key_scan hquote hkey hcolon hblanks
    refine ⟨hstart, fun frames before => ?_⟩
    rw [hkeys, hvalue, Token.scan_of_blanks hclose, Token.scan_closeObject, resume, List.reverse_cons]
  | entry hquote hkey hcolon hblanks _ hcomma _ ih ihs =>
    obtain ⟨-, hvalue⟩ := ih (.of_blanks hcomma (.cons (by decide) _))
    obtain ⟨hstarts, hvalues⟩ := ihs
    obtain ⟨hstart, hkeys⟩ := key_scan hquote hkey hcolon hblanks
    refine ⟨hstart, fun frames before => ?_⟩
    rw [hkeys, hvalue, Token.scan_of_blanks hcomma, Token.scan_comma, resume_object_comma hstarts,
      hvalues, List.reverse_cons, List.append_assoc, List.singleton_append]

/-- A JSON text has the outline that it draws, and nothing follows it. -/
theorem ofText_of_drawn {text : String} {outline : Outline} (h : Drawn text.toList outline) :
    ofText text = (outline, []) := by
  obtain ⟨start, after, hblanks, hdraws, hend⟩ := h
  obtain ⟨-, hvalue⟩ := traced_of_draws hdraws (.of_blanks hend nofun)
  have hscan : scan after = [] := by rw [Token.scan_of_blanks hend, scan]
  rw [ofText, Token.scan_of_blanks hblanks, hvalue, hscan, resume]

end Outline

end ContractBlocks.Json
