import ContractBlocks.Proofs.Contract.Documents

namespace ContractBlocks

namespace Json

/-- Whether a bracket opens a list or an object. -/
def isOpening (c : Char) : Bool :=
  c = '[' || c = '\x7b'

/-- Whether a bracket closes a list or an object. -/
def isClosing (c : Char) : Bool :=
  c = ']' || c = '\x7d'

/-- Where a reader of a text stands. Outside string literals it may stand in the indentation of a line,
    right after a colon or right after an opening bracket, inside them right after a backslash. -/
inductive Spot
  | between
  | indent
  | afterColon
  | afterOpening
  | inside
  | escaped
deriving DecidableEq

namespace Spot

/-- Whether the spot lies outside string literals. -/
def isOutside : Spot → Bool
  | .inside | .escaped => false
  | _ => true

/-- The spot after one more character. -/
def step (spot : Spot) (c : Char) : Spot :=
  match spot with
  | .inside => if c = '\"' then .between else if c = '\\' then .escaped else .inside
  | .escaped => .inside
  | _ =>
    if c = '\"' then .inside
    else if c = '\n' ∨ (spot = .indent ∧ c = ' ') then .indent
    else if c = ':' then .afterColon
    else if isOpening c then .afterOpening
    else .between

/-- Whether a character only lays the text out: outside string literals a line break, a space of the
    indentation after it, or one space after a colon. -/
def lays (spot : Spot) (c : Char) : Bool :=
  spot.isOutside && (c = '\n' || (c = ' ' && (spot = .indent || spot = .afterColon)))

end Spot

/-- A text from a spot on without the characters that only lay it out. -/
def condenseFrom : Spot → List Char → List Char
  | _, [] => []
  | spot, c :: cs =>
    if spot.lays c then condenseFrom (spot.step c) cs else c :: condenseFrom (spot.step c) cs

/-- A text without the characters that only lay it out. -/
def condense (text : List Char) : List Char :=
  condenseFrom .between text

/-- Whether a character has no part in a layout: it is no colon, comma or bracket, space or line break. -/
def isSolid (c : Char) : Bool :=
  c ≠ ':' && c ≠ ',' && c ≠ ' ' && c ≠ '\n' && !isOpening c && !isClosing c

/-- Whether a character has no part in a layout and is no quote. -/
def isPlain (c : Char) : Bool :=
  c ≠ '\"' && isSolid c

/-- A place in a text: where its reader stands, and how many lists and objects are open. Brackets in
    string literals do not count. -/
structure Cursor where
  spot : Spot
  opened : Nat

namespace Cursor

/-- The place after one more character. -/
def step (cursor : Cursor) (c : Char) : Cursor where
  spot := cursor.spot.step c
  opened :=
    if cursor.spot.isOutside && isOpening c then cursor.opened + 1
    else if cursor.spot.isOutside && isClosing c then cursor.opened - 1
    else cursor.opened

/-- Where no space follows, all spots outside string literals go on alike. -/
theorem step_of_isOutside {spot : Spot} (hspot : spot.isOutside) {c : Char} (hspace : c ≠ ' ') (opened : Nat) :
    (mk spot opened).step c = (mk .between opened).step c := by
  cases spot with
  | inside => cases hspot
  | escaped => cases hspot
  | _ => simp [step, Spot.step, Spot.isOutside, hspace]

/-- The place after a text. -/
def after (text : List Char) : Cursor :=
  text.foldl step ⟨.between, 0⟩

end Cursor

/-- A line starts with two spaces for each list and object that is open, and then with another
    character. A closing bracket at the start counts as passed. -/
def StartsLine (opened : Nat) (text : List Char) : Prop :=
  ∃ c rest, text = List.replicate (2 * (if isClosing c then opened - 1 else opened)) ' ' ++ c :: rest ∧
    c ≠ ' ' ∧ c ≠ '\n'

/-- A text is laid out over lines: line breaks stand outside string literals, no line ends with a space,
    each starts with the indentation due there, one space follows each colon outside string literals,
    and there is no line break at the end. Outside string literals each comma and each opening bracket
    ends its line and each closing bracket starts one, so that every item and every entry starts a line;
    only a pair of brackets with nothing between them stays together. -/
structure LaidOut (text : List Char) : Prop where
  breaks : ∀ before after, text = before ++ '\n' :: after → (Cursor.after before).spot.isOutside
  lineEnds : ∀ before after, text = before ++ after → after = [] ∨ after.head? = some '\n' →
    before.getLast? ≠ some ' '
  lineStarts : ∀ before after, text = before ++ after → before = [] ∨ before.getLast? = some '\n' →
    StartsLine (Cursor.after before).opened after
  colons : ∀ before after, text = before ++ ':' :: after → (Cursor.after before).spot.isOutside →
    ∃ c rest, after = ' ' :: c :: rest ∧ c ≠ ' ' ∧ c ≠ '\n'
  commas : ∀ before after, text = before ++ ',' :: after → (Cursor.after before).spot.isOutside →
    after.head? = some '\n'
  openings : ∀ before c after, text = before ++ c :: after → (Cursor.after before).spot.isOutside →
    isOpening c → after.head? = some '\n' ∨ ∃ d, after.head? = some d ∧ isClosing d
  closings : ∀ before c after, text = before ++ c :: after → (Cursor.after before).spot.isOutside →
    isClosing c → (Cursor.after before).spot = .indent ∨ (Cursor.after before).spot = .afterOpening
  noFinalBreak : text.getLast? ≠ some '\n'

/-- A character that may stand for itself in a string literal. -/
def IsLetter (c : Char) : Prop :=
  c ≠ '\"' ∧ c ≠ '\\' ∧ c ≠ '\n'

theorem isLetter_hexDigit {d : Nat} (hd : d < 16) : IsLetter (hexDigit d) := by
  unfold IsLetter
  revert d
  decide

/-- A character stands in a literal for itself, or as a backslash with a letter and perhaps digits. -/
theorem escape_eq (c : Char) :
    (escape c = [c] ∧ IsLetter c) ∨
      ∃ e digits, escape c = '\\' :: e :: digits ∧ e ≠ ' ' ∧ e ≠ '\n' ∧ ∀ d ∈ digits, IsLetter d := by
  unfold escape
  split
  case h_6 hquote hbackslash hline hreturn htab =>
    split
    · exact .inr ⟨_, [], rfl, by decide, by decide, by simp⟩
    · split
      · exact .inr ⟨_, [], rfl, by decide, by decide, by simp⟩
      · split
        · have hhigh : IsLetter (hexDigit (c.toNat / 16)) := isLetter_hexDigit (by omega)
          have hlow : IsLetter (hexDigit (c.toNat % 16)) := isLetter_hexDigit (by omega)
          have hzero : IsLetter '0' := by simp [IsLetter]
          exact .inr ⟨'u', _, rfl, by decide, by decide, by simp [hhigh, hlow, hzero]⟩
        · exact .inl ⟨rfl, hquote, hbackslash, hline⟩
  all_goals exact .inr ⟨_, [], rfl, by decide, by decide, by simp⟩

/-- What stands for a character in a literal starts with no line break, so that the character before it
    does not end a line. -/
theorem head?_escape (c : Char) (text : List Char) : ∃ d, (escape c ++ text).head? = some d ∧ d ≠ '\n' := by
  rcases escape_eq c with ⟨hself, hletter⟩ | ⟨e, digits, hpair, -⟩
  · exact ⟨c, by rw [hself]; rfl, hletter.2.2⟩
  · exact ⟨'\\', by rw [hpair]; rfl, by decide⟩

/-- What may stand around a character of a text that is laid out. -/
structure Cursor.Admits (cursor : Cursor) (c : Char) (after : List Char) : Prop where
  space : c = ' ' → ∃ d, after.head? = some d ∧ d ≠ '\n'
  lineBreak : c = '\n' → cursor.spot.isOutside ∧ StartsLine cursor.opened after
  colon : c = ':' → cursor.spot.isOutside → ∃ d rest, after = ' ' :: d :: rest ∧ d ≠ ' ' ∧ d ≠ '\n'
  comma : c = ',' → cursor.spot.isOutside → after.head? = some '\n'
  opening : isOpening c → cursor.spot.isOutside →
    after.head? = some '\n' ∨ ∃ d, after.head? = some d ∧ isClosing d
  closing : isClosing c → cursor.spot.isOutside → cursor.spot = .indent ∨ cursor.spot = .afterOpening

theorem isSolid_iff {c : Char} :
    isSolid c ↔ c ≠ ':' ∧ c ≠ ',' ∧ c ≠ ' ' ∧ c ≠ '\n' ∧ isOpening c = false ∧ isClosing c = false := by
  simp [isSolid, and_assoc]

namespace Cursor.Admits

variable {cursor : Cursor} {c : Char} {after : List Char}

theorem of_isSolid (hc : isSolid c) : cursor.Admits c after := by
  obtain ⟨hcolon, hcomma, hspace, hbreak, hopening, hclosing⟩ := isSolid_iff.1 hc
  exact ⟨fun h => absurd h hspace, fun h => absurd h hbreak, fun h => absurd h hcolon, fun h => absurd h hcomma,
    fun h => absurd (hopening ▸ h) Bool.false_ne_true, fun h => absurd (hclosing ▸ h) Bool.false_ne_true⟩

theorem of_space (hnext : ∃ d, after.head? = some d ∧ d ≠ '\n') : cursor.Admits ' ' after :=
  ⟨fun _ => hnext, by simp, by simp, by simp, by simp [isOpening], by simp [isClosing]⟩

/-- In a string literal only spaces and line breaks matter. -/
theorem of_inside (hinside : cursor.spot.isOutside = false)
    (hspace : c = ' ' → ∃ d, after.head? = some d ∧ d ≠ '\n') (hbreak : c ≠ '\n') : cursor.Admits c after := by
  have hnot : ¬cursor.spot.isOutside := by simp [hinside]
  exact ⟨hspace, fun h => absurd h hbreak, fun _ h => absurd h hnot, fun _ h => absurd h hnot,
    fun _ h => absurd h hnot, fun _ h => absurd h hnot⟩

end Cursor.Admits

/-- From a place on a text is laid out, and `short` is what is left of it without its layout. -/
structure Fits (cursor : Cursor) (text short : List Char) : Prop where
  admits : ∀ before c after, text = before ++ c :: after → (before.foldl Cursor.step cursor).Admits c after
  condensed : condenseFrom cursor.spot text = short

namespace Fits

variable {cursor : Cursor} {c : Char} {text short : List Char}

theorem nil (cursor : Cursor) : Fits cursor [] [] :=
  ⟨by simp, rfl⟩

theorem admits_cons (hadmits : cursor.Admits c text) (hrest : Fits (cursor.step c) text short) (before : List Char)
    (d : Char) (after : List Char) (htext : c :: text = before ++ d :: after) :
    (before.foldl Cursor.step cursor).Admits d after := by
  cases before with
  | nil =>
    cases htext
    exact hadmits
  | cons b before =>
    cases htext
    exact hrest.admits before d after rfl

theorem keep (hadmits : cursor.Admits c text) (hkept : cursor.spot.lays c = false)
    (hrest : Fits (cursor.step c) text short) : Fits cursor (c :: text) (c :: short) := by
  refine ⟨admits_cons hadmits hrest, ?_⟩
  rw [condenseFrom, hkept, ← hrest.condensed]
  rfl

theorem drop (hadmits : cursor.Admits c text) (hlays : cursor.spot.lays c)
    (hrest : Fits (cursor.step c) text short) : Fits cursor (c :: text) short := by
  refine ⟨admits_cons hadmits hrest, ?_⟩
  rw [condenseFrom, if_pos hlays]
  exact hrest.condensed

/-- A character that has no part in the layout stays, whatever follows it. -/
theorem solid (hc : isSolid c) (hrest : Fits (cursor.step c) text short) : Fits cursor (c :: text) (c :: short) := by
  obtain ⟨-, -, hspace, hbreak, -⟩ := isSolid_iff.1 hc
  exact keep (.of_isSolid hc) (by simp [Spot.lays, hspace, hbreak]) hrest

section Outside

variable {spot : Spot} (hspot : spot.isOutside) {opened : Nat}

include hspot

theorem outside (hspace : c ≠ ' ') (hbreak : c ≠ '\n') (hadmits : (Cursor.mk spot opened).Admits c text)
    (hrest : Fits ((Cursor.mk .between opened).step c) text short) : Fits ⟨spot, opened⟩ (c :: text) (c :: short) := by
  rw [← Cursor.step_of_isOutside hspot hspace] at hrest
  exact keep hadmits (by simp [Spot.lays, hspace, hbreak]) hrest

theorem plain (hc : isPlain c) (hrest : Fits ⟨.between, opened⟩ text short) :
    Fits ⟨spot, opened⟩ (c :: text) (c :: short) := by
  simp only [isPlain, Bool.and_eq_true, decide_eq_true_eq] at hc
  obtain ⟨hquote, hsolid⟩ := hc
  obtain ⟨hcolon, -, hspace, hbreak, hopening, hclosing⟩ := isSolid_iff.1 hsolid
  have hstep : (Cursor.mk .between opened).step c = ⟨.between, opened⟩ := by
    simp [Cursor.step, Spot.step, hquote, hbreak, hcolon, hopening, hclosing]
  exact outside hspot hspace hbreak (.of_isSolid hsolid) (by rwa [hstep])

theorem plains {cs : List Char} (hne : cs ≠ []) (hcs : ∀ c ∈ cs, isPlain c)
    (hrest : Fits ⟨.between, opened⟩ text short) : Fits ⟨spot, opened⟩ (cs ++ text) (cs ++ short) := by
  induction cs generalizing spot with
  | nil => exact absurd rfl hne
  | cons c cs ih =>
    refine plain hspot (hcs c List.mem_cons_self) ?_
    cases cs with
    | nil => exact hrest
    | cons d cs => exact ih rfl (by simp) fun e he => hcs e (List.mem_cons_of_mem c he)

theorem comma (hnext : text.head? = some '\n') (hrest : Fits ⟨.between, opened⟩ text short) :
    Fits ⟨spot, opened⟩ (',' :: text) (',' :: short) :=
  outside hspot (by decide) (by decide)
    ⟨by simp, by simp, by simp, fun _ _ => hnext, by simp [isOpening], by simp [isClosing]⟩ hrest

theorem opening (hc : isOpening c) (hnext : text.head? = some '\n' ∨ ∃ d, text.head? = some d ∧ isClosing d)
    (hrest : Fits ⟨.afterOpening, opened + 1⟩ text short) : Fits ⟨spot, opened⟩ (c :: text) (c :: short) := by
  obtain rfl | rfl : c = '[' ∨ c = '\x7b' := by simpa [isOpening] using hc
  · exact outside hspot (by decide) (by decide)
      ⟨by simp, by simp, by simp, by simp, fun _ _ => hnext, by simp [isClosing]⟩ hrest
  · exact outside hspot (by decide) (by decide)
      ⟨by simp, by simp, by simp, by simp, fun _ _ => hnext, by simp [isClosing]⟩ hrest

end Outside

theorem closing {spot : Spot} {opened : Nat} (hspot : spot = .indent ∨ spot = .afterOpening) (hc : isClosing c)
    (hrest : Fits ⟨.between, opened⟩ text short) : Fits ⟨spot, opened + 1⟩ (c :: text) (c :: short) := by
  have houtside : spot.isOutside := by rcases hspot with rfl | rfl <;> rfl
  obtain rfl | rfl : c = ']' ∨ c = '\x7d' := by simpa [isClosing] using hc
  · exact outside houtside (by decide) (by decide)
      ⟨by simp, by simp, by simp, by simp, by simp [isOpening], fun _ _ => hspot⟩ hrest
  · exact outside houtside (by decide) (by decide)
      ⟨by simp, by simp, by simp, by simp, by simp [isOpening], fun _ _ => hspot⟩ hrest

section Inside

variable {opened : Nat}

theorem letter (hquote : c ≠ '\"') (hbackslash : c ≠ '\\') (hbreak : c ≠ '\n')
    (hnext : ∃ d, text.head? = some d ∧ d ≠ '\n') (hrest : Fits ⟨.inside, opened⟩ text short) :
    Fits ⟨.inside, opened⟩ (c :: text) (c :: short) := by
  have hstep : (Cursor.mk .inside opened).step c = ⟨.inside, opened⟩ := by
    simp [Cursor.step, Spot.step, Spot.isOutside, hquote, hbackslash]
  exact keep (.of_inside rfl (fun _ => hnext) hbreak) rfl (by rwa [hstep])

theorem escapePair {e : Char} (hspace : e ≠ ' ') (hbreak : e ≠ '\n') (hrest : Fits ⟨.inside, opened⟩ text short) :
    Fits ⟨.inside, opened⟩ ('\\' :: e :: text) ('\\' :: e :: short) :=
  solid rfl (keep (.of_inside rfl (fun h => absurd h hspace) hbreak) rfl hrest)

theorem letters {cs : List Char} (hcs : ∀ d ∈ cs, IsLetter d) (hnext : ∃ d, text.head? = some d ∧ d ≠ '\n')
    (hrest : Fits ⟨.inside, opened⟩ text short) : Fits ⟨.inside, opened⟩ (cs ++ text) (cs ++ short) := by
  induction cs with
  | nil => exact hrest
  | cons c cs ih =>
    obtain ⟨⟨hquote, hbackslash, hbreak⟩, hcs⟩ := List.forall_mem_cons.1 hcs
    refine letter hquote hbackslash hbreak ?_ (ih hcs)
    cases cs with
    | nil => exact hnext
    | cons d cs => exact ⟨d, rfl, (hcs d List.mem_cons_self).2.2⟩

theorem escape (c : Char) (hnext : ∃ d, text.head? = some d ∧ d ≠ '\n')
    (hrest : Fits ⟨.inside, opened⟩ text short) :
    Fits ⟨.inside, opened⟩ (escape c ++ text) (escape c ++ short) := by
  rcases escape_eq c with ⟨hself, hletter⟩ | ⟨e, digits, hpair, hspace, hbreak, hdigits⟩
  · rw [hself]
    exact letters (List.forall_mem_singleton.2 hletter) hnext hrest
  · rw [hpair]
    exact escapePair hspace hbreak (letters hdigits hnext hrest)

/-- A string literal may stand at any spot outside others. -/
theorem quote {spot : Spot} (hspot : spot.isOutside) (s : String) (hrest : Fits ⟨.between, opened⟩ text short) :
    Fits ⟨spot, opened⟩ (quoteOnto s text) (quoteOnto s short) := by
  have hletters : Fits ⟨.inside, opened⟩ (s.toList.flatMap Json.escape ++ '\"' :: text)
      (s.toList.flatMap Json.escape ++ '\"' :: short) := by
    induction s.toList with
    | nil => exact solid rfl hrest
    | cons c cs ih =>
      rw [List.flatMap_cons, List.append_assoc, List.append_assoc]
      refine escape c ?_ ih
      cases cs with
      | nil => exact ⟨'\"', rfl, by decide⟩
      | cons d cs =>
        rw [List.flatMap_cons, List.append_assoc]
        exact head?_escape d _
  exact outside hspot (by decide) (by decide) (.of_isSolid rfl) hletters

end Inside

section Layout

variable {opened : Nat}

theorem spaces (count : Nat) (hc : c ≠ '\n') (hrest : Fits ⟨.indent, opened⟩ (c :: text) short) :
    Fits ⟨.indent, opened⟩ (List.replicate count ' ' ++ c :: text) short := by
  induction count with
  | zero => exact hrest
  | succ count ih =>
    rw [List.replicate_succ, List.cons_append]
    refine drop (.of_space ?_) rfl ih
    cases count with
    | zero => exact ⟨c, rfl, hc⟩
    | succ count => exact ⟨' ', rfl, by decide⟩

/-- A line break before an item or a closing bracket, with the indentation that is due there. -/
theorem lineBreak {spot : Spot} (hspot : spot.isOutside) {depth : Nat}
    (hdepth : (if isClosing c then opened - 1 else opened) = depth) (hspace : c ≠ ' ') (hc : c ≠ '\n')
    (hrest : Fits ⟨.indent, opened⟩ (c :: text) short) :
    Fits ⟨spot, opened⟩ (Layout.pretty.lineBreak depth ++ c :: text) short := by
  have hline : StartsLine opened (List.replicate (2 * depth) ' ' ++ c :: text) :=
    ⟨c, text, by rw [hdepth], hspace, hc⟩
  refine drop ⟨by simp, fun _ => ⟨hspot, hline⟩, by simp, by simp, by simp [isOpening], by simp [isClosing]⟩ ?_ ?_
  · simp [Spot.lays, hspot]
  · rw [Cursor.step_of_isOutside hspot (by decide)]
    exact spaces _ hc hrest

theorem afterKey (hspace : c ≠ ' ') (hbreak : c ≠ '\n') (hrest : Fits ⟨.between, opened⟩ (c :: text) short) :
    Fits ⟨.between, opened⟩ (Layout.pretty.afterKey ++ c :: text) (':' :: short) :=
  keep ⟨by simp, by simp, fun _ _ => ⟨c, text, rfl, hspace, hbreak⟩, by simp, by simp [isOpening], by simp [isClosing]⟩
    rfl (drop (.of_space ⟨c, rfl, hbreak⟩) rfl hrest)

end Layout

end Fits

/-- The text of a value fits wherever a value may stand, and starts neither with layout nor with a
    closing bracket. -/
structure Fitting (json : Json) : Prop where
  starts : ∀ depth rest, ∃ c tail, writeOnto .pretty depth json rest = c :: tail ∧ c ≠ ' ' ∧ c ≠ '\n' ∧
    isClosing c = false
  fits : ∀ spot depth rest short, Spot.isOutside spot → Fits ⟨.between, depth⟩ rest short →
    Fits ⟨spot, depth⟩ (writeOnto .pretty depth json rest) (writeOnto .compact depth json short)

namespace Fitting

theorem of_plain {json : Json} (c : Char) (cs : List Char) (hcs : ∀ d ∈ c :: cs, isPlain d)
    (htext : ∀ layout depth rest, writeOnto layout depth json rest = c :: cs ++ rest) : json.Fitting := by
  refine ⟨fun depth rest => ⟨c, cs ++ rest, htext _ _ _, ?_⟩, fun spot depth rest short hspot hrest => ?_⟩
  · have hc := hcs c List.mem_cons_self
    simp only [isPlain, Bool.and_eq_true] at hc
    obtain ⟨-, -, hspace, hbreak, -, hclosing⟩ := isSolid_iff.1 hc.2
    exact ⟨hspace, hbreak, hclosing⟩
  · rw [htext, htext]
    exact Fits.plains hspot (by simp) hcs hrest

variable {spot : Spot} {depth : Nat} {rest short : List Char}

theorem item {json : Json} (h : json.Fitting) (hspot : spot.isOutside)
    (hrest : Fits ⟨.between, depth⟩ rest short) :
    Fits ⟨spot, depth⟩ (Layout.pretty.lineBreak depth ++ writeOnto .pretty depth json rest)
      (writeOnto .compact depth json short) := by
  obtain ⟨c, tail, htext, hspace, hbreak, hclosing⟩ := h.starts depth rest
  have hfits := h.fits .indent depth rest short rfl hrest
  rw [htext] at hfits ⊢
  exact Fits.lineBreak hspot (by simp [hclosing]) hspace hbreak hfits

theorem entry {json : Json} (h : json.Fitting) (key : String) (hspot : spot.isOutside)
    (hrest : Fits ⟨.between, depth⟩ rest short) :
    Fits ⟨spot, depth⟩
      (Layout.pretty.lineBreak depth ++
        quoteOnto key (Layout.pretty.afterKey ++ writeOnto .pretty depth json rest))
      (quoteOnto key (Layout.compact.afterKey ++ writeOnto .compact depth json short)) := by
  obtain ⟨c, tail, htext, hspace, hbreak, -⟩ := h.starts depth rest
  have hfits := h.fits .between depth rest short rfl hrest
  rw [htext] at hfits ⊢
  refine Fits.lineBreak hspot rfl (by decide) (by decide) ?_
  exact Fits.quote rfl key (Fits.afterKey hspace hbreak hfits)

theorem items {items : List Json} (hitems : ∀ item ∈ items, item.Fitting)
    (hrest : Fits ⟨.between, depth⟩ rest short) :
    Fits ⟨.between, depth + 1⟩ (writeItemsOnto .pretty depth items rest)
      (writeItemsOnto .compact depth items short) := by
  induction items with
  | nil =>
    rw [writeItemsOnto, writeItemsOnto]
    exact Fits.lineBreak rfl rfl (by decide) (by decide) (Fits.closing (.inl rfl) rfl hrest)
  | cons first items ih =>
    rw [writeItemsOnto, writeItemsOnto]
    have htail := ih fun other hother => hitems other (List.mem_cons_of_mem first hother)
    exact Fits.comma rfl rfl ((hitems first List.mem_cons_self).item rfl htail)

theorem entries {entries : List (String × Json)} (hentries : ∀ entry ∈ entries, entry.2.Fitting)
    (hrest : Fits ⟨.between, depth⟩ rest short) :
    Fits ⟨.between, depth + 1⟩ (writeEntriesOnto .pretty depth entries rest)
      (writeEntriesOnto .compact depth entries short) := by
  induction entries with
  | nil =>
    rw [writeEntriesOnto, writeEntriesOnto]
    exact Fits.lineBreak rfl rfl (by decide) (by decide) (Fits.closing (.inl rfl) rfl hrest)
  | cons first entries ih =>
    rw [writeEntriesOnto, writeEntriesOnto]
    have htail := ih fun other hother => hentries other (List.mem_cons_of_mem first hother)
    exact Fits.comma rfl rfl ((hentries first List.mem_cons_self).entry first.1 rfl htail)

end Fitting

theorem isPlain_of_isDigit {c : Char} (hdigit : c.isDigit) : isPlain c := by
  have hother {d : Char} (hd : d.isDigit = false) : c ≠ d := by
    rintro rfl
    rw [hdigit] at hd
    cases hd
  have hopening : isOpening c = false := by simp [isOpening, @hother '[' rfl, @hother '\x7b' rfl]
  have hclosing : isClosing c = false := by simp [isClosing, @hother ']' rfl, @hother '\x7d' rfl]
  have hsolid : isSolid c := isSolid_iff.2 ⟨hother rfl, hother rfl, hother rfl, hother rfl, hopening, hclosing⟩
  simp [isPlain, hsolid, @hother '\"' rfl]

theorem exists_spellInt_eq_cons (z : Int) :
    ∃ c cs, Decimal.spellInt z = c :: cs ∧ ∀ d ∈ c :: cs, isPlain d := by
  obtain ⟨ds, hspell, ⟨⟨hne, hdigits⟩, -⟩, -⟩ := exists_spellOnto_eq z.natAbs []
  have hplain : ∀ d ∈ ds, isPlain d := fun d hd => isPlain_of_isDigit (hdigits d hd)
  rw [List.append_nil] at hspell
  rw [Decimal.spellInt, Decimal.spell, hspell]
  split
  · exact ⟨'-', ds, rfl, List.forall_mem_cons.2 ⟨rfl, hplain⟩⟩
  · obtain ⟨c, cs, rfl⟩ := List.exists_cons_of_ne_nil hne
    exact ⟨c, cs, rfl, hplain⟩

theorem Plain.fitting {json : Json} (hplain : json.Plain) : json.Fitting := by
  induction hplain with
  | null => exact .of_plain 'n' ['u', 'l', 'l'] (List.all_eq_true.1 rfl) fun _ _ _ => rfl
  | bool b =>
    cases b with
    | true => exact .of_plain 't' ['r', 'u', 'e'] (List.all_eq_true.1 rfl) fun _ _ _ => rfl
    | false => exact .of_plain 'f' ['a', 'l', 's', 'e'] (List.all_eq_true.1 rfl) fun _ _ _ => rfl
  | whole z fits =>
    obtain ⟨c, cs, hspell, hplain⟩ := exists_spellInt_eq_cons z
    refine .of_plain c cs hplain fun layout depth rest => ?_
    rw [writeOnto, Number.spell, hspell]
  | string s =>
    exact ⟨fun depth rest => ⟨'\"', _, rfl, by decide, by decide, rfl⟩,
      fun spot depth rest short hspot hrest => Fits.quote hspot s hrest⟩
  | @list items _ ih =>
    cases items with
    | nil =>
      refine ⟨fun depth rest => ⟨'[', _, rfl, by decide, by decide, rfl⟩, fun spot depth rest short hspot hrest => ?_⟩
      exact Fits.opening hspot rfl (.inr ⟨_, rfl, rfl⟩) (Fits.closing (.inr rfl) rfl hrest)
    | cons first items =>
      refine ⟨fun depth rest => ⟨'[', _, by rw [writeOnto], by decide, by decide, rfl⟩,
        fun spot depth rest short hspot hrest => ?_⟩
      rw [writeOnto, writeOnto]
      have htail := Fitting.items (fun other hother => ih other (List.mem_cons_of_mem first hother)) hrest
      exact Fits.opening hspot rfl (.inl rfl) ((ih first List.mem_cons_self).item rfl htail)
  | @object entries _ _ ih =>
    cases entries with
    | nil =>
      refine ⟨fun depth rest => ⟨'\x7b', _, rfl, by decide, by decide, rfl⟩,
        fun spot depth rest short hspot hrest => ?_⟩
      exact Fits.opening hspot rfl (.inr ⟨_, rfl, rfl⟩) (Fits.closing (.inr rfl) rfl hrest)
    | cons first entries =>
      refine ⟨fun depth rest => ⟨'\x7b', _, by rw [writeOnto], by decide, by decide, rfl⟩,
        fun spot depth rest short hspot hrest => ?_⟩
      rw [writeOnto, writeOnto]
      have htail := Fitting.entries (fun other hother => ih other (List.mem_cons_of_mem first hother)) hrest
      exact Fits.opening hspot rfl (.inl rfl) ((ih first List.mem_cons_self).entry first.1 rfl htail)

namespace Fits

variable {text short : List Char}

theorem lineStarts (hfits : Fits ⟨.between, 0⟩ text short) (hfirst : StartsLine 0 text) {before after : List Char}
    (htext : text = before ++ after) (hstart : before = [] ∨ before.getLast? = some '\n') :
    StartsLine (Cursor.after before).opened after := by
  rcases hstart with rfl | hlast
  · rw [htext] at hfirst
    exact hfirst
  · obtain ⟨front, rfl⟩ := List.getLast?_eq_some_iff.1 hlast
    rw [List.append_assoc] at htext
    have hstarts := ((hfits.admits front '\n' after htext).lineBreak rfl).2
    -- The line break is no bracket.
    have hopened : (Cursor.after (front ++ ['\n'])).opened = (Cursor.after front).opened := by
      simp [Cursor.after, Cursor.step, isOpening, isClosing]
    rwa [hopened]

/-- A text that fits from its start, and does not start with a space, is laid out. -/
theorem laidOut (hfits : Fits ⟨.between, 0⟩ text short) (hfirst : StartsLine 0 text) : LaidOut text where
  breaks before after htext := ((hfits.admits before '\n' after htext).lineBreak rfl).1
  lineEnds before after htext hend hlast := by
    obtain ⟨front, rfl⟩ := List.getLast?_eq_some_iff.1 hlast
    rw [List.append_assoc] at htext
    obtain ⟨d, hhead, hbreak⟩ := (hfits.admits front ' ' after htext).space rfl
    rcases hend with rfl | hend
    · cases hhead
    · exact hbreak (Option.some.inj (hhead.symm.trans hend))
  lineStarts before after := hfits.lineStarts hfirst
  colons before after htext houtside := (hfits.admits before ':' after htext).colon rfl houtside
  commas before after htext houtside := (hfits.admits before ',' after htext).comma rfl houtside
  openings before c after htext houtside hc := (hfits.admits before c after htext).opening hc houtside
  closings before c after htext houtside hc := (hfits.admits before c after htext).closing hc houtside
  noFinalBreak hlast := by
    obtain ⟨c, rest, hnil, -⟩ := hfits.lineStarts hfirst (List.append_nil text).symm (.inr hlast)
    simp at hnil

end Fits

theorem Plain.laidOut_pretty {json : Json} (hplain : json.Plain) :
    LaidOut json.pretty.toList ∧ condense json.pretty.toList = json.compact.toList := by
  have hfits := hplain.fitting.fits .between 0 [] [] rfl (.nil _)
  obtain ⟨c, tail, htext, hspace, hbreak, hclosing⟩ := hplain.fitting.starts 0 []
  rw [pretty, compact, String.toList_ofList, String.toList_ofList]
  refine ⟨hfits.laidOut ⟨c, tail, ?_, hspace, hbreak⟩, hfits.condensed⟩
  rw [htext]
  simp

end Json

/-- The text of a contract's document is laid out over lines, whatever the names in it. Without the line
    breaks, the indentation after them and the space after each colon, all of which stand outside string
    literals, it is the text on one line. -/
theorem Contract.laidOut_pretty_and_condense (c : Contract) :
    Json.LaidOut c.pretty.toList ∧ Json.condense c.pretty.toList = c.compact.toList :=
  c.plain_toJson.laidOut_pretty

end ContractBlocks
