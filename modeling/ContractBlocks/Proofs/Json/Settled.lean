import ContractBlocks.Proofs.Json.Parsed

namespace ContractBlocks.Json

open Json.Token (scan)

namespace Outline

/-- No value can be read from an outline, because reading the text had to stop somewhere in it. -/
def Unreadable (outline : Outline) : Prop :=
  ∀ json, outline.readJson ≠ .ok json

theorem unreadable_stopped (why : Stop) : Unreadable (.stopped why) :=
  nofun

theorem readJson_list_eq_ok_iff {items : List Outline} {ending : ListEnd} {json : Json} :
    (Outline.list items ending).readJson = .ok json ↔
      ∃ values, readItems items = .ok values ∧ ending.fault? = none ∧ json = .list values := by
  rw [readJson]
  cases readItems items <;> cases ending.fault? <;> simp [bind, Except.bind, check, pure, Except.pure,
    eq_comm]

theorem readJson_object_eq_ok_iff {entries : List (Literal × Outline)} {ending : ObjectEnd}
    {json : Json} :
    (Outline.object entries ending).readJson = .ok json ↔
      ∃ values, readEntries [] entries = .ok values ∧ ending.fault? = none ∧ json = .object values := by
  rw [readJson]
  cases readEntries [] entries <;> cases ending.fault? <;> simp [bind, Except.bind, check, pure,
    Except.pure, eq_comm]

theorem unreadable_list {items : List Outline} {ending : ListEnd} {fault : Fault}
    (h : ending.fault? = some fault) : Unreadable (.list items ending) := by
  intro json hread
  obtain ⟨_, _, hnone, _⟩ := readJson_list_eq_ok_iff.1 hread
  rw [hnone] at h
  cases h

theorem unreadable_object {entries : List (Literal × Outline)} {ending : ObjectEnd} {fault : Fault}
    (h : ending.fault? = some fault) : Unreadable (.object entries ending) := by
  intro json hread
  obtain ⟨_, _, hnone, _⟩ := readJson_object_eq_ok_iff.1 hread
  rw [hnone] at h
  cases h

theorem unreadable_badKey (entries : List (Literal × Outline)) (token : Token) :
    Unreadable (.object entries (.badKey token)) := by
  cases token with
  | stop why => cases why <;> exact unreadable_object rfl
  | _ => exact unreadable_object rfl

theorem exists_enclose_cons (frame : Frame) (last : Outline) : ∃ outline, Unreadable outline ∧
    ∀ frames, enclose (frame :: frames) last = enclose frames outline := by
  cases frame with
  | list items => exact ⟨_, unreadable_list rfl, fun frames => by rw [enclose]⟩
  | object entries key => exact ⟨_, unreadable_object rfl, fun frames => by rw [enclose]⟩

theorem readItems_concat_eq_ok {items : List Outline} {last : Outline} {values : List Json}
    (h : readItems (items ++ [last]) = .ok values) :
    ∃ before value, readItems items = .ok before ∧ last.readJson = .ok value ∧
      values = before ++ [value] := by
  induction items generalizing values with
  | nil =>
    rw [List.nil_append, readItems] at h
    obtain ⟨value, hvalue, h⟩ := Outcome.bind_eq_ok_iff.1 h
    cases h
    exact ⟨[], value, rfl, hvalue, rfl⟩
  | cons item items ih =>
    rw [List.cons_append, readItems] at h
    obtain ⟨value, hvalue, h⟩ := Outcome.bind_eq_ok_iff.1 h
    obtain ⟨values, hvalues, h⟩ := Outcome.bind_eq_ok_iff.1 h
    cases h
    obtain ⟨before, last, hbefore, hlast, rfl⟩ := ih hvalues
    refine ⟨value :: before, last, ?_, hlast, rfl⟩
    rw [readItems, hvalue, hbefore]
    rfl

theorem readEntries_concat_eq_ok {entries : List (Literal × Outline)} {key : Literal} {last : Outline}
    {start values : List (String × Json)}
    (h : readEntries start (entries ++ [(key, last)]) = .ok values) :
    ∃ before name value, readEntries start entries = .ok before ∧ key.text = .ok name ∧
      last.readJson = .ok value ∧ values = putNamed name value before := by
  induction entries generalizing start with
  | nil =>
    rw [List.nil_append, readEntries] at h
    obtain ⟨name, hname, h⟩ := Outcome.bind_eq_ok_iff.1 h
    obtain ⟨value, hvalue, h⟩ := Outcome.bind_eq_ok_iff.1 h
    cases h
    exact ⟨start, name, value, rfl, hname, hvalue, rfl⟩
  | cons entry entries ih =>
    rw [List.cons_append, readEntries] at h
    obtain ⟨name, hname, h⟩ := Outcome.bind_eq_ok_iff.1 h
    obtain ⟨value, hvalue, h⟩ := Outcome.bind_eq_ok_iff.1 h
    rw [readEntries, hname, hvalue]
    exact ih h

/-- Reading inside the open lists and objects goes one of two ways. A value is complete and reading
    goes on after it; if the value is readable, `P` holds of it and of the text that follows. Or
    reading stops, and no value can be read. -/
inductive Settles (length : Nat) (run : List Frame → Outline × List Token)
    (P : Json → List Char → Prop) : Prop
  | goesOn (outline : Outline) (rest : List Char) (hlength : rest.length < length)
      (hrun : ∀ frames, run frames = resume frames outline (scan rest))
      (hread : ∀ json, outline.readJson = .ok json → P json rest)
  | stops (outline : Outline) (hunreadable : Unreadable outline)
      (hrun : ∀ frames, run frames = (enclose frames outline, []))

namespace Settles

variable {length length' : Nat} {run run' : List Frame → Outline × List Token}
  {P Q : Json → List Char → Prop}

theorem mono (h : Settles length run P) (hlength : length ≤ length')
    (hrun : ∀ frames, run' frames = run frames) (hP : ∀ json rest, P json rest → Q json rest) :
    Settles length' run' Q := by
  cases h with
  | goesOn outline rest hshort hresume hread =>
    exact .goesOn outline rest (Nat.lt_of_lt_of_le hshort hlength)
      (fun frames => (hrun frames).trans (hresume frames)) fun json hjson => hP json rest (hread json hjson)
  | stops outline hunreadable hstop =>
    exact .stops outline hunreadable fun frames => (hrun frames).trans (hstop frames)

/-- A value inside one more list or object, and then what comes after that value. -/
theorem inside {frame : Frame} (h : Settles length run P) (hlength : length ≤ length')
    (hnext : ∀ outline rest, rest.length < length → (∀ json, outline.readJson = .ok json → P json rest) →
      Settles rest.length (fun frames => resume (frame :: frames) outline (scan rest)) Q) :
    Settles length' (fun frames => run (frame :: frames)) Q := by
  cases h with
  | goesOn outline rest hshort hresume hread =>
    refine (hnext outline rest hshort hread).mono ?_ (fun frames => hresume _) fun _ _ => id
    exact Nat.le_of_lt (Nat.lt_of_lt_of_le hshort hlength)
  | stops outline hunreadable hstop =>
    obtain ⟨whole, hwhole, henclose⟩ := exists_enclose_cons frame outline
    exact .stops whole hwhole fun frames => by rw [hstop, henclose]

end Settles

/-- What follows an item of a list: the end of the list, or further items. -/
inductive ItemsTail : List Json → List Char → List Char → Prop
  | close {cs rest : List Char} (hclose : Blanks cs (']' :: rest)) : ItemsTail [] cs rest
  | comma {items : List Json} {cs more rest : List Char} (hcomma : Blanks cs (',' :: more))
      (hitems : Spells (.items items) more rest) : ItemsTail items cs rest

theorem ItemsTail.spells {item : Json} {items : List Json} {cs text after rest : List Char}
    (hblanks : Blanks cs text) (hitem : Spells (.value item) text after)
    (htail : ItemsTail items after rest) : Spells (.items (item :: items)) cs rest := by
  cases htail with
  | close hclose => exact .lastItem hblanks hitem hclose
  | comma hcomma hitems => exact .item hblanks hitem hcomma hitems

/-- What follows an entry of an object: the end of the object, or further entries. -/
inductive EntriesTail : List (String × Json) → List Char → List Char → Prop
  | close {cs rest : List Char} (hclose : Blanks cs ('\x7d' :: rest)) : EntriesTail [] cs rest
  | comma {entries : List (String × Json)} {cs more rest : List Char}
      (hcomma : Blanks cs (',' :: more)) (hentries : Spells (.entries entries) more rest) :
    EntriesTail entries cs rest

theorem EntriesTail.spells {key : String} {value : Json} {entries : List (String × Json)}
    {cs letters colon blanks text after rest : List Char} (hquote : Blanks cs ('\"' :: letters))
    (hkey : Letters key.toList letters colon) (hcolon : Blanks colon (':' :: blanks))
    (hblanks : Blanks blanks text) (hvalue : Spells (.value value) text after)
    (htail : EntriesTail entries after rest) : Spells (.entries ((key, value) :: entries)) cs rest := by
  cases htail with
  | close hclose => exact .lastEntry hquote hkey hcolon hblanks hvalue hclose
  | comma hcomma hentries => exact .entry hquote hkey hcolon hblanks hvalue hcomma hentries

/-- How reading settles at a text, wherever it may stand. -/
structure Settled (cs : List Char) : Prop where
  value : Settles cs.length (fun frames => value frames (scan cs))
    fun json rest => ∃ text, Blanks cs text ∧ Spells (.value json) text rest
  afterItem (before : List Outline) (last : Outline) :
    Settles cs.length (fun frames => resume (.list before :: frames) last (scan cs))
      fun json rest => ∃ items tail, readItems (last :: before).reverse = .ok items ∧
        json = .list (items ++ tail) ∧ ItemsTail tail cs rest
  key (before : List (Literal × Outline)) :
    Settles cs.length (fun frames => key frames before (scan cs))
      fun json rest => ∃ entries tail, readEntries [] before.reverse = .ok entries ∧
        json = .object (putAll entries tail) ∧ Spells (.entries tail) cs rest
  afterEntry (before : List (Literal × Outline)) (name : Literal) (last : Outline) :
    Settles cs.length (fun frames => resume (.object before name :: frames) last (scan cs))
      fun json rest => ∃ entries tail, readEntries [] ((name, last) :: before).reverse = .ok entries ∧
        json = .object (putAll entries tail) ∧ EntriesTail tail cs rest

/-- An item is read and then what follows it. The items read before stay as they are. -/
theorem items_settle {cs : List Char} (hcs : Settled cs)
    (hshorter : ∀ rest, rest.length < cs.length → Settled rest) (before : List Outline) :
    Settles cs.length (fun frames => value (.list before :: frames) (scan cs))
      fun json rest => ∃ items tail, readItems before.reverse = .ok items ∧
        json = .list (items ++ tail) ∧ Spells (.items tail) cs rest := by
  refine hcs.value.inside (Nat.le_refl _) fun outline rest hrest hread => ?_
  refine ((hshorter rest hrest).afterItem before outline).mono (Nat.le_refl _) (fun _ => rfl) ?_
  rintro json after ⟨items, tail, hitems, rfl, htail⟩
  rw [List.reverse_cons] at hitems
  obtain ⟨front, item, hfront, hitem, rfl⟩ := readItems_concat_eq_ok hitems
  obtain ⟨text, hblanks, hspells⟩ := hread item hitem
  refine ⟨front, item :: tail, hfront, ?_, htail.spells hblanks hspells⟩
  rw [List.append_assoc, List.singleton_append]

theorem entry_settles {cs : List Char} (hcs : Settled cs)
    (hshorter : ∀ rest, rest.length < cs.length → Settled rest) (before : List (Literal × Outline))
    (name : Literal) :
    Settles cs.length (fun frames => value (.object before name :: frames) (scan cs))
      fun json rest => ∃ entries tail key value text after, readEntries [] before.reverse = .ok entries ∧
        name.text = .ok key ∧ json = .object (putAll entries ((key, value) :: tail)) ∧
        Blanks cs text ∧ Spells (.value value) text after ∧ EntriesTail tail after rest := by
  refine hcs.value.inside (Nat.le_refl _) fun outline rest hrest hread => ?_
  refine ((hshorter rest hrest).afterEntry before name outline).mono (Nat.le_refl _) (fun _ => rfl) ?_
  rintro json after ⟨entries, tail, hentries, rfl, htail⟩
  rw [List.reverse_cons] at hentries
  obtain ⟨front, key, value, hfront, hkey, hvalue, rfl⟩ := readEntries_concat_eq_ok hentries
  obtain ⟨text, hblanks, hspells⟩ := hread value hvalue
  exact ⟨front, tail, key, value, text, rest, hfront, hkey, rfl, hblanks, hspells, htail⟩

section

variable {cs : List Char} (hshorter : ∀ rest, rest.length < cs.length → Settled rest)

include hshorter

theorem shorter_of_shorter {rest : List Char} (hrest : rest.length < cs.length) :
    ∀ after, after.length < rest.length → Settled after :=
  fun after hafter => hshorter after (Nat.lt_trans hafter hrest)

theorem openList_settles {rest : List Char} (hrest : rest.length < cs.length) :
    Settles cs.length (fun frames => value frames (.openList :: scan rest))
      fun json after => Spells (.value json) ('[' :: rest) after := by
  cases hscan : scan rest with
  | nil => exact .stops (.list [] .ended) (unreadable_list rfl) fun frames => by rw [value]
  | cons token ts =>
    obtain ⟨text, after, hblanks, hstands, rfl, hlength⟩ := Token.stands_of_scan_eq_cons hscan
    by_cases hclose : token = .closeList
    · subst hclose
      cases hstands
      refine .goesOn (.list [] .closed) after (Nat.lt_trans hlength hrest) (fun frames => by rw [value]) ?_
      intro json hread
      cases hread
      exact .emptyList hblanks
    · have hstart : StartsOtherThan .closeList (scan rest) := ⟨_, _, hscan, hclose⟩
      rw [← hscan]
      refine (items_settle (hshorter rest hrest) (shorter_of_shorter hshorter hrest) []).mono
        (Nat.le_of_lt hrest) (value_openList hstart) ?_
      rintro json after ⟨items, tail, hitems, rfl, htail⟩
      cases hitems
      exact .list htail

theorem openObject_settles {rest : List Char} (hrest : rest.length < cs.length) :
    Settles cs.length (fun frames => value frames (.openObject :: scan rest))
      fun json after => Spells (.value json) ('\x7b' :: rest) after := by
  cases hscan : scan rest with
  | nil => exact .stops (.object [] .ended) (unreadable_object rfl) fun frames => by rw [value]
  | cons token ts =>
    obtain ⟨text, after, hblanks, hstands, rfl, hlength⟩ := Token.stands_of_scan_eq_cons hscan
    by_cases hclose : token = .closeObject
    · subst hclose
      cases hstands
      refine .goesOn (.object [] .closed) after (Nat.lt_trans hlength hrest) (fun frames => by rw [value]) ?_
      intro json hread
      cases hread
      exact .emptyObject hblanks
    · have hstart : StartsOtherThan .closeObject (scan rest) := ⟨_, _, hscan, hclose⟩
      rw [← hscan]
      refine ((hshorter rest hrest).key []).mono (Nat.le_of_lt hrest) (value_openObject hstart) ?_
      rintro json after ⟨entries, tail, hentries, rfl, htail⟩
      cases hentries
      exact .object htail (merges_putAll tail)

theorem value_settles : Settles cs.length (fun frames => value frames (scan cs))
    fun json rest => ∃ text, Blanks cs text ∧ Spells (.value json) text rest := by
  cases hscan : scan cs with
  | nil => exact .stops _ (unreadable_stopped _) fun frames => by rw [value]
  | cons token ts =>
    obtain ⟨text, rest, hblanks, hstands, rfl, hrest⟩ := Token.stands_of_scan_eq_cons hscan
    cases token with
    | openList =>
      cases hstands
      exact (openList_settles hshorter hrest).mono (Nat.le_refl _) (fun _ => rfl)
        fun _ _ hspells => ⟨_, hblanks, hspells⟩
    | openObject =>
      cases hstands
      exact (openObject_settles hshorter hrest).mono (Nat.le_refl _) (fun _ => rfl)
        fun _ _ hspells => ⟨_, hblanks, hspells⟩
    | null =>
      refine .goesOn .null rest hrest (fun frames => by rw [value]) fun json hread => ?_
      cases hread
      exact ⟨text, hblanks, hstands⟩
    | bool b =>
      refine .goesOn (.bool b) rest hrest (fun frames => by rw [value]) fun json hread => ?_
      cases hread
      exact ⟨text, hblanks, hstands⟩
    | number m =>
      refine .goesOn (.number m) rest hrest (fun frames => by rw [value]) fun json hread => ?_
      obtain ⟨spelling, hspelling, rfl⟩ := hstands
      rw [readJson, readNumber] at hread
      split at hread
      · next hnumber =>
        cases hread
        exact ⟨_, hblanks, .number hspelling (hspelling.number?_eq_some_iff.1 hnumber)⟩
      · cases hread
    | string lit =>
      refine .goesOn (.string lit) rest hrest (fun frames => by rw [value]) fun json hread => ?_
      obtain ⟨letters, rfl, hletters⟩ := hstands
      obtain ⟨s, hs, rfl⟩ := Outcome.map_eq_ok_iff.1 hread
      exact ⟨_, hblanks, .string (hletters s hs)⟩
    | stop why => exact .stops _ (unreadable_stopped _) fun frames => by rw [value]
    | closeList | closeObject | comma | colon =>
      exact .stops _ (unreadable_stopped .stray) fun frames => by simp [value]

theorem afterItem_settles (before : List Outline) (last : Outline) :
    Settles cs.length (fun frames => resume (.list before :: frames) last (scan cs))
      fun json rest => ∃ items tail, readItems (last :: before).reverse = .ok items ∧
        json = .list (items ++ tail) ∧ ItemsTail tail cs rest := by
  cases hscan : scan cs with
  | nil => exact .stops (.list _ .ended) (unreadable_list rfl) fun frames => by rw [resume]
  | cons token ts =>
    obtain ⟨text, rest, hblanks, hstands, rfl, hrest⟩ := Token.stands_of_scan_eq_cons hscan
    cases token with
    | closeList =>
      cases hstands
      refine .goesOn (.list _ .closed) rest hrest (fun frames => by rw [resume]) fun json hread => ?_
      obtain ⟨items, hitems, -, rfl⟩ := readJson_list_eq_ok_iff.1 hread
      exact ⟨items, [], hitems, by rw [List.append_nil], .close hblanks⟩
    | comma =>
      cases hstands
      cases hmore : scan rest with
      | nil => exact .stops (.list _ .commaEnded) (unreadable_list rfl) fun frames => by rw [resume]
      | cons token ts =>
        by_cases hclose : token = .closeList
        · subst hclose
          exact .stops (.list _ .commaClosed) (unreadable_list rfl) fun frames => by rw [resume]
        · have hstart : StartsOtherThan .closeList (scan rest) := ⟨_, _, hmore, hclose⟩
          rw [← hmore]
          refine (items_settle (hshorter rest hrest) (shorter_of_shorter hshorter hrest) _).mono
            (Nat.le_of_lt hrest) (fun frames => resume_list_comma hstart frames before last) ?_
          rintro json after ⟨items, tail, hitems, rfl, htail⟩
          exact ⟨items, tail, hitems, rfl, .comma hblanks htail⟩
    | _ =>
      exact .stops (.list (last :: before).reverse .noComma) (unreadable_list rfl)
        fun frames => by simp [resume]

theorem key_settles (before : List (Literal × Outline)) :
    Settles cs.length (fun frames => key frames before (scan cs))
      fun json rest => ∃ entries tail, readEntries [] before.reverse = .ok entries ∧
        json = .object (putAll entries tail) ∧ Spells (.entries tail) cs rest := by
  cases hscan : scan cs with
  | nil => exact .stops (.object _ .ended) (unreadable_object rfl) fun frames => by rw [key]
  | cons token ts =>
    obtain ⟨text, rest, hquote, hstands, rfl, hrest⟩ := Token.stands_of_scan_eq_cons hscan
    cases token with
    | string name =>
      obtain ⟨letters, rfl, hletters⟩ := hstands
      by_cases hcolon : ∃ ts, scan rest = .colon :: ts
      · obtain ⟨ts, hcolon⟩ := hcolon
        obtain ⟨text, blanks, hblanks, rfl, rfl, hlength⟩ := Token.stands_of_scan_eq_cons hcolon
        have hshort := Nat.lt_trans hlength hrest
        refine (entry_settles (hshorter blanks hshort) (shorter_of_shorter hshorter hshort) before name).mono
          (Nat.le_of_lt hshort) (fun frames => by rw [hcolon, key]) ?_
        rintro json rest ⟨entries, tail, key, value, text, after, hentries, hkey, rfl, hspace, hvalue, htail⟩
        exact ⟨entries, _, hentries, rfl,
          htail.spells hquote (hletters key hkey) hblanks hspace hvalue⟩
      · exact .stops (.object _ .ended) (unreadable_object rfl)
          fun frames => by rw [key]; exact fun ts hts => hcolon ⟨ts, hts⟩
    | _ => exact .stops (.object _ (.badKey _)) (unreadable_badKey _ _) fun frames => by simp [key]; rfl

theorem afterEntry_settles (before : List (Literal × Outline)) (name : Literal) (last : Outline) :
    Settles cs.length (fun frames => resume (.object before name :: frames) last (scan cs))
      fun json rest => ∃ entries tail, readEntries [] ((name, last) :: before).reverse = .ok entries ∧
        json = .object (putAll entries tail) ∧ EntriesTail tail cs rest := by
  cases hscan : scan cs with
  | nil => exact .stops (.object _ .ended) (unreadable_object rfl) fun frames => by rw [resume]
  | cons token ts =>
    obtain ⟨text, rest, hblanks, hstands, rfl, hrest⟩ := Token.stands_of_scan_eq_cons hscan
    cases token with
    | closeObject =>
      cases hstands
      refine .goesOn (.object _ .closed) rest hrest (fun frames => by rw [resume]) fun json hread => ?_
      obtain ⟨entries, hentries, -, rfl⟩ := readJson_object_eq_ok_iff.1 hread
      exact ⟨entries, [], hentries, rfl, .close hblanks⟩
    | comma =>
      cases hstands
      cases hmore : scan rest with
      | nil => exact .stops (.object _ .commaEnded) (unreadable_object rfl) fun frames => by rw [resume]
      | cons token ts =>
        by_cases hclose : token = .closeObject
        · subst hclose
          exact .stops (.object _ .commaClosed) (unreadable_object rfl) fun frames => by rw [resume]
        · have hstart : StartsOtherThan .closeObject (scan rest) := ⟨_, _, hmore, hclose⟩
          rw [← hmore]
          refine ((hshorter rest hrest).key _).mono (Nat.le_of_lt hrest)
            (fun frames => resume_object_comma hstart frames before name last) ?_
          rintro json after ⟨entries, tail, hentries, rfl, htail⟩
          exact ⟨entries, tail, hentries, rfl, .comma hblanks htail⟩
    | _ =>
      exact .stops (.object ((name, last) :: before).reverse .noComma) (unreadable_object rfl)
        fun frames => by simp [resume]

end

theorem settled (cs : List Char) : Settled cs := by
  -- Whatever is read after the first token stands in a shorter text.
  generalize hn : cs.length = n
  induction n using Nat.strongRecOn generalizing cs with
  | _ n ih =>
    subst hn
    have hshorter : ∀ rest, rest.length < cs.length → Settled rest :=
      fun rest hrest => ih rest.length hrest rest rfl
    exact ⟨value_settles hshorter, afterItem_settles hshorter, key_settles hshorter,
      afterEntry_settles hshorter⟩

theorem wellFormed_of_readText {text : String} {json : Json} (h : readText readJson text = .ok json) :
    WellFormed text.toList json := by
  rw [readText] at h
  cases (settled text.toList).value with
  | goesOn outline rest _ hrun hread =>
    have hoff : ofText text = (outline, scan rest) := by rw [ofText, hrun, resume]
    simp only [hoff] at h
    obtain ⟨value, hvalue, h⟩ := Outcome.bind_eq_ok_iff.1 h
    split at h
    · next hend =>
      cases h
      obtain ⟨start, hblanks, hspells⟩ := hread json hvalue
      exact ⟨start, rest, hblanks, hspells, Token.blanks_of_scan_eq_nil (List.isEmpty_iff.1 hend)⟩
    · cases h
  | stops outline hunreadable hrun =>
    have hoff : ofText text = (outline, []) := by rw [ofText, hrun, enclose]
    simp only [hoff] at h
    obtain ⟨value, hvalue, -⟩ := Outcome.bind_eq_ok_iff.1 h
    exact absurd hvalue (hunreadable value)

/-- Reading accepts exactly the JSON texts, and gives the value that the text spells. -/
theorem readText_eq_ok_iff {text : String} {json : Json} :
    readText readJson text = .ok json ↔ WellFormed text.toList json :=
  ⟨wellFormed_of_readText, readText_of_wellFormed⟩

end Outline

end ContractBlocks.Json
