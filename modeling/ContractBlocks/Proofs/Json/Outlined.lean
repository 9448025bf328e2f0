import ContractBlocks.Json.Record
import ContractBlocks.Proofs.Json.Written
import Mathlib.Data.List.Forall2

namespace ContractBlocks.Json

/-- An entry of an outline has the key of an entry and shows its value. -/
inductive EntryOutlines (shows : Json → Outline → Prop) : String × Json → Literal × Outline → Prop
  | mk {name : String} {json : Json} {outline : Outline} (hvalue : shows json outline) :
    EntryOutlines shows (name, json) (.ofString name, outline)

/-- An outline shows a value entry by entry: unlike a value that is read from it, it cannot have a key
    more often than the value has. -/
inductive Outlines : Json → Outline → Prop
  | null : Outlines .null .null
  | bool (b : Bool) : Outlines (.bool b) (.bool b)
  | number {m : Numeral} {n : Number} (hvalue : m.number? = some n) : Outlines (.number n) (.number m)
  | string (s : String) : Outlines (.string s) (.string (.ofString s))
  | list {items : List Json} {shown : List Outline} (hitems : List.Forall₂ Outlines items shown) :
    Outlines (.list items) (.list shown .closed)
  | object {entries : List (String × Json)} {shown : List (Literal × Outline)}
      (hentries : List.Forall₂ (EntryOutlines Outlines) entries shown) :
    Outlines (.object entries) (.object shown .closed)

/-- A text up to `rest` draws an outline that shows the value. -/
def Opens (json : Json) (cs rest : List Char) : Prop :=
  ∃ outline, Outlines json outline ∧ Draws (.value outline) cs rest

section

variable {layout : Layout} (hlayout : layout.IsBlank)

include hlayout

theorem opens_items {items : List Json}
    (hitems : ∀ item ∈ items, ∀ depth rest, Opens item (writeOnto layout depth item rest) rest) (depth : Nat)
    (rest : List Char) :
    ∃ shown, List.Forall₂ Outlines items shown ∧ ∀ first cs text, Blanks cs text →
      Draws (.value first) text (writeItemsOnto layout depth items rest) → Draws (.items (first :: shown)) cs rest := by
  induction items with
  | nil =>
    refine ⟨[], .nil, fun first cs text hblanks hfirst => ?_⟩
    exact .lastItem hblanks hfirst (blanks_append (hlayout.lineBreak depth) _)
  | cons item items ih =>
    obtain ⟨shown, hshown, htail⟩ := ih fun other hother => hitems other (List.mem_cons_of_mem item hother)
    obtain ⟨outline, houtline, hdraws⟩ := hitems item List.mem_cons_self (depth + 1) _
    refine ⟨outline :: shown, .cons houtline hshown, fun first cs text hblanks hfirst => ?_⟩
    exact .item hblanks hfirst .nil (htail _ _ _ (blanks_append (hlayout.lineBreak _) _) hdraws)

theorem opens_entries {entries : List (String × Json)}
    (hentries : ∀ entry ∈ entries, ∀ depth rest, Opens entry.2 (writeOnto layout depth entry.2 rest) rest)
    (depth : Nat) (rest : List Char) :
    ∃ shown, List.Forall₂ (EntryOutlines Outlines) entries shown ∧ ∀ name first text,
      Draws (.value first) text (writeEntriesOnto layout depth entries rest) →
        Draws (.entries ((.ofString name, first) :: shown))
          (layout.lineBreak (depth + 1) ++ quoteOnto name (layout.afterKey ++ text)) rest := by
  obtain ⟨spaces, hcolon, hspaces⟩ := hlayout.afterKey
  induction entries with
  | nil =>
    refine ⟨[], .nil, fun name first text hfirst => ?_⟩
    obtain ⟨letters, hquote, hletters⟩ := letters_quoteOnto name (layout.afterKey ++ text)
    rw [hcolon] at hletters
    rw [hquote]
    exact .lastEntry (blanks_append (hlayout.lineBreak _) _) (.of_letters hletters) .nil (blanks_append hspaces _)
      hfirst (blanks_append (hlayout.lineBreak depth) _)
  | cons entry entries ih =>
    obtain ⟨shown, hshown, htail⟩ := ih fun other hother => hentries other (List.mem_cons_of_mem entry hother)
    obtain ⟨outline, houtline, hdraws⟩ := hentries entry List.mem_cons_self (depth + 1) _
    refine ⟨(.ofString entry.1, outline) :: shown, .cons (.mk houtline) hshown, fun name first text hfirst => ?_⟩
    obtain ⟨letters, hquote, hletters⟩ := letters_quoteOnto name (layout.afterKey ++ text)
    rw [hcolon] at hletters
    rw [hquote]
    exact .entry (blanks_append (hlayout.lineBreak _) _) (.of_letters hletters) .nil (blanks_append hspaces _)
      hfirst .nil (htail _ _ _ hdraws)

/-- The text of a plain value in a blank layout draws an outline that shows the value. -/
theorem Plain.opens_writeOnto {json : Json} (h : json.Plain) (depth : Nat) (rest : List Char) :
    Opens json (writeOnto layout depth json rest) rest := by
  induction h generalizing depth rest with
  | null => exact ⟨_, .null, .null⟩
  | bool b =>
    cases b with
    | true => exact ⟨_, .bool _, .true⟩
    | false => exact ⟨_, .bool _, .false⟩
  | whole z fits =>
    obtain ⟨m, htext, hnumber⟩ := exists_numeralText_whole fits
    exact ⟨_, .number (htext.number?_eq_some_iff.2 hnumber), .number htext⟩
  | string s =>
    obtain ⟨letters, hquote, hletters⟩ := letters_quoteOnto s rest
    rw [writeOnto, hquote]
    exact ⟨_, .string s, .string (.of_letters hletters)⟩
  | @list items _ ih =>
    cases items with
    | nil => exact ⟨_, .list .nil, .emptyList .nil⟩
    | cons item items =>
      obtain ⟨shown, hshown, htail⟩ := opens_items hlayout
        (fun other hother => ih other (List.mem_cons_of_mem item hother)) depth rest
      obtain ⟨outline, houtline, hdraws⟩ := ih item List.mem_cons_self (depth + 1) _
      rw [writeOnto]
      exact ⟨_, .list (.cons houtline hshown), .list (htail _ _ _ (blanks_append (hlayout.lineBreak _) _) hdraws)⟩
  | @object entries _ _ ih =>
    cases entries with
    | nil => exact ⟨_, .object .nil, .emptyObject .nil⟩
    | cons entry entries =>
      obtain ⟨shown, hshown, htail⟩ := opens_entries hlayout
        (fun other hother => ih other (List.mem_cons_of_mem entry hother)) depth rest
      obtain ⟨outline, houtline, hdraws⟩ := ih entry List.mem_cons_self (depth + 1) _
      rw [writeOnto]
      exact ⟨_, .object (.cons (.mk houtline) hshown), .object (htail _ _ _ hdraws)⟩

end

namespace Outline

open Outcome

variable {α β σ : Type}

/-- A reader makes a result of every outline that shows a value. -/
def Reads (read : Outline → Except Fault α) (json : Json) (a : α) : Prop :=
  ∀ outline, Outlines json outline → read outline = .ok a

/-- Where a plain value is read to a result, so is its text. -/
theorem readText_of_reads {layout : Layout} (hlayout : layout.IsBlank) {read : Outline → Except Fault α} {json : Json}
    {a : α} (hplain : json.Plain) (hread : Reads read json a) :
    readText read (String.ofList (writeOnto layout 0 json [])) = .ok a := by
  obtain ⟨outline, houtline, hdraws⟩ := hplain.opens_writeOnto hlayout 0 []
  have hdrawn : Drawn (String.ofList (writeOnto layout 0 json [])).toList outline := by
    rw [String.toList_ofList]
    exact ⟨_, [], .nil, hdraws, .nil⟩
  rw [readText, ofText_of_drawn hdrawn]
  simp [hread outline houtline]

theorem Reads.bind {read : Outline → Except Fault α} {f : α → Except Fault β} {json : Json} {a : α} {b : β}
    (hread : Reads read json a) (hf : f a = .ok b) : Reads (fun outline => read outline >>= f) json b :=
  fun outline houtline => bind_eq_ok_iff.2 ⟨a, hread outline houtline, hf⟩

theorem reads_string (expected s : String) : Reads (readString expected) (.string s) s := by
  rintro _ ⟨⟩
  rfl

theorem reads_null (read : Outline → Except Fault α) : Reads (readOptional read) .null none := by
  rintro _ ⟨⟩
  rfl

theorem reads_optional {read : Outline → Except Fault α} {json : Json} {a : α} (hnull : json ≠ .null)
    (hread : Reads read json a) : Reads (readOptional read) json (some a) := by
  intro outline houtline
  unfold readOptional
  split
  · cases houtline
    exact absurd rfl hnull
  · rw [hread _ houtline]
    rfl

theorem mapM_of_reads {read : Outline → Except Fault α} {doc : α → Json} {found : List α} {shown : List Outline}
    (hread : ∀ a ∈ found, Reads read (doc a) a) (hshown : List.Forall₂ Outlines (found.map doc) shown) :
    shown.mapM read = .ok found := by
  induction found generalizing shown with
  | nil =>
    cases hshown
    rfl
  | cons a found ih =>
    cases hshown with
    | cons houtline hrest =>
      rw [List.mapM_cons, hread a List.mem_cons_self _ houtline,
        ok_bind, ih (fun other hother => hread other (List.mem_cons_of_mem a hother)) hrest]
      rfl

theorem reads_list {read : Outline → Except Fault α} {doc : α → Json} {found : List α}
    (hread : ∀ a ∈ found, Reads read (doc a) a) : Reads (readList read) (.list (found.map doc)) found := by
  intro outline houtline
  cases houtline with
  | list hshown =>
    rw [readList, mapM_of_reads hread hshown]
    rfl

theorem readNamed_of_reads {read : Outline → Except Fault α} {doc : α → Json} (before : List (String × α))
    {found : List (String × α)} {shown : List (Literal × Outline)}
    (hread : ∀ entry ∈ found, Reads read (doc entry.2) entry.2)
    (hkeys : ((before ++ found).map Prod.fst).Nodup)
    (hshown : List.Forall₂ (EntryOutlines Outlines) (found.map fun (name, a) => (name, doc a)) shown) :
    readNamed read before shown = .ok (before ++ found) := by
  induction found generalizing before shown with
  | nil =>
    cases hshown
    rw [List.append_nil]
    rfl
  | cons entry found ih =>
    obtain ⟨name, a⟩ := entry
    cases hshown with
    | cons hentry hrest =>
      cases hentry with
      | mk hvalue =>
        have hnew : name ∉ before.map Prod.fst := by
          intro hmem
          rw [List.map_append, List.nodup_append] at hkeys
          exact hkeys.2.2 _ hmem _ List.mem_cons_self rfl
        rw [List.append_cons] at hkeys ⊢
        rw [readNamed, Literal.ofString, hread (name, a) List.mem_cons_self _ hvalue]
        simp only [ok_bind, putNamed_of_notMem hnew]
        exact ih _ (fun other hother => hread other (List.mem_cons_of_mem _ hother)) hkeys hrest

theorem reads_map {read : Outline → Except Fault α} {doc : α → Json} {found : List (String × α)}
    (hkeys : (found.map Prod.fst).Nodup) (hread : ∀ entry ∈ found, Reads read (doc entry.2) entry.2) :
    Reads (readMap read) (.object (found.map fun (name, a) => (name, doc a))) found := by
  intro outline houtline
  cases houtline with
  | object hshown =>
    have hnamed := readNamed_of_reads [] hread hkeys hshown
    rw [readMap, hnamed]
    rfl

section Records

variable {shape : RecordShape} {read : σ → String → Outline → Except Fault σ} {state next result : σ}
  {seen : List String} {name : String} {json : Json}

/-- Reading goes over the entries of a record from one state to another. -/
def ReadsFields (shape : RecordShape) (read : σ → String → Outline → Except Fault σ) (state : σ)
    (seen : List String) (entries : List (String × Json)) (result : σ) : Prop :=
  ∀ shown, List.Forall₂ (EntryOutlines Outlines) entries shown →
    readFields shape read state seen shown = .ok result

theorem ReadsFields.nil : ReadsFields shape read state seen [] state := by
  rintro _ ⟨⟩
  rfl

theorem ReadsFields.cons {entries : List (String × Json)} (hfield : shape.has name) (hnew : name ∉ seen)
    (hvalue : Reads (read state name) json next) (hrest : ReadsFields shape read next (name :: seen) entries result) :
    ReadsFields shape read state seen ((name, json) :: entries) result := by
  intro shown hshown
  cases hshown with
  | cons hentry htail =>
    cases hentry with
    | mk houtline =>
      rw [readFields, Literal.ofString]
      simp only [ok_bind, hfield, if_true, hnew, if_false, hvalue _ houtline]
      exact hrest _ htail

theorem reads_record {entries : List (String × Json)} (hfields : ReadsFields shape read state [] entries result) :
    Reads (readRecord shape read state) (.object entries) result := by
  intro outline houtline
  cases houtline with
  | object hshown =>
    rw [readRecord, hfields _ hshown]
    rfl

/-- Reading goes over the items of a record that is written as a list from one state to another. -/
def ReadsPositions (shape : RecordShape) (read : σ → String → Outline → Except Fault σ) (state : σ)
    (left : List (String × Bool)) (items : List Json) (result : σ) : Prop :=
  ∀ shown, List.Forall₂ Outlines items shown → readPositions shape read state .closed left shown = .ok result

theorem ReadsPositions.nil : ReadsPositions shape read state [] [] state := by
  rintro _ ⟨⟩
  rfl

theorem ReadsPositions.cons {must : Bool} {left : List (String × Bool)} {items : List Json}
    (hvalue : Reads (read state name) json next) (hrest : ReadsPositions shape read next left items result) :
    ReadsPositions shape read state ((name, must) :: left) (json :: items) result := by
  intro shown hshown
  cases hshown with
  | cons houtline htail =>
    rw [readPositions, hvalue _ houtline]
    exact hrest _ htail

end Records

section Variants

variable {ν : Type} {variant : String → Except Fault ν} {content : ν → Option Outline → Except Fault α} {v : ν}
  {name : String} {a : α}

theorem reads_variant_name (hvariant : variant name = .ok v) (hcontent : content v none = .ok a) :
    Reads (readVariant variant content) (.string name) a := by
  rintro _ ⟨⟩
  simp only [readVariant, Literal.ofString, ok_bind, hvariant, hcontent]

theorem reads_variant_content {json : Json} (hvariant : variant name = .ok v)
    (hcontent : Reads (fun outline => content v (some outline)) json a) :
    Reads (readVariant variant content) (.object [(name, json)]) a := by
  intro outline houtline
  cases houtline with
  | object hshown =>
    cases hshown with
    | cons hentry hnone =>
      cases hnone
      cases hentry with
      | mk hvalue =>
        simp only [readVariant, Literal.ofString, ok_bind, hvariant, hcontent _ hvalue]
        rfl

end Variants

end Outline

end ContractBlocks.Json
