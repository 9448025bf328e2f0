import ContractBlocks.Proofs.Json.Drawn
import ContractBlocks.Proofs.Json.Named

namespace ContractBlocks.Json

/-- The entries of an object once further ones have been put to those before, in the order of the text. -/
def putAll (before written : List (String × Json)) : List (String × Json) :=
  written.foldl (fun entries entry => putNamed entry.1 entry.2 entries) before

theorem merges_putAll (written : List (String × Json)) : Merges written (putAll [] written) := by
  induction written using List.reverseRecOn with
  | nil => exact ⟨rfl, fun _ => rfl⟩
  | append_singleton written entry ih =>
    obtain ⟨name, value⟩ := entry
    have hput : putAll [] (written ++ [(name, value)]) = putNamed name value (putAll [] written) :=
      List.foldl_concat ..
    constructor
    · rw [hput, map_fst_putNamed, ih.keys, List.map_append, List.eraseDups_append]
      by_cases hold : name ∈ written.map Prod.fst
      · rw [if_pos (List.mem_eraseDups.2 hold)]
        simp_all [List.removeAll]
      · rw [if_neg fun hmem => hold (List.mem_eraseDups.1 hmem)]
        simp_all [List.removeAll, List.eraseDups_cons]
    · intro key
      rw [hput, lookup_putNamed, ih.values, List.reverse_append, List.reverse_singleton, List.singleton_append,
        lookup_cons]

theorem nodup_putAll {before : List (String × Json)} (hbefore : (before.map Prod.fst).Nodup)
    (written : List (String × Json)) : ((putAll before written).map Prod.fst).Nodup := by
  induction written generalizing before with
  | nil => exact hbefore
  | cons entry written ih => exact ih (nodup_map_fst_putNamed hbefore)

theorem Merges.eq_putAll {written entries : List (String × Json)} (h : Merges written entries) :
    entries = putAll [] written := by
  have hput := merges_putAll written
  have hnodup : ((putAll [] written).map Prod.fst).Nodup := nodup_putAll (by simp) written
  exact eq_of_lookup_eq (h.keys.trans hput.keys.symm) hnodup
    fun key => (h.values key).trans (hput.values key).symm

namespace Outline

/-- The text of a phrase draws an outline that is read to the phrase. Entries are read to their phrase
    after any others. -/
def Parsed : Phrase → List Char → List Char → Prop
  | .value json, cs, rest => ∃ outline, Draws (.value outline) cs rest ∧ outline.readJson = .ok json
  | .items items, cs, rest => ∃ outlines, Draws (.items outlines) cs rest ∧ readItems outlines = .ok items
  | .entries entries, cs, rest =>
    ∃ outlines, Draws (.entries outlines) cs rest ∧
      ∀ before, readEntries before outlines = .ok (putAll before entries)

/-- The text of a phrase is read to that phrase. -/
theorem parsed_of_spells {phrase : Phrase} {cs rest : List Char} (h : Spells phrase cs rest) :
    Parsed phrase cs rest := by
  induction h with
  | null => exact ⟨_, .null, rfl⟩
  | true => exact ⟨_, .true, rfl⟩
  | false => exact ⟨_, .false, rfl⟩
  | number htext hvalue =>
    refine ⟨_, .number htext, ?_⟩
    rw [readJson, readNumber, htext.number?_eq_some_iff.2 hvalue]
    rfl
  | string hletters => exact ⟨_, .string (.of_letters hletters), rfl⟩
  | emptyList hclose => exact ⟨_, .emptyList hclose, rfl⟩
  | list _ ih =>
    obtain ⟨outlines, hdraws, hread⟩ := ih
    refine ⟨_, .list hdraws, ?_⟩
    rw [readJson, hread]
    rfl
  | emptyObject hclose => exact ⟨_, .emptyObject hclose, rfl⟩
  | object _ hmerges ih =>
    obtain ⟨outlines, hdraws, hread⟩ := ih
    refine ⟨_, .object hdraws, ?_⟩
    rw [readJson, hread, hmerges.eq_putAll]
    rfl
  | lastItem hblanks _ hclose ih =>
    obtain ⟨outline, hdraws, hread⟩ := ih
    refine ⟨_, .lastItem hblanks hdraws hclose, ?_⟩
    rw [readItems, hread]
    rfl
  | item hblanks _ hcomma _ ih ihs =>
    obtain ⟨outline, hdraws, hread⟩ := ih
    obtain ⟨outlines, hdrawss, hreads⟩ := ihs
    refine ⟨_, .item hblanks hdraws hcomma hdrawss, ?_⟩
    rw [readItems, hread, hreads]
    rfl
  | lastEntry hquote hkey hcolon hblanks _ hclose ih =>
    obtain ⟨outline, hdraws, hread⟩ := ih
    refine ⟨_, .lastEntry hquote (.of_letters hkey) hcolon hblanks hdraws hclose, fun before => ?_⟩
    rw [readEntries, hread]
    rfl
  | entry hquote hkey hcolon hblanks _ hcomma _ ih ihs =>
    obtain ⟨outline, hdraws, hread⟩ := ih
    obtain ⟨outlines, hdrawss, hreads⟩ := ihs
    refine ⟨_, .entry hquote (.of_letters hkey) hcolon hblanks hdraws hcomma hdrawss, fun before => ?_⟩
    rw [readEntries, hread]
    exact hreads _

/-- A JSON text is read to the value that it spells. -/
theorem readText_of_wellFormed {text : String} {json : Json} (h : WellFormed text.toList json) :
    readText readJson text = .ok json := by
  obtain ⟨start, after, hblanks, hspells, hend⟩ := h
  obtain ⟨outline, hdraws, hread⟩ := parsed_of_spells hspells
  rw [readText, ofText_of_drawn ⟨start, after, hblanks, hdraws, hend⟩]
  simp only [hread]
  rfl

end Outline

end ContractBlocks.Json
