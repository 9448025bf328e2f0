import ContractBlocks.Json.Record
import ContractBlocks.Proofs.Outcome
import Mathlib.Data.List.Nodup

namespace ContractBlocks

theorem map_fst_putNamed {α : Type} (name : String) (value : α) (entries : List (String × α)) :
    (putNamed name value entries).map Prod.fst =
      if name ∈ entries.map Prod.fst then entries.map Prod.fst else entries.map Prod.fst ++ [name] := by
  induction entries with
  | nil => simp [putNamed]
  | cons entry rest ih =>
    obtain ⟨other, old⟩ := entry
    by_cases hname : other = name
    · simp [putNamed, hname]
    · by_cases hmem : name ∈ rest.map Prod.fst <;> simp_all [putNamed, Ne.symm hname]

theorem nodup_map_fst_putNamed {α : Type} {name : String} {value : α} {entries : List (String × α)}
    (hnodup : (entries.map Prod.fst).Nodup) : ((putNamed name value entries).map Prod.fst).Nodup := by
  rw [map_fst_putNamed]
  split
  · exact hnodup
  · next hnew => exact List.nodup_append.2 ⟨hnodup, by simp, by rintro a ha b hb rfl; simp_all⟩

theorem putNamed_of_notMem {α : Type} {name : String} {entries : List (String × α)}
    (hnew : name ∉ entries.map Prod.fst) (value : α) :
    putNamed name value entries = entries ++ [(name, value)] := by
  induction entries with
  | nil => rfl
  | cons entry rest ih =>
    rw [List.map_cons, List.mem_cons, not_or] at hnew
    rw [putNamed, if_neg (Ne.symm hnew.1), ih hnew.2, List.cons_append]

theorem mem_putNamed {α : Type} {name : String} {value : α} {entry : String × α}
    {entries : List (String × α)} (hmem : entry ∈ putNamed name value entries) :
    entry = (name, value) ∨ entry ∈ entries := by
  induction entries with
  | nil => simpa [putNamed] using hmem
  | cons first rest ih =>
    obtain ⟨other, old⟩ := first
    by_cases hname : other = name
    · simp only [putNamed, hname, if_true, List.mem_cons] at hmem
      exact hmem.imp_right (List.mem_cons_of_mem _)
    · simp only [putNamed, hname, if_false, List.mem_cons] at hmem
      rcases hmem with hfirst | hrest
      · exact .inr (hfirst ▸ List.mem_cons_self)
      · exact (ih hrest).imp_right (List.mem_cons_of_mem _)

section Lookup

variable {κ α : Type} [BEq κ] [LawfulBEq κ] [DecidableEq κ]

theorem lookup_cons (key : κ) (entry : κ × α) (entries : List (κ × α)) :
    (entry :: entries).lookup key = if key = entry.1 then some entry.2 else entries.lookup key := by
  rw [List.lookup_cons]
  split
  · next heq => rw [if_pos (beq_iff_eq.1 heq)]
  · next hne => rw [if_neg (beq_eq_false_iff_ne.1 hne)]

theorem lookup_eq_none_of_notMem {key : κ} {entries : List (κ × α)} (hnew : key ∉ entries.map Prod.fst) :
    entries.lookup key = none := by
  induction entries with
  | nil => rfl
  | cons entry entries ih =>
    rw [List.map_cons, List.mem_cons, not_or] at hnew
    rw [lookup_cons, if_neg hnew.1, ih hnew.2]

theorem exists_lookup_of_mem {key : κ} {entries : List (κ × α)} (hmem : key ∈ entries.map Prod.fst) :
    ∃ value, entries.lookup key = some value := by
  induction entries with
  | nil => cases hmem
  | cons entry entries ih =>
    rw [lookup_cons]
    split
    · exact ⟨entry.2, rfl⟩
    · next hne => exact ih ((List.mem_cons.1 hmem).resolve_left hne)

/-- Where keys are distinct, their order does not matter. -/
theorem lookup_eq_of_perm {entries others : List (κ × α)} (hperm : entries.Perm others)
    (hnodup : (entries.map Prod.fst).Nodup) (key : κ) : entries.lookup key = others.lookup key := by
  induction hperm with
  | nil => rfl
  | cons entry _ ih => rw [lookup_cons, lookup_cons, ih (List.nodup_cons.1 hnodup).2]
  | swap first second rest =>
    have hne : second.1 ≠ first.1 := fun heq => (List.nodup_cons.1 hnodup).1 (heq ▸ List.mem_cons_self)
    simp only [lookup_cons]
    by_cases hkey : key = second.1
    · rw [if_pos hkey, if_neg (hkey ▸ hne), if_pos hkey]
    · rw [if_neg hkey, if_neg hkey]
  | trans hfirst _ ih ihrest => rw [ih hnodup, ihrest ((hfirst.map Prod.fst).nodup_iff.1 hnodup)]

/-- A list of entries with distinct keys is known by its keys in their order and by what they lead to. -/
theorem eq_of_lookup_eq {entries others : List (κ × α)} (hkeys : entries.map Prod.fst = others.map Prod.fst)
    (hnodup : (others.map Prod.fst).Nodup) (hlookup : ∀ key, entries.lookup key = others.lookup key) :
    entries = others := by
  induction entries generalizing others with
  | nil => exact (List.map_eq_nil_iff.1 hkeys.symm).symm
  | cons entry entries ih =>
    cases others with
    | nil => cases hkeys
    | cons other others =>
      obtain ⟨hkey, hkeys⟩ := List.cons.inj hkeys
      obtain ⟨hnew, hnodup⟩ := List.nodup_cons.1 hnodup
      have hvalue : entry.2 = other.2 := by simpa [lookup_cons, hkey] using hlookup other.1
      refine congrArg₂ _ (Prod.ext hkey hvalue) (ih hkeys hnodup fun key => ?_)
      by_cases hsame : key = other.1
      · rw [hsame, lookup_eq_none_of_notMem hnew, lookup_eq_none_of_notMem (hkeys ▸ hnew)]
      · simpa [lookup_cons, hkey, hsame] using hlookup key

end Lookup

theorem lookup_putNamed {α : Type} (name other : String) (value : α) (entries : List (String × α)) :
    (putNamed name value entries).lookup other = if other = name then some value else entries.lookup other := by
  induction entries with
  | nil => rw [putNamed, lookup_cons]
  | cons entry rest ih =>
    by_cases hname : entry.1 = name
    · rw [putNamed, if_pos hname, lookup_cons, lookup_cons, hname]
      by_cases hother : other = name
      · simp [hother]
      · simp [hother]
    · rw [putNamed, if_neg hname, lookup_cons, lookup_cons, ih]
      by_cases hfirst : other = entry.1
      · rw [if_pos hfirst, if_neg (hfirst ▸ hname)]
        exact (if_pos hfirst).symm
      · simp [hfirst]

namespace Json.Outline

open Outcome

theorem yields_readNamed {α : Type} {read : Outline → Except Fault α} {before : List (String × α)}
    {entries : List (Literal × Outline)} (hbefore : (before.map Prod.fst).Nodup) :
    Yields (readNamed read before entries) fun named => (named.map Prod.fst).Nodup := by
  induction entries generalizing before with
  | nil => exact .ok hbefore
  | cons entry entries ih =>
    exact .after fun key => .after fun value => ih (nodup_map_fst_putNamed hbefore)

theorem yields_readMap {α : Type} (read : Outline → Except Fault α) (outline : Outline) :
    Yields (outline.readMap read) fun named => (named.map Prod.fst).Nodup := by
  unfold readMap
  split
  · exact (yields_readNamed (by simp)).bind fun named hnamed => .after fun _ => .ok hnamed
  · exact .error _

theorem yields_readList {α : Type} {read : Outline → Except Fault α} {post : α → Prop}
    (hread : ∀ outline, Yields (read outline) post) (outline : Outline) :
    Yields (outline.readList read) fun items => ∀ item ∈ items, post item := by
  unfold readList
  split
  · exact (Yields.mapM hread).bind fun items hitems => .after fun _ => .ok hitems
  · exact .error _

theorem yields_readOptional {α : Type} {read : Outline → Except Fault α} {post : α → Prop}
    (hread : ∀ outline, Yields (read outline) post) (outline : Outline) :
    Yields (outline.readOptional read) fun value => ∀ a ∈ value, post a := by
  unfold readOptional
  split
  · exact .ok (by simp)
  · exact (hread _).map (by simp)

section Records

variable {σ : Type} {shape : RecordShape} {read : σ → String → Outline → Except Fault σ}
  {post : σ → Prop} (hread : ∀ state name outline, post state → Yields (read state name outline) post)

include hread

theorem yields_readFields {state : σ} {seen : List String} {entries : List (Literal × Outline)}
    (hstate : post state) : Yields (readFields shape read state seen entries) post := by
  induction entries generalizing state seen with
  | nil => exact .ok hstate
  | cons entry entries ih =>
    rw [readFields]
    refine .after fun name => ?_
    split
    · split
      · exact .error _
      · exact (hread state name entry.2 hstate).bind fun state hstate => ih hstate
    · exact .after fun _ => ih hstate

theorem yields_readPositions {state : σ} {ending : ListEnd} {left : List (String × Bool)}
    {items : List Outline} (hstate : post state) :
    Yields (readPositions shape read state ending left items) post := by
  fun_induction readPositions shape read state ending left items with
  | case1 state => exact .after fun _ => .ok hstate
  | case2 => exact .error _
  | case3 state left => exact .after fun _ => .after fun _ => .ok hstate
  | case4 state name required left item items ih =>
    exact (hread state name item hstate).bind fun state hstate => ih state hstate

theorem yields_readRecord {state : σ} (hstate : post state) (outline : Outline) :
    Yields (outline.readRecord shape read state) post := by
  unfold readRecord
  split
  · exact (yields_readFields hread hstate).bind fun state hstate => .after fun _ => .ok hstate
  · exact yields_readPositions hread hstate
  · exact .error _

end Records

end Json.Outline

end ContractBlocks
