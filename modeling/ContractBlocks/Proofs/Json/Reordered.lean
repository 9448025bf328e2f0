import ContractBlocks.Json.Shape
import ContractBlocks.Proofs.Json.Named
import Mathlib.Data.List.Forall2
import Mathlib.Data.List.Nodup

namespace ContractBlocks.Json

theorem shape_perm (entries : List (String × Json)) : (shape entries).Perm (entries.map Prod.fst) :=
  List.mergeSort_perm _ _

theorem pairwise_shape (entries : List (String × Json)) : (shape entries).Pairwise (· ≤ ·) := by
  have htrans (a b c : String) (hab : decide (a ≤ b)) (hbc : decide (b ≤ c)) : decide (a ≤ c) = true :=
    decide_eq_true (String.le_trans (of_decide_eq_true hab) (of_decide_eq_true hbc))
  have htotal (a b : String) : (decide (a ≤ b) || decide (b ≤ a)) = true := by
    rw [Bool.or_eq_true, decide_eq_true_iff, decide_eq_true_iff]
    exact String.le_total a b
  exact (List.pairwise_mergeSort htrans htotal (entries.map Prod.fst)).imp of_decide_eq_true

/-- The shape of an object is the one ascending list of its keys. -/
theorem shape_eq_of_perm {entries : List (String × Json)} {keys : List String}
    (hascending : keys.Pairwise (· ≤ ·)) (hperm : (entries.map Prod.fst).Perm keys) : shape entries = keys :=
  List.Perm.eq_of_pairwise (fun _ _ _ _ => String.le_antisymm) (pairwise_shape entries) hascending
    ((shape_perm entries).trans hperm)

theorem shape_eq_shape {entries others : List (String × Json)}
    (hperm : (entries.map Prod.fst).Perm (others.map Prod.fst)) : shape entries = shape others :=
  shape_eq_of_perm (pairwise_shape others) (hperm.trans (shape_perm others).symm)

/-- Puts a key before the first one that is not smaller. -/
@[simp] def insertKey (key : String) : List String → List String
  | [] => [key]
  | other :: rest => if key ≤ other then key :: other :: rest else other :: insertKey key rest

theorem insertKey_perm (key : String) (keys : List String) : (insertKey key keys).Perm (key :: keys) := by
  induction keys with
  | nil => exact .refl _
  | cons other rest ih =>
    rw [insertKey]
    split
    · exact .refl _
    · exact (ih.cons other).trans (.swap key other rest)

theorem pairwise_insertKey {keys : List String} (key : String) (hascending : keys.Pairwise (· ≤ ·)) :
    (insertKey key keys).Pairwise (· ≤ ·) := by
  induction keys with
  | nil => exact List.pairwise_singleton _ _
  | cons other rest ih =>
    rw [List.pairwise_cons] at hascending
    rw [insertKey]
    split
    · next hle =>
      refine List.pairwise_cons.2 ⟨fun next hnext => ?_, List.pairwise_cons.2 hascending⟩
      rcases List.mem_cons.1 hnext with rfl | hrest
      · exact hle
      · exact String.le_trans hle (hascending.1 next hrest)
    · next hnot =>
      refine List.pairwise_cons.2 ⟨fun next hnext => ?_, ih hascending.2⟩
      rcases List.mem_cons.1 ((insertKey_perm key rest).mem_iff.1 hnext) with rfl | hrest
      · exact (String.le_total next other).resolve_left hnot
      · exact hascending.1 next hrest

@[simp] theorem shape_nil : shape [] = [] :=
  List.mergeSort_nil

@[simp] theorem shape_cons (entry : String × Json) (entries : List (String × Json)) :
    shape (entry :: entries) = insertKey entry.1 (shape entries) :=
  shape_eq_of_perm (pairwise_insertKey entry.1 (pairwise_shape entries))
    (((shape_perm entries).cons entry.1).symm.trans (insertKey_perm _ _).symm)

theorem nodup_keys_iff {entries : List (String × Json)} : (entries.map Prod.fst).Nodup ↔ (shape entries).Nodup :=
  (shape_perm entries).nodup_iff.symm

/-- Two values are equal up to the order of the entries in their objects, at any depth. -/
inductive Reordered : Json → Json → Prop
  | refl (json : Json) : Reordered json json
  | trans {a b c : Json} (hab : Reordered a b) (hbc : Reordered b c) : Reordered a c
  | entries {entries others : List (String × Json)} (hperm : entries.Perm others) :
    Reordered (.object entries) (.object others)
  | inList {before after : List Json} {a b : Json} (hab : Reordered a b) :
    Reordered (.list (before ++ a :: after)) (.list (before ++ b :: after))
  | inObject {before after : List (String × Json)} {key : String} {a b : Json} (hab : Reordered a b) :
    Reordered (.object (before ++ (key, a) :: after)) (.object (before ++ (key, b) :: after))

namespace Reordered

variable {a b : Json} {items : List Json} {entries : List (String × Json)}

theorem symm (h : Reordered a b) : Reordered b a := by
  induction h with
  | refl json => exact .refl json
  | trans _ _ ihab ihbc => exact ihbc.trans ihab
  | entries hperm => exact .entries hperm.symm
  | inList _ ih => exact .inList ih
  | inObject _ ih => exact .inObject ih

theorem eq_of_scalar (h : Reordered a b) (hscalar : a.size = 0) : b = a := by
  induction h with
  | refl json => rfl
  | trans _ _ ihab ihbc =>
    obtain rfl := ihab hscalar
    exact ihbc hscalar
  | entries | inList | inObject => cases hscalar

theorem forall₂_trans {others more : List Json} (h : List.Forall₂ Reordered items others)
    (hmore : List.Forall₂ Reordered others more) : List.Forall₂ Reordered items more := by
  induction h generalizing more with
  | nil => exact hmore
  | cons hab _ ih =>
    cases hmore with
    | cons hbc hmore => exact .cons (hab.trans hbc) (ih hmore)

/-- What a list is reordered to is a list, item by item. -/
theorem exists_items (h : Reordered (.list items) b) :
    ∃ others, b = .list others ∧ List.Forall₂ Reordered items others := by
  have hsame (items : List Json) : List.Forall₂ Reordered items items :=
    List.forall₂_same.2 fun item _ => .refl item
  generalize hlist : Json.list items = a at h
  induction h generalizing items with
  | refl json => exact ⟨items, hlist.symm, hsame items⟩
  | trans _ _ ihab ihbc =>
    obtain ⟨middle, rfl, hmiddle⟩ := ihab hlist
    obtain ⟨others, rfl, hothers⟩ := ihbc rfl
    exact ⟨others, rfl, forall₂_trans hmiddle hothers⟩
  | @inList before after a b hab =>
    cases hlist
    exact ⟨_, rfl, List.rel_append (hsame before) (.cons hab (hsame after))⟩
  | entries | inObject => cases hlist

theorem list_of_forall₂ {others : List Json} (h : List.Forall₂ Reordered items others) (before : List Json) :
    Reordered (.list (before ++ items)) (.list (before ++ others)) := by
  induction h generalizing before with
  | nil => exact .refl _
  | @cons item other items others hitem _ ih =>
    have hrest := ih (before ++ [other])
    rw [List.append_assoc, List.append_assoc] at hrest
    exact (inList hitem).trans hrest

/-- What an object is reordered to is an object with the same keys. If they are distinct, then what stands
    under each of them is reordered too. -/
theorem exists_entries (h : Reordered (.object entries) b) :
    ∃ others, b = .object others ∧ (entries.map Prod.fst).Perm (others.map Prod.fst) ∧
      ((entries.map Prod.fst).Nodup → ∀ key value, entries.lookup key = some value →
        ∃ other, others.lookup key = some other ∧ Reordered value other) := by
  generalize hobject : Json.object entries = a at h
  induction h generalizing entries with
  | refl json => exact ⟨entries, hobject.symm, .refl _, fun _ key value hvalue => ⟨value, hvalue, .refl value⟩⟩
  | trans _ _ ihab ihbc =>
    obtain ⟨middle, rfl, hkeys, hmiddle⟩ := ihab hobject
    obtain ⟨others, rfl, hkeys', hothers⟩ := ihbc rfl
    refine ⟨others, rfl, hkeys.trans hkeys', fun hnodup key value hvalue => ?_⟩
    obtain ⟨inner, hinner, hab⟩ := hmiddle hnodup key value hvalue
    obtain ⟨other, hother, hbc⟩ := hothers (hkeys.nodup_iff.1 hnodup) key inner hinner
    exact ⟨other, hother, hab.trans hbc⟩
  | entries hperm =>
    cases hobject
    refine ⟨_, rfl, hperm.map Prod.fst, fun hnodup key value hvalue => ⟨value, ?_, .refl value⟩⟩
    rwa [← lookup_eq_of_perm hperm hnodup]
  | @inObject before after name a b hab =>
    cases hobject
    refine ⟨_, rfl, by simp, fun _ key value hvalue => ?_⟩
    rw [List.lookup_append, lookup_cons] at hvalue ⊢
    cases hbefore : before.lookup key with
    | some found =>
      rw [hbefore] at hvalue
      exact ⟨found, rfl, Option.some.inj hvalue ▸ .refl _⟩
    | none =>
      rw [hbefore, Option.none_or] at hvalue
      rw [Option.none_or]
      split at hvalue
      · next hname =>
        rw [if_pos hname]
        exact ⟨b, rfl, Option.some.inj hvalue ▸ hab⟩
      · next hname =>
        rw [if_neg hname]
        exact ⟨value, hvalue, .refl value⟩
  | inList => cases hobject

theorem shape_eq {others : List (String × Json)} (h : Reordered (.object entries) (.object others)) :
    shape entries = shape others := by
  obtain ⟨others', hothers, hkeys, -⟩ := h.exists_entries
  cases hothers
  exact shape_eq_shape hkeys

theorem object_of_forall₂ {others : List (String × Json)}
    (h : List.Forall₂ (fun entry other => entry.1 = other.1 ∧ Reordered entry.2 other.2) entries others)
    (before : List (String × Json)) : Reordered (.object (before ++ entries)) (.object (before ++ others)) := by
  induction h generalizing before with
  | nil => exact .refl _
  | @cons entry other entries others hentry _ ih =>
    obtain ⟨key, value⟩ := entry
    obtain ⟨rfl, hvalue⟩ := hentry
    have hrest := ih (before ++ [other])
    rw [List.append_assoc, List.append_assoc] at hrest
    exact (inObject hvalue).trans hrest

/-- Entries with distinct keys can be put in the order of others with the same keys. -/
theorem exists_perm_forall₂ {others : List (String × Json)} (hkeys : (entries.map Prod.fst).Perm (others.map Prod.fst))
    (hnodup : (entries.map Prod.fst).Nodup)
    (h : ∀ other ∈ others, ∃ value, entries.lookup other.1 = some value ∧ Reordered value other.2) :
    ∃ middle, entries.Perm middle ∧
      List.Forall₂ (fun entry other => entry.1 = other.1 ∧ Reordered entry.2 other.2) middle others := by
  induction others generalizing entries with
  | nil =>
    rw [List.map_nil, List.perm_nil, List.map_eq_nil_iff] at hkeys
    exact ⟨[], hkeys ▸ .refl _, .nil⟩
  | cons other others ih =>
    obtain ⟨value, hvalue, hreordered⟩ := h other List.mem_cons_self
    obtain ⟨before, after, hentries, -⟩ := List.lookup_eq_some_iff.1 hvalue
    have hperm : entries.Perm ((other.1, value) :: (before ++ after)) := hentries ▸ List.perm_middle
    have hcons := (hperm.map Prod.fst).nodup_iff.1 hnodup
    rw [List.map_cons, List.nodup_cons] at hcons
    have hrest : ((before ++ after).map Prod.fst).Perm (others.map Prod.fst) :=
      ((hperm.map Prod.fst).symm.trans hkeys).cons_inv
    obtain ⟨middle, hmiddle, hforall⟩ := ih hrest hcons.2 fun next hnext => by
      -- The key that is taken out is none of those that are left.
      have hne : next.1 ≠ other.1 := fun heq =>
        hcons.1 (hrest.mem_iff.2 (heq ▸ List.mem_map_of_mem hnext))
      have hlookup := lookup_eq_of_perm hperm hnodup next.1
      rw [lookup_cons, if_neg hne] at hlookup
      rw [← hlookup]
      exact h next (List.mem_cons_of_mem _ hnext)
    exact ⟨_, hperm.trans (hmiddle.cons _), .cons ⟨rfl, hreordered⟩ hforall⟩

/-- Two objects with the same distinct keys are reorderings of each other, if that holds of what stands
    under each key. -/
theorem object_of_lookup {others : List (String × Json)} (hkeys : (entries.map Prod.fst).Perm (others.map Prod.fst))
    (hnodup : (entries.map Prod.fst).Nodup)
    (h : ∀ other ∈ others, ∃ value, entries.lookup other.1 = some value ∧ Reordered value other.2) :
    Reordered (.object entries) (.object others) := by
  obtain ⟨middle, hperm, hforall⟩ := exists_perm_forall₂ hkeys hnodup h
  exact (Reordered.entries hperm).trans (object_of_forall₂ hforall [])

end Reordered

end ContractBlocks.Json
