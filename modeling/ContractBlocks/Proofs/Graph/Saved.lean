import ContractBlocks.Graph.Saved
import ContractBlocks.Proofs.Graph.Indexed
import Mathlib.Data.List.DropRight
import Mathlib.Data.List.Sigma
import Mathlib.Data.List.Sort

namespace ContractBlocks

namespace SavedGraph

section Trimmed

variable {α : Type}

/-- Only places at which nothing is are cut off. -/
theorem exists_eq_trimEnd_append (xs : List (Option α)) : ∃ n, xs = trimEnd xs ++ List.replicate n none := by
  refine ⟨(xs.reverse.takeWhile Option.isNone).length, ?_⟩
  have hnone : xs.reverse.takeWhile Option.isNone =
      List.replicate (xs.reverse.takeWhile Option.isNone).length none :=
    List.eq_replicate_of_mem fun x hx => Option.isNone_iff_eq_none.1 (List.all_eq_true.1 List.all_takeWhile x hx)
  rw [← List.reverse_inj, trimEnd, List.reverse_append, List.reverse_reverse, List.reverse_replicate, ← hnone,
    List.takeWhile_append_dropWhile]

theorem getElem?_trimEnd_join (xs : List (Option α)) (place : Nat) : (trimEnd xs)[place]?.join = xs[place]?.join := by
  obtain ⟨n, hxs⟩ := exists_eq_trimEnd_append xs
  conv => rhs; rw [hxs]
  by_cases hplace : place < (trimEnd xs).length
  · rw [List.getElem?_append_left hplace]
  · rw [List.getElem?_append_right (Nat.le_of_not_lt hplace), List.getElem?_eq_none (Nat.le_of_not_lt hplace),
      List.getElem?_replicate]
    split <;> rfl

theorem trimEnd_trimEnd (xs : List (Option α)) : trimEnd (trimEnd xs) = trimEnd xs :=
  List.rdropWhile_idempotent Option.isNone xs

theorem lt_length_trimEnd {xs : List (Option α)} {place : Nat} (hplace : xs[place]?.join.isSome) :
    place < (trimEnd xs).length := by
  rw [← getElem?_trimEnd_join] at hplace
  by_contra hnot
  simp [List.getElem?_eq_none (Nat.le_of_not_lt hnot)] at hplace

/-- The last place that is kept is not empty. -/
theorem exists_ge_of_lt_length_trimEnd {xs : List (Option α)} {place : Nat} (hplace : place < (trimEnd xs).length) :
    ∃ last, place ≤ last ∧ xs[last]?.join.isSome := by
  have hne : trimEnd xs ≠ [] := List.ne_nil_of_length_pos (Nat.zero_lt_of_lt hplace)
  have hlast : ¬((trimEnd xs).getLast hne).isNone := List.rdropWhile_last_not Option.isNone xs hne
  refine ⟨(trimEnd xs).length - 1, by omega, ?_⟩
  rw [← getElem?_trimEnd_join, ← List.getLast?_eq_getElem?, List.getLast?_eq_some_getLast hne]
  simpa [Option.isSome_iff_ne_none, Option.isNone_iff_eq_none] using hlast

end Trimmed

section Gaps

variable {α : Type} {xs : List (Option α)}

theorem mem_gaps {place : Nat} : place ∈ gaps xs ↔ xs[place]? = some none := by
  rw [gaps, List.mem_filter, List.mem_range, Option.isNone_iff_eq_none]
  constructor
  · rintro ⟨hlt, hnone⟩
    rw [List.getElem?_eq_getElem hlt] at hnone ⊢
    exact congrArg some hnone
  · intro hnone
    exact ⟨(List.getElem?_eq_some_iff.1 hnone).1, by rw [hnone]; rfl⟩

theorem gaps_nodup : (gaps xs).Nodup :=
  List.nodup_range.filter _

theorem gaps_none_cons (xs : List (Option α)) : gaps (none :: xs) = 0 :: (gaps xs).map (· + 1) := by
  rw [gaps, List.length_cons, List.range_succ_eq_map, List.filter_cons_of_pos rfl, List.filter_map]
  rfl

theorem gaps_some_cons (a : α) (xs : List (Option α)) : gaps (some a :: xs) = (gaps xs).map (· + 1) := by
  rw [gaps, List.length_cons, List.range_succ_eq_map, List.filter_cons_of_neg (by simp), List.filter_map]
  rfl

theorem length_filterMap_add_length_gaps (xs : List (Option α)) :
    (xs.filterMap id).length + (gaps xs).length = xs.length := by
  induction xs with
  | nil => rfl
  | cons x xs ih =>
    cases x with
    | none =>
      rw [gaps_none_cons, List.filterMap_cons_none rfl, List.length_cons, List.length_map, List.length_cons]
      omega
    | some a =>
      rw [gaps_some_cons, List.length_map, List.length_cons, List.filterMap_cons]
      change (xs.filterMap id).length + 1 + (gaps xs).length = xs.length + 1
      omega

end Gaps

section Placed

theorem placeBlocks_shift (total place : Nat) (holes : List NodeId) (blocks : List Block) :
    placeBlocks (total + 1) (place + 1) (holes.map (· + 1)) blocks = placeBlocks total place holes blocks := by
  induction holes generalizing place blocks with
  | nil => rfl
  | cons hole holes ih => simp [placeBlocks, ih]

theorem placeBlocks_cons (total : Nat) (holes : List NodeId) (block : Block) (blocks : List Block) :
    placeBlocks (total + 1) 0 (holes.map (· + 1)) (block :: blocks) =
      (placeBlocks total 0 holes blocks).map (some block :: ·) := by
  cases holes with
  | nil => rfl
  | cons hole holes =>
    by_cases hlt : hole < total <;> simp [placeBlocks, placeBlocks_shift, hlt, Function.comp_def]

/-- Blocks are put back where they were. -/
theorem placeBlocks_gaps (xs : List (Option Block)) :
    placeBlocks xs.length 0 (gaps xs) (xs.filterMap id) = some xs := by
  induction xs with
  | nil => rfl
  | cons x xs ih =>
    cases x with
    | none =>
      rw [gaps_none_cons, List.filterMap_cons_none rfl, List.length_cons, placeBlocks,
        if_pos ⟨Nat.le_refl 0, Nat.succ_pos _⟩, placeBlocks_shift, Nat.sub_self, List.drop_zero, ih]
      rfl
    | some block =>
      have hblocks : (some block :: xs).filterMap id = block :: xs.filterMap id := rfl
      rw [gaps_some_cons, hblocks, List.length_cons, placeBlocks_cons, ih]
      rfl

end Placed

section Links

/-- What is kept of a link beside its index. -/
def ends (link : Link) : NodeId × NodeId × Label :=
  (link.source, link.target, link.label)

variable {table : List (Option (NodeId × NodeId × Label))} {link : Link}

theorem mem_placeLinks : link ∈ placeLinks table ↔ table[link.index]? = some (some (ends link)) := by
  rw [placeLinks, List.mem_reverse, List.mem_filterMap]
  constructor
  · rintro ⟨⟨entry, index⟩, hentry, hlink⟩
    obtain ⟨⟨source, target, label⟩, rfl, rfl⟩ := Option.map_eq_some_iff.1 hlink
    exact List.mem_zipIdx_iff_getElem?.1 hentry
  · intro hentry
    exact ⟨(some (ends link), link.index), List.mem_zipIdx_iff_getElem?.2 hentry, rfl⟩

theorem nodup_map_index_placeLinks (table : List (Option (NodeId × NodeId × Label))) :
    ((placeLinks table).map Link.index).Nodup := by
  rw [placeLinks, List.map_reverse, List.nodup_reverse, List.map_filterMap]
  have hpairs : (table.zipIdx).Pairwise fun entry other => entry.2 ≠ other.2 :=
    List.pairwise_map.1 (List.nodup_zipIdx_map_snd table)
  refine hpairs.filterMap _ fun entry other hne index hindex place hplace => ?_
  have hsame : ∀ {entry : Option (NodeId × NodeId × Label) × Nat} {index : Nat},
      (entry.1.map fun ends => (⟨entry.2, ends.1, ends.2.2, ends.2.1⟩ : Link)).map Link.index =
        some index → entry.2 = index := by
    intro entry index hindex
    obtain ⟨link, hlink, rfl⟩ := Option.map_eq_some_iff.1 hindex
    obtain ⟨_, -, rfl⟩ := Option.map_eq_some_iff.1 hlink
    rfl
  rw [← hsame hindex, ← hsame hplace]
  exact hne

theorem map_ends_placeLinks (table : List (Option (NodeId × NodeId × Label))) :
    (placeLinks table).map ends = (table.filterMap id).reverse := by
  rw [placeLinks, List.map_reverse, List.map_filterMap]
  conv => rhs; rw [← List.zipIdx_map_fst 0 table, List.filterMap_map]
  refine congrArg List.reverse (List.filterMap_congr fun entry _ => ?_)
  rw [Option.map_map]
  exact Option.map_id'

end Links

/-- Of links with different indices, at most one is found by an index. -/
theorem find?_index_eq_some_iff {links : List Link} (hnodup : (links.map Link.index).Nodup) {index : Nat}
    {link : Link} :
    (links.find? fun link => link.index = index) = some link ↔ link ∈ links ∧ link.index = index := by
  constructor
  · intro hfind
    exact ⟨List.mem_of_find?_eq_some hfind, by simpa using List.find?_some hfind⟩
  · rintro ⟨hmem, hindex⟩
    cases hfind : links.find? fun link => link.index = index with
    | none => exact absurd (decide_eq_true hindex) (List.find?_eq_none.1 hfind link hmem)
    | some found =>
      have hfound : found.index = index := by simpa using List.find?_some hfind
      rw [List.inj_on_of_nodup_map hnodup (List.mem_of_find?_eq_some hfind) hmem (hfound.trans hindex.symm)]

section Table

variable {g : BlockGraph} (hindexed : g.Indexed)

include hindexed

/-- A link stands in the table at its index. -/
theorem getElem?_linkTable_join (index : Nat) :
    (linkTable g)[index]?.join = (g.links.find? fun link => link.index = index).map ends := by
  rw [linkTable, getElem?_trimEnd_join, List.getElem?_map]
  by_cases hindex : index < g.links.length + g.freeIndices.length
  · rw [List.getElem?_range hindex]
    rfl
  · have hnone : (g.links.find? fun link => link.index = index) = none := by
      refine List.find?_eq_none.2 fun link hlink heq => hindex ?_
      rw [← of_decide_eq_true heq]
      exact hindexed.lt_of_mem hlink
    rw [List.getElem?_eq_none (by simpa using Nat.le_of_not_lt hindex), hnone]
    rfl

theorem mem_placeLinks_linkTable {link : Link} : link ∈ placeLinks (linkTable g) ↔ link ∈ g.links := by
  rw [mem_placeLinks, ← Option.join_eq_some_iff, getElem?_linkTable_join hindexed, Option.map_eq_some_iff]
  constructor
  · rintro ⟨found, hfound, hends⟩
    obtain ⟨hmem, hindex⟩ := (find?_index_eq_some_iff hindexed.nodup).1 hfound
    obtain rfl : found = link := by
      cases found
      cases link
      cases hends
      cases hindex
      rfl
    exact hmem
  · intro hlink
    exact ⟨link, (find?_index_eq_some_iff hindexed.nodup).2 ⟨hlink, rfl⟩, rfl⟩

theorem placeLinks_linkTable_perm : (placeLinks (linkTable g)).Perm g.links := by
  have hplaced : (placeLinks (linkTable g)).Nodup := (nodup_map_index_placeLinks _).of_map
  have hlinks : g.links.Nodup := hindexed.nodup.of_map
  exact (List.perm_ext_iff_of_nodup hplaced hlinks).2 fun link => mem_placeLinks_linkTable hindexed

end Table

end SavedGraph

open SavedGraph

namespace BlockGraph

variable {g : BlockGraph}

/-- What the saved form of a graph is loaded as. The free ids and indices above the last that are taken
    are no longer known, and the order in which links were made is not, either. -/
def reloaded (g : BlockGraph) : BlockGraph where
  blocks := trimEnd g.blocks
  freeIds := (gaps (trimEnd g.blocks)).reverse
  links := placeLinks (linkTable g)
  freeIndices := (gaps (linkTable g)).reverse

theorem block?_reloaded (g : BlockGraph) (id : NodeId) : g.reloaded.block? id = g.block? id :=
  getElem?_trimEnd_join g.blocks id

section Kept

variable (hsound : g.Sound) (hindexed : g.Indexed)

include hindexed in
theorem links_reloaded_perm : g.reloaded.links.Perm g.links :=
  placeLinks_linkTable_perm hindexed

include hsound hindexed

theorem toGraph?_ofGraph : (ofGraph g).toGraph? = some g.reloaded := by
  have htotal : (ofGraph g).blocks.length + (ofGraph g).holes.length = (trimEnd g.blocks).length :=
    length_filterMap_add_length_gaps _
  have hends : ∀ link ∈ placeLinks (ofGraph g).links,
      (decide (link.source < (trimEnd g.blocks).length) &&
        decide (link.target < (trimEnd g.blocks).length)) = true := by
    intro link hlink
    have hmem := (mem_placeLinks_linkTable hindexed).1 hlink
    have hsource := lt_length_trimEnd (hsound.source_live hmem)
    have htarget := lt_length_trimEnd (hsound.targets link hmem)
    simp [hsource, htarget]
  rw [toGraph?, htotal, if_pos (List.all_eq_true.2 hends)]
  have hblocks :
      placeBlocks (trimEnd g.blocks).length 0 (ofGraph g).holes (ofGraph g).blocks = some (trimEnd g.blocks) :=
    placeBlocks_gaps _
  rw [hblocks]
  rfl

theorem reloaded_sound : g.reloaded.Sound := by
  have hlinks := links_reloaded_perm hindexed
  refine ⟨⟨fun link hlink => ?_, fun link hlink => ?_, ?_, fun id block hblock => ?_⟩, fun id hid => ?_, ?_⟩
  · rw [block?_reloaded]
    exact hsound.sources link (hlinks.subset hlink)
  · rw [block?_reloaded]
    exact hsound.targets link (hlinks.subset hlink)
  · exact (hlinks.map Link.key).nodup_iff.2 hsound.keys
  · rw [block?_reloaded] at hblock
    exact hsound.fields id block hblock
  · exact mem_gaps.1 (List.mem_reverse.1 hid)
  · exact List.nodup_reverse.2 gaps_nodup

theorem target?_reloaded (id : NodeId) (label : Label) : g.reloaded.target? id label = g.target? id label := by
  refine Option.ext fun target => ?_
  rw [(reloaded_sound hsound hindexed).target?_eq_some_iff, hsound.target?_eq_some_iff]
  simp only [(links_reloaded_perm hindexed).mem_iff]

end Kept

theorem ids_reloaded (g : BlockGraph) : g.reloaded.ids = g.ids := by
  refine List.Pairwise.eq_of_mem_iff (List.pairwise_lt_range.filter _) (List.pairwise_lt_range.filter _) ?_
  intro id
  rw [mem_ids_iff, mem_ids_iff, block?_reloaded]

theorem blockCount_reloaded (g : BlockGraph) : g.reloaded.blockCount = g.blockCount := by
  rw [← length_ids, ← length_ids, ids_reloaded]

theorem topLevel_reloaded (hindexed : g.Indexed) : g.reloaded.topLevel = g.topLevel := by
  refine g.reloaded.topLevel_ascending.eq_of_mem_iff g.topLevel_ascending fun id => ?_
  rw [mem_topLevel_iff, mem_topLevel_iff, ids_reloaded, ((links_reloaded_perm hindexed).map Link.target).mem_iff]

theorem source_reloaded (hsound : g.Sound) (hindexed : g.Indexed) : g.reloaded.source = g.source := by
  have hblock : g.reloaded.block? = g.block? := funext g.block?_reloaded
  have htarget : g.reloaded.target? = g.target? := funext₂ (target?_reloaded hsound hindexed)
  unfold source child? next?
  congr 1
  · exact g.ids_reloaded
  · exact topLevel_reloaded hindexed
  all_goals simp only [hblock, htarget]

theorem linkTable_reloaded (hindexed : g.Indexed) : linkTable g.reloaded = linkTable g := by
  have hcount : g.reloaded.links.length + g.reloaded.freeIndices.length = (linkTable g).length := by
    have hkept := congrArg List.length (map_ends_placeLinks (linkTable g))
    rw [List.length_map, List.length_reverse] at hkept
    rw [← length_filterMap_add_length_gaps (linkTable g), ← hkept, reloaded, List.length_reverse]
  have hfind : ∀ index, (g.reloaded.links.find? fun link => link.index = index) =
      g.links.find? fun link => link.index = index := by
    intro index
    have hnodup : (g.reloaded.links.map Link.index).Nodup := nodup_map_index_placeLinks _
    refine Option.ext fun link => ?_
    rw [find?_index_eq_some_iff hnodup, find?_index_eq_some_iff hindexed.nodup,
      (links_reloaded_perm hindexed).mem_iff]
  have htable : ((List.range (linkTable g).length).map fun index =>
      (g.reloaded.links.find? fun link => link.index = index).map ends) = linkTable g := by
    refine List.ext_getElem? fun index => ?_
    by_cases hindex : index < (linkTable g).length
    · have hjoin := getElem?_linkTable_join hindexed index
      rw [List.getElem?_eq_getElem hindex] at hjoin ⊢
      rw [List.getElem?_map, List.getElem?_range hindex, Option.map_some, hfind, ← hjoin]
      rfl
    · rw [List.getElem?_eq_none (Nat.le_of_not_lt hindex), List.getElem?_eq_none (by simpa using hindex)]
  rw [linkTable, hcount]
  exact (congrArg trimEnd htable).trans (trimEnd_trimEnd _)

/-- A loaded graph is saved as it was. -/
theorem ofGraph_reloaded (hindexed : g.Indexed) : ofGraph g.reloaded = ofGraph g := by
  rw [ofGraph, ofGraph, linkTable_reloaded hindexed]
  simp only [reloaded, trimEnd_trimEnd]

end BlockGraph

end ContractBlocks
