import ContractBlocks.Proofs.Graph.Extended
import ContractBlocks.Proofs.Graph.Loaded
import Mathlib.Data.List.Count

namespace ContractBlocks

namespace BlockGraph

open Relation

/-- Links start and end at blocks. -/
def Anchored (g : BlockGraph) : Prop :=
  ∀ link ∈ g.links, (g.block? link.source).isSome ∧ (g.block? link.target).isSome

instance (g : BlockGraph) : Decidable g.Anchored :=
  inferInstanceAs (Decidable (∀ link ∈ g.links, (g.block? link.source).isSome ∧ (g.block? link.target).isSome))

/-- The number of links that leave a block with a label. -/
def occupancy (g : BlockGraph) (id : NodeId) (label : Label) : Nat :=
  g.links.countP fun link => link.key = (id, label)

/-- No two links leave a block with the same label. -/
def Unrepeated (g : BlockGraph) : Prop :=
  ∀ id label, g.occupancy id label ≤ 1

/-- The graphs that edits, done or refused, lead to from the graph without blocks, from that of a
    workspace, or from a saved one. A saved graph is taken as its text has it, if it is as `admits` says. -/
inductive Held (admits : BlockGraph → Prop) : BlockGraph → Prop
  | empty : Held admits empty
  | imported {text : String} {g : BlockGraph} (hok : Workspace.importText text = .ok g) : Held admits g
  | loaded {text : String} {g : BlockGraph} (hok : SavedGraph.readText text = .ok g) (hadmits : admits g) :
    Held admits g
  | edited {g : BlockGraph} (hheld : Held admits g) (e : Edit) : Held admits (g.edit e).2

section Occupancy

variable {g h : BlockGraph} {id source target : NodeId} {label : Label}

theorem Anchored.of_sublist (hanchored : g.Anchored) (hblocks : h.blocks = g.blocks)
    (hlinks : h.links.Sublist g.links) : h.Anchored := by
  intro link hlink
  simpa [block?, hblocks] using hanchored link (hlinks.subset hlink)

theorem occupancy_le_of_sublist (hlinks : h.links.Sublist g.links) (id : NodeId) (label : Label) :
    h.occupancy id label ≤ g.occupancy id label :=
  hlinks.countP_le

/-- A place shows nothing exactly if no link is there. -/
theorem Anchored.target?_eq_none_iff (hanchored : g.Anchored) :
    g.target? id label = none ↔ g.occupancy id label = 0 := by
  rw [target?, Option.map_eq_none_iff, occupancy, List.countP_eq_zero, link?]
  split
  · simp [Link.key, List.find?_eq_none]
  · next hgone =>
    refine iff_of_true rfl fun link hlink hkey => hgone ?_
    obtain ⟨rfl, -⟩ : link.source = id ∧ link.label = label := by simpa [Link.key] using hkey
    exact (hanchored link hlink).1

/-- Emptying a place takes out one link of those that are there. -/
theorem Anchored.occupancy_unlink (hanchored : g.Anchored) (id : NodeId) (label : Label) :
    (g.unlink id label).2.occupancy id label = g.occupancy id label - 1 := by
  unfold unlink
  split
  · next link hlink =>
    have hfound : link ∈ g.links ∧ link.key = (id, label) := by
      unfold link? at hlink
      split at hlink
      · exact ⟨List.mem_of_find?_eq_some hlink, by simpa [Link.key] using List.find?_some hlink⟩
      · cases hlink
    change (g.links.erase link).countP _ = _
    rw [List.countP_erase, if_pos ⟨hfound.1, decide_eq_true hfound.2⟩]
    rfl
  · next hnone =>
    have hzero : g.occupancy id label = 0 := hanchored.target?_eq_none_iff.1 (by simp [target?, hnone])
    rw [hzero]

theorem unlink_links_sublist (g : BlockGraph) (id : NodeId) (label : Label) :
    (g.unlink id label).2.links.Sublist g.links := by
  unfold unlink
  split
  · exact List.erase_sublist
  · exact .refl _

theorem Anchored.unlink (hanchored : g.Anchored) : (g.unlink id label).2.Anchored :=
  hanchored.of_sublist unlink_blocks (unlink_links_sublist g id label)

theorem Anchored.relink (hanchored : g.Anchored) (hsource : (g.block? source).isSome)
    (htarget : (g.block? target).isSome) : (g.relink source label target).Anchored := by
  obtain ⟨index, hlinks⟩ := exists_links_addLink (g.unlink source label).2 source label target
  intro link hlink
  rw [block?_relink, block?_relink]
  rcases List.mem_cons.1 (hlinks ▸ hlink) with rfl | hold
  · exact ⟨hsource, htarget⟩
  · exact hanchored link ((unlink_links_sublist g source label).subset hold)

/-- Filling a place makes up for the link that it takes out. Further links stay where they are. -/
theorem Anchored.occupancy_relink (hanchored : g.Anchored) (source : NodeId) (label : Label) (target : NodeId) :
    (g.relink source label target).occupancy source label = max 1 (g.occupancy source label) := by
  obtain ⟨index, hlinks⟩ := exists_links_addLink (g.unlink source label).2 source label target
  have hunlink := hanchored.occupancy_unlink source label
  have hcount : (g.relink source label target).occupancy source label =
      (g.unlink source label).2.occupancy source label + 1 := by
    rw [occupancy, BlockGraph.relink, hlinks]
    exact List.countP_cons_of_pos (decide_eq_true rfl)
  omega

theorem occupancy_relink_of_ne {place : NodeId × Label} (hne : place ≠ (source, label)) (target : NodeId) :
    (g.relink source label target).occupancy place.1 place.2 ≤ g.occupancy place.1 place.2 := by
  obtain ⟨index, hlinks⟩ := exists_links_addLink (g.unlink source label).2 source label target
  rw [occupancy, BlockGraph.relink, hlinks, List.countP_cons_of_neg (by simpa [Link.key] using Ne.symm hne)]
  exact occupancy_le_of_sublist (unlink_links_sublist g source label) place.1 place.2

end Occupancy

section Held

variable {g h : BlockGraph}

theorem isSome_set_join {blocks : List (Option Block)} {id : NodeId} (hlive : (blocks[id]?.join).isSome)
    (place : NodeId) (block : Block) : ((blocks.set place (some block))[id]?.join).isSome := by
  by_cases hid : place = id
  · subst hid
    have hlength : place < blocks.length := lt_length_of_block? (g := { blocks }) hlive
    simp [hlength]
  · rwa [List.getElem?_set_ne hid]

theorem live_insert {id : NodeId} (hlive : (g.block? id).isSome) (block : Block) :
    ((g.insert block).2.block? id).isSome := by
  unfold insert
  split
  · exact isSome_set_join hlive _ block
  · rw [block?, List.getElem?_append_left (lt_length_of_block? hlive)]
    exact hlive

theorem links_without_sublist (g : BlockGraph) (id : NodeId) : (g.without id).links.Sublist g.links := by
  have hlinks : (g.without id).links = g.links.diff (g.linksOf id) := (foldl_eraseLink _ g).2.2
  rw [hlinks]
  exact List.diff_sublist _ _

/-- No link of a block is left once the block is gone, however often the link was there. -/
theorem touches_eq_false_of_mem_without {id : NodeId} {link : Link} (hlink : link ∈ (g.without id).links) :
    link.touches id = false := by
  by_contra htouches
  have hlinks : (g.without id).links = g.links.diff (g.linksOf id) := (foldl_eraseLink _ g).2.2
  have hall : g.links.count link ≤ (g.linksOf id).count link := by
    rw [linksOf, List.count_append]
    by_cases hsource : link.source = id
    · rw [List.count_filter (by simpa using hsource)]
      exact Nat.le_add_right _ _
    · have htarget : link.target = id := by simpa [Link.touches, hsource] using htouches
      calc g.links.count link
          = (g.links.filter fun other => other.target = id && other.source ≠ id).count link :=
            (List.count_filter (by simp [htarget, hsource])).symm
        _ ≤ _ := Nat.le_add_left _ _
  have hpositive := List.count_pos_iff.2 hlink
  rw [hlinks, List.count_diff] at hpositive
  omega

theorem Anchored.change (hanchored : g.Anchored) (hchange : g.Change h) : h.Anchored := by
  cases hchange with
  | add kind editorId =>
    intro link hlink
    have hends := hanchored link (by simpa [add] using hlink)
    exact ⟨live_insert hends.1 _, live_insert hends.2 _⟩
  | @without id hlive =>
    intro link hlink
    have hends := hanchored link ((links_without_sublist g id).subset hlink)
    have hoff : link.source ≠ id ∧ link.target ≠ id := by
      simpa [Link.touches] using touches_eq_false_of_mem_without hlink
    rwa [block?_without hlive, block?_without hlive, if_neg hoff.1, if_neg hoff.2]
  | setField value hblock hfield =>
    intro link hlink
    have hends := hanchored link hlink
    exact ⟨isSome_set_join hends.1 _ _, isSome_set_join hends.2 _ _⟩
  | unlink source label => exact hanchored.unlink
  | relink hsource hallows htarget => exact hanchored.relink (by simp [hsource]) htarget

/-- No change puts a second link beside one. -/
theorem Change.occupancy_le (hchange : g.Change h) (hanchored : g.Anchored) (id : NodeId) (label : Label) :
    h.occupancy id label ≤ max 1 (g.occupancy id label) := by
  cases hchange with
  | add kind editorId =>
    rw [occupancy, BlockGraph.add, links_insert]
    exact Nat.le_max_right _ _
  | @without other hlive =>
    have hle := occupancy_le_of_sublist (links_without_sublist g other) id label
    omega
  | setField value hblock hfield => exact Nat.le_max_right _ _
  | unlink source other =>
    have hle := occupancy_le_of_sublist (unlink_links_sublist g source other) id label
    omega
  | @relink source target other block hsource hallows htarget =>
    by_cases hplace : (id, label) = (source, other)
    · cases hplace
      exact (hanchored.occupancy_relink _ _ _).le
    · exact Nat.le_trans (occupancy_relink_of_ne hplace target) (Nat.le_max_right _ _)

theorem Anchored.changes (hanchored : g.Anchored) (hchanges : ReflTransGen Change g h) :
    h.Anchored ∧ ∀ id label, h.occupancy id label ≤ max 1 (g.occupancy id label) := by
  induction hchanges with
  | refl => exact ⟨hanchored, fun id label => Nat.le_max_right _ _⟩
  | tail _ hchange ih =>
    refine ⟨ih.1.change hchange, fun id label => ?_⟩
    have hbefore := ih.2 id label
    have hstep := hchange.occupancy_le ih.1 id label
    omega

theorem Sound.anchored (hsound : g.Sound) : g.Anchored :=
  fun link hlink => ⟨hsound.source_live hlink, hsound.targets link hlink⟩

theorem Sound.unrepeated (hsound : g.Sound) : g.Unrepeated := by
  intro id label
  have hcount : g.occupancy id label = (g.links.map Link.key).count (id, label) := by
    rw [occupancy, List.count, List.countP_map]
    exact List.countP_congr fun link _ => by simp
  rw [hcount]
  exact List.nodup_iff_count_le_one.1 hsound.keys _

theorem Held.anchored {admits : BlockGraph → Prop} (hadmits : ∀ g, admits g → g.Anchored) (hheld : g.Held admits) :
    g.Anchored := by
  induction hheld with
  | empty => exact empty_sound.anchored
  | imported hok => exact (Reached.imported hok).sound.anchored
  | loaded _ hadmitted => exact hadmits _ hadmitted
  | edited _ e ih => exact (ih.changes (changes_edit _ e)).1

theorem Held.unrepeated {admits : BlockGraph → Prop} (hadmits : ∀ g, admits g → g.Anchored ∧ g.Unrepeated)
    (hheld : g.Held admits) : g.Unrepeated := by
  induction hheld with
  | empty => exact empty_sound.unrepeated
  | imported hok => exact (Reached.imported hok).sound.unrepeated
  | loaded _ hadmitted => exact (hadmits _ hadmitted).2
  | @edited g hheld e ih =>
    intro id label
    have hanchored := hheld.anchored fun g hadmitted => (hadmits g hadmitted).1
    have hle := (hanchored.changes (changes_edit g e)).2 id label
    have hone := ih id label
    omega

/-- A slot is empty after it was emptied, a block has no successor after that was taken away, and one
    link leads to a child that was put into a slot, exactly where at most one link was there before. So it
    is in every graph, unless a saved one was loaded in which two links leave a block with the same
    label. -/
theorem Held.emptied_iff_occupancy_le_one (hheld : g.Held Anchored) :
    (∀ parent slot, (g.disconnect parent slot).2.child? parent slot = none ↔
      g.occupancy parent (.slot slot) ≤ 1) ∧
    (∀ id, (g.clearNext id).2.next? id = none ↔ g.occupancy id .next ≤ 1) ∧
    (∀ parent slot child h, g.connect parent slot child = .ok h → h.child? parent slot = some child ∧
      (h.occupancy parent (.slot slot) = 1 ↔ g.occupancy parent (.slot slot) ≤ 1)) ∧
    (g.Held (fun saved => saved.Anchored ∧ saved.Unrepeated) → g.Unrepeated) := by
  have hanchored : g.Anchored := hheld.anchored fun _ hadmitted => hadmitted
  have hemptied : ∀ id label, (g.unlink id label).2.target? id label = none ↔ g.occupancy id label ≤ 1 := by
    intro id label
    rw [hanchored.unlink.target?_eq_none_iff, hanchored.occupancy_unlink]
    omega
  refine ⟨fun parent slot => hemptied parent (.slot slot), fun id => hemptied id .next, ?_,
    Held.unrepeated fun _ hadmitted => hadmitted⟩
  intro parent slot child h hok
  obtain ⟨⟨block, hparent, -⟩, -, rfl⟩ := relinked_of_connect hok
  constructor
  · obtain ⟨index, hlinks⟩ := exists_links_addLink (g.unlink parent (.slot slot)).2 parent (.slot slot) child
    have hlive : ((g.relink parent (.slot slot) child).block? parent).isSome := by simp [block?_relink, hparent]
    rw [child?, target?, link?, if_pos hlive, relink, hlinks]
    simp
  · rw [hanchored.occupancy_relink]
    omega

/-- A saved graph in which two links fill one slot. -/
def twiceFilled : SavedGraph :=
  ⟨[⟨.root, none, []⟩, ⟨.contract .close, none, []⟩, ⟨.contract .close, none, []⟩], [],
    [some (0, 1, .slot "CONTRACT"), some (0, 2, .slot "CONTRACT")]⟩

theorem exists_held_twiceFilled : ∃ g, SavedGraph.readText twiceFilled.toJson.compact = .ok g ∧ g.Held Anchored ∧
    g.occupancy 0 (.slot "CONTRACT") = 2 ∧ g.child? 0 "CONTRACT" = some 2 := by
  obtain ⟨g, hgraph⟩ : ∃ g, twiceFilled.toGraph? = some g := ⟨_, rfl⟩
  have hlegible : twiceFilled.Legible := by
    refine ⟨by decide, by decide, by decide, fun source target label hlink => ?_⟩
    simp only [twiceFilled, List.mem_cons, Option.some.injEq, Prod.mk.injEq, List.not_mem_nil, or_false] at hlink
    rcases hlink with ⟨rfl, rfl, -⟩ | ⟨rfl, rfl, -⟩ <;> decide
  have hload := hlegible.readText_eq hgraph Json.Layout.isBlank_compact
  cases hgraph
  exact ⟨_, hload, .loaded hload (by decide), by decide, by decide⟩

/-- Of two links in one slot the first emptying takes out the later, and the second the other. -/
theorem Held.emptied_iff_occupancy_le_one_twice :
    ∃ g : BlockGraph, g.Held Anchored ∧ (g.disconnect 0 "CONTRACT").2.child? 0 "CONTRACT" ≠ none ∧
      ((g.disconnect 0 "CONTRACT").2.disconnect 0 "CONTRACT").2.child? 0 "CONTRACT" = none := by
  obtain ⟨g, -, hheld, htwo, -⟩ := exists_held_twiceFilled
  refine ⟨g, hheld, ?_, ?_⟩
  · rw [ne_eq, (Held.emptied_iff_occupancy_le_one hheld).1, htwo]
    decide
  · have hedited : (g.disconnect 0 "CONTRACT").2.Held Anchored := hheld.edited (.disconnect 0 "CONTRACT")
    have hone : (g.disconnect 0 "CONTRACT").2.occupancy 0 (.slot "CONTRACT") = 2 - 1 := by
      rw [← htwo]
      exact (hheld.anchored fun _ hadmitted => hadmitted).occupancy_unlink 0 (.slot "CONTRACT")
    rw [(Held.emptied_iff_occupancy_le_one hedited).1, hone]

/-- A slot that was filled twice in a saved graph is not empty after it was emptied. -/
theorem not_held_disconnect_empties :
    ¬∀ g : BlockGraph, g.Held Anchored → ∀ parent slot, (g.disconnect parent slot).2.child? parent slot = none := by
  intro hempties
  obtain ⟨g, -, hheld, htwo, -⟩ := exists_held_twiceFilled
  have hanchored : g.Anchored := hheld.anchored fun _ hadmitted => hadmitted
  have hempty : (g.unlink 0 (.slot "CONTRACT")).2.target? 0 (.slot "CONTRACT") = none :=
    hempties g hheld 0 "CONTRACT"
  rw [hanchored.unlink.target?_eq_none_iff, hanchored.occupancy_unlink, htwo] at hempty
  exact absurd hempty (by decide)

end Held

end BlockGraph

end ContractBlocks
