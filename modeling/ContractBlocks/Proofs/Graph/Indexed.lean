import ContractBlocks.Proofs.Graph.Reached

namespace ContractBlocks.BlockGraph

open Relation

/-- The indices of the links and the free ones are the numbers up to some bound, each once. -/
def Indexed (g : BlockGraph) : Prop :=
  (g.links.map Link.index ++ g.freeIndices).Perm (List.range (g.links.length + g.freeIndices.length))

namespace Indexed

variable {g h : BlockGraph} {link : Link} (hindexed : g.Indexed)

include hindexed

theorem of_eq (hlinks : h.links = g.links) (hfree : h.freeIndices = g.freeIndices) : h.Indexed := by
  rw [Indexed, hlinks, hfree]
  exact hindexed

theorem nodup : (g.links.map Link.index).Nodup :=
  (List.nodup_append.1 (hindexed.nodup_iff.2 List.nodup_range)).1

theorem lt_of_mem (hlink : link ∈ g.links) : link.index < g.links.length + g.freeIndices.length :=
  List.mem_range.1 (hindexed.subset (List.mem_append_left _ (List.mem_map_of_mem hlink)))

theorem eraseLink (hlink : link ∈ g.links) : (g.eraseLink link).Indexed := by
  have herase : g.links.Perm (link :: g.links.erase link) := List.perm_cons_erase hlink
  have hcount : (g.links.erase link).length + (g.freeIndices.length + 1) =
      g.links.length + g.freeIndices.length := by
    have hlength := herase.length_eq
    rw [List.length_cons] at hlength
    omega
  have hperm : ((g.links.erase link).map Link.index ++ link.index :: g.freeIndices).Perm
      (g.links.map Link.index ++ g.freeIndices) :=
    List.perm_middle.trans ((herase.map Link.index).symm.append_right g.freeIndices)
  rw [Indexed, BlockGraph.eraseLink, List.length_cons, hcount]
  exact hperm.trans hindexed

theorem foldl_eraseLink {links : List Link} (hnodup : links.Nodup) (hlinks : ∀ link ∈ links, link ∈ g.links) :
    (links.foldl BlockGraph.eraseLink g).Indexed := by
  induction links generalizing g with
  | nil => exact hindexed
  | cons link links ih =>
    rw [List.nodup_cons] at hnodup
    refine ih (hindexed.eraseLink (hlinks link List.mem_cons_self)) hnodup.2 fun other hother => ?_
    have hne : other ≠ link := fun heq => hnodup.1 (heq ▸ hother)
    exact (List.mem_erase_of_ne hne).2 (hlinks other (List.mem_cons_of_mem link hother))

theorem without (hsound : g.Sound) (id : NodeId) : (g.without id).Indexed := by
  have herased : ((g.linksOf id).foldl BlockGraph.eraseLink g).Indexed := by
    refine hindexed.foldl_eraseLink ?_ fun link hlink => ?_
    · refine List.nodup_append.2 ⟨hsound.links_nodup.filter _, hsound.links_nodup.filter _, ?_⟩
      intro link hlink other hother heq
      simp_all
    · rcases List.mem_append.1 hlink with hlink | hlink <;> exact (List.mem_filter.1 hlink).1
  exact herased.of_eq rfl rfl

theorem unlink (hsound : g.Sound) (source : NodeId) (label : Label) : (g.unlink source label).2.Indexed := by
  unfold BlockGraph.unlink
  split
  · next link hlink => exact hindexed.eraseLink (hsound.link?_eq_some_iff.1 hlink).1
  · exact hindexed

theorem addLink (source : NodeId) (label : Label) (target : NodeId) : (g.addLink source label target).Indexed := by
  unfold BlockGraph.addLink
  split
  · next index freeIndices hfree =>
    have hcount : g.links.length + 1 + freeIndices.length = g.links.length + g.freeIndices.length := by
      rw [hfree, List.length_cons]
      omega
    rw [Indexed, List.length_cons, hcount]
    refine List.Perm.trans ?_ hindexed
    rw [hfree]
    exact List.perm_middle.symm
  · next hfree =>
    rw [Indexed, hfree, List.append_nil, List.length_nil, Nat.add_zero] at hindexed
    rw [Indexed, hfree, List.append_nil, List.length_nil, Nat.add_zero, List.length_cons, List.range_succ]
    exact (hindexed.cons _).trans (List.perm_append_singleton _ _).symm

/-- No change uses an index twice or loses one. -/
theorem change (hsound : g.Sound) (hchange : g.Change h) : h.Indexed := by
  cases hchange with
  | add kind editorId =>
    refine hindexed.of_eq (links_insert _) ?_
    unfold add insert
    split <;> rfl
  | without => exact hindexed.without hsound _
  | setField => exact hindexed.of_eq rfl rfl
  | unlink => exact hindexed.unlink hsound _ _
  | relink => exact (hindexed.unlink hsound _ _).addLink _ _ _

theorem changes (hsound : g.Sound) (hchanges : ReflTransGen Change g h) : h.Indexed := by
  induction hchanges with
  | refl => exact hindexed
  | tail hbefore hchange ih => exact ih.change (hsound.changes hbefore) hchange

end Indexed

theorem empty_indexed : empty.Indexed := by
  simp [Indexed, empty]

theorem Reached.indexed {g : BlockGraph} (hreached : g.Reached) : g.Indexed := by
  induction hreached with
  | empty => exact empty_indexed
  | imported hok =>
    obtain ⟨workspace, -, hgraph⟩ := Workspace.importText_eq_ok_iff.1 hok
    exact empty_indexed.changes empty_sound (changes_of_placeAll hgraph)
  | edited hbefore e ih => exact ih.changes hbefore.sound (changes_edit _ e)

end ContractBlocks.BlockGraph
