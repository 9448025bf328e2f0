import ContractBlocks.Proofs.Graph.Sound
import ContractBlocks.Proofs.Json.Named

namespace ContractBlocks

namespace BlockGraph

section Insert

variable {g : BlockGraph}

theorem Sound.insert (hsound : g.Sound) {block : Block} (hfields : (block.fields.map Prod.fst).Nodup)
    (hdeclared : ∀ name ∈ block.fields.map Prod.fst, (block.kind.field? name).isSome) :
    (g.insert block).2.Sound := by
  have hfresh := insert_fresh hsound block
  have hkept : ∀ id, (g.block? id).isSome → (g.insert block).2.block? id = g.block? id := by
    intro id hlive
    have hne : id ≠ (g.insert block).1 := by
      rintro rfl
      rw [hfresh] at hlive
      cases hlive
    rw [block?_insert hsound, if_neg hne]
  refine ⟨⟨?_, ?_, ?_, ?_⟩, ?_, ?_⟩
  · intro link hlink
    rw [links_insert] at hlink
    rw [hkept _ (hsound.source_live hlink)]
    exact hsound.sources link hlink
  · intro link hlink
    rw [links_insert] at hlink
    rw [hkept _ (hsound.targets link hlink)]
    exact hsound.targets link hlink
  · rw [links_insert]
    exact hsound.keys
  · intro id found hfound
    rw [block?_insert hsound] at hfound
    split at hfound
    · cases hfound
      exact ⟨hfields, hdeclared⟩
    · exact hsound.fields id found hfound
  · -- The id that is taken is the first free one, and it is not among the others.
    intro id hid
    have hnodup := hsound.freeIds_nodup
    unfold BlockGraph.insert at hid ⊢
    split at hid
    · next place freeIds hfree =>
      rw [hfree] at hnodup
      have hne : place ≠ id := fun heq => (List.nodup_cons.1 hnodup).1 (heq ▸ hid)
      rw [List.getElem?_set_ne hne]
      exact hsound.free id (by simp [hfree, hid])
    · next hfree => simp [hfree] at hid
  · have hnodup := hsound.freeIds_nodup
    unfold BlockGraph.insert
    split
    · next place freeIds hfree =>
      rw [hfree] at hnodup
      exact (List.nodup_cons.1 hnodup).2
    · exact hnodup

end Insert

section Put

variable {g : BlockGraph} {id : NodeId}

/-- The graph with another block in the place of one. -/
def put (g : BlockGraph) (id : NodeId) (block : Block) : BlockGraph :=
  { g with blocks := g.blocks.set id (some block) }

theorem block?_put (hlive : (g.block? id).isSome) (block : Block) (other : NodeId) :
    (g.put id block).block? other = if other = id then some block else g.block? other :=
  getElem?_set_join (lt_length_of_block? hlive) _ _

/-- A block may be exchanged for one of the same kind with fields of this kind. -/
theorem Sound.put (hsound : g.Sound) {old block : Block} (hold : g.block? id = some old)
    (hkind : block.kind = old.kind) (hfields : (block.fields.map Prod.fst).Nodup)
    (hdeclared : ∀ name ∈ block.fields.map Prod.fst, (block.kind.field? name).isSome) :
    (g.put id block).Sound := by
  have hlive : (g.block? id).isSome := by simp [hold]
  have hblock := block?_put hlive block
  refine ⟨⟨?_, ?_, hsound.keys, ?_⟩, ?_, hsound.freeIds_nodup⟩
  · intro link hlink
    obtain ⟨found, hfound, hallows⟩ := hsound.sources link hlink
    rw [hblock]
    by_cases hid : link.source = id
    · rw [hid, hold] at hfound
      cases hfound
      exact ⟨block, if_pos hid, hkind ▸ hallows⟩
    · exact ⟨found, (if_neg hid).trans hfound, hallows⟩
  · intro link hlink
    rw [hblock]
    split
    · rfl
    · exact hsound.targets link hlink
  · intro other found hfound
    rw [hblock] at hfound
    split at hfound
    · cases hfound
      exact ⟨hfields, hdeclared⟩
    · exact hsound.fields other found hfound
  · intro other hother
    have hne : id ≠ other := by
      rintro rfl
      rw [hsound.block?_of_mem_freeIds hother] at hold
      cases hold
    exact (List.getElem?_set_ne hne).trans (hsound.free other hother)

end Put

section Without

variable {g : BlockGraph} {id : NodeId}

/-- The graph without a block and its links. -/
def without (g : BlockGraph) (id : NodeId) : BlockGraph :=
  let h := (g.linksOf id).foldl eraseLink g
  { h with blocks := h.blocks.set id none, freeIds := id :: h.freeIds }

theorem foldl_eraseLink (links : List Link) (g : BlockGraph) :
    (links.foldl eraseLink g).blocks = g.blocks ∧ (links.foldl eraseLink g).freeIds = g.freeIds ∧
      (links.foldl eraseLink g).links = g.links.diff links := by
  induction links generalizing g with
  | nil => simp
  | cons link rest ih =>
    obtain ⟨hblocks, hfree, hlinks⟩ := ih (g.eraseLink link)
    exact ⟨hblocks, hfree, by rw [List.foldl_cons, hlinks, List.diff_cons]; rfl⟩

/-- With a block go the links that start or end at it, and no others. -/
theorem links_without (hsound : g.Sound) :
    (g.without id).links = g.links.filter fun link => !link.touches id := by
  have hlinks : (g.without id).links = g.links.diff (g.linksOf id) := (foldl_eraseLink _ g).2.2
  rw [hlinks, hsound.links_nodup.sdiff_eq_filter]
  refine List.filter_congr fun link hlink => ?_
  have hmem : link ∈ g.linksOf id ↔ link.touches id = true := by
    by_cases hsource : link.source = id <;> simp [linksOf, Link.touches, hlink, hsource]
  by_cases htouches : link.touches id = true <;> simp [hmem, htouches]

theorem block?_without (hlive : (g.block? id).isSome) (other : NodeId) :
    (g.without id).block? other = if other = id then none else g.block? other := by
  have hblocks : (g.without id).blocks = g.blocks.set id none :=
    congrArg (List.set · id none) (foldl_eraseLink _ g).1
  unfold block?
  rw [hblocks]
  exact getElem?_set_join (lt_length_of_block? hlive) none other

theorem Sound.without (hsound : g.Sound) (hlive : (g.block? id).isSome) : (g.without id).Sound := by
  have hblock := block?_without hlive
  have hlinks : ∀ link ∈ (g.without id).links, link ∈ g.links ∧ link.source ≠ id ∧ link.target ≠ id := by
    intro link hlink
    rw [links_without hsound, List.mem_filter] at hlink
    simpa [Link.touches] using hlink
  refine ⟨⟨?_, ?_, ?_, ?_⟩, ?_, ?_⟩
  · intro link hlink
    obtain ⟨hold, hsource, -⟩ := hlinks link hlink
    rw [hblock, if_neg hsource]
    exact hsound.sources link hold
  · intro link hlink
    obtain ⟨hold, -, htarget⟩ := hlinks link hlink
    rw [hblock, if_neg htarget]
    exact hsound.targets link hold
  · rw [links_without hsound]
    exact hsound.keys.sublist (List.filter_sublist.map _)
  · intro other block hother
    rw [hblock] at hother
    split at hother
    · cases hother
    · exact hsound.fields other block hother
  · intro other hother
    have hblocks : (g.without id).blocks = g.blocks.set id none :=
      congrArg (List.set · id none) (foldl_eraseLink _ g).1
    have hfree : (g.without id).freeIds = id :: g.freeIds :=
      congrArg (id :: ·) (foldl_eraseLink _ g).2.1
    rw [hblocks]
    by_cases hid : id = other
    · subst hid
      simp [lt_length_of_block? hlive]
    · rw [List.getElem?_set_ne hid]
      exact hsound.free other (by simpa [hfree, Ne.symm hid] using hother)
  · have hfree : (g.without id).freeIds = id :: g.freeIds :=
      congrArg (id :: ·) (foldl_eraseLink _ g).2.1
    rw [hfree, List.nodup_cons]
    refine ⟨fun hmem => ?_, hsound.freeIds_nodup⟩
    rw [hsound.block?_of_mem_freeIds hmem] at hlive
    cases hlive

end Without

section Targets

variable {g : BlockGraph} {id source : NodeId} {label other : Label}

theorem Sound.add (hsound : g.Sound) (kind : Kind) (editorId : Option String) :
    (g.add kind editorId).2.Sound :=
  hsound.insert (by simp) (by simp)

/-- Where two sound graphs have the same links, they lead to the same blocks. -/
theorem Sound.target?_eq_of_links_eq {h : BlockGraph} (hg : g.Sound) (hh : h.Sound)
    (hlinks : h.links = g.links) : h.target? source label = g.target? source label := by
  refine Option.ext fun target => ?_
  rw [hh.target?_eq_some_iff, hg.target?_eq_some_iff, hlinks]

theorem target?_unlink (hsound : g.Sound) :
    (g.unlink id other).2.target? source label =
      if (source, label) = (id, other) then none else g.target? source label := by
  refine Option.ext fun target => ?_
  rw [hsound.unlink.target?_eq_some_iff, links_unlink hsound]
  split
  · next heq =>
    simp only [heq, reduceCtorEq, iff_false]
    rintro ⟨link, hmem, hkey, -⟩
    simp [hkey] at hmem
  · next hne =>
    rw [hsound.target?_eq_some_iff]
    refine exists_congr fun link => ?_
    rw [List.mem_filter]
    constructor
    · rintro ⟨⟨hmem, -⟩, hlink⟩
      exact ⟨hmem, hlink⟩
    · rintro ⟨hmem, hkey, htarget⟩
      exact ⟨⟨hmem, decide_eq_true (hkey ▸ hne)⟩, hkey, htarget⟩

theorem target?_relink (hsound : g.Sound) {block : Block} {child : NodeId}
    (hsource : g.block? id = some block) (hallows : block.kind.Allows other)
    (htarget : (g.block? child).isSome) :
    (g.relink id other child).target? source label =
      if (source, label) = (id, other) then some child else g.target? source label := by
  refine Option.ext fun target => ?_
  obtain ⟨index, hlinks⟩ := exists_links_relink hsound id other child
  rw [(hsound.relink hsource hallows htarget).target?_eq_some_iff, hlinks]
  split
  · next heq =>
    rw [heq, Option.some_inj]
    constructor
    · rintro ⟨link, hmem, hkey, rfl⟩
      rcases List.mem_cons.1 hmem with rfl | hold
      · rfl
      · simp [hkey] at hold
    · rintro rfl
      exact ⟨_, List.mem_cons_self, rfl, rfl⟩
  · next hne =>
    rw [hsound.target?_eq_some_iff]
    refine exists_congr fun link => ?_
    rw [List.mem_cons, List.mem_filter]
    constructor
    · rintro ⟨rfl | ⟨hmem, -⟩, hkey, hend⟩
      · exact absurd hkey.symm hne
      · exact ⟨hmem, hkey, hend⟩
    · rintro ⟨hmem, hkey, hend⟩
      exact ⟨.inr ⟨hmem, decide_eq_true (hkey ▸ hne)⟩, hkey, hend⟩

theorem target?_without (hsound : g.Sound) (hlive : (g.block? id).isSome) :
    (g.without id).target? source label =
      if source = id then none else (g.target? source label).filter (· ≠ id) := by
  refine Option.ext fun target => ?_
  rw [(hsound.without hlive).target?_eq_some_iff, links_without hsound]
  have hkept : (∃ link ∈ g.links.filter (fun link => !link.touches id),
        link.key = (source, label) ∧ link.target = target) ↔
      source ≠ id ∧ target ≠ id ∧ ∃ link ∈ g.links, link.key = (source, label) ∧ link.target = target := by
    constructor
    · rintro ⟨link, hlink, hkey, rfl⟩
      rw [List.mem_filter] at hlink
      obtain ⟨rfl, rfl⟩ : link.source = source ∧ link.label = label := Prod.ext_iff.1 hkey
      obtain ⟨hmem, hsource, htarget⟩ : link ∈ g.links ∧ link.source ≠ id ∧ link.target ≠ id := by
        simpa [Link.touches] using hlink
      exact ⟨hsource, htarget, link, hmem, hkey, rfl⟩
    · rintro ⟨hsource, htarget, link, hmem, hkey, rfl⟩
      obtain ⟨rfl, rfl⟩ : link.source = source ∧ link.label = label := Prod.ext_iff.1 hkey
      exact ⟨link, List.mem_filter.2 ⟨hmem, by simp [Link.touches, hsource, htarget]⟩, hkey, rfl⟩
  rw [hkept, ← hsound.target?_eq_some_iff]
  by_cases hsource : source = id
  · simp [hsource]
  · simp only [ne_eq, hsource, not_false_eq_true, true_and, if_false, Option.filter_eq_some_iff]
    simp [and_comm]

end Targets

end BlockGraph

end ContractBlocks
