import ContractBlocks.Proofs.Compile.Chain
import ContractBlocks.Proofs.Graph.Reached

namespace ContractBlocks.BlockGraph

variable {g h k : BlockGraph} {id source target : NodeId} {label : Label}

/-- No link ends at the block. -/
def Loose (g : BlockGraph) (id : NodeId) : Prop :=
  id ∉ g.links.map Link.target

/-- A block that is there is none of those that are gone. -/
theorem ne_of_gone (hlive : (g.block? id).isSome) (hgone : g.block? source = none) : id ≠ source := by
  rintro rfl
  rw [hgone] at hlive
  cases hlive

theorem Sound.ne_of_target? (hsound : g.Sound) (hloose : g.Loose id) (htarget : g.target? source label = some target) :
    target ≠ id := by
  rintro rfl
  exact hloose (hsound.mem_targets_iff.2 ⟨source, label, htarget⟩)

/-- No link ends at a top. -/
theorem Sound.notMem_topLevel (hsound : g.Sound) (htarget : g.target? source label = some target) :
    target ∉ g.topLevel := by
  intro htop
  have hloose : g.Loose target := ((g.mem_topLevel_iff target).1 htop).2
  exact hsound.ne_of_target? hloose htarget rfl

theorem Sound.loose_of_gone (hsound : g.Sound) (hgone : g.block? id = none) : g.Loose id := by
  intro hmem
  obtain ⟨link, hlink, rfl⟩ := List.mem_map.1 hmem
  exact ne_of_gone (hsound.targets link hlink) hgone rfl

theorem Sound.target?_of_gone (hsound : g.Sound) (hgone : g.block? id = none) : g.target? id label = none := by
  rw [Option.eq_none_iff_forall_ne_some]
  intro target htarget
  obtain ⟨link, hlink, hkey, -⟩ := hsound.target?_eq_some_iff.1 htarget
  exact ne_of_gone (hsound.source_live hlink) hgone (congrArg Prod.fst hkey)

theorem block?_relink : (g.relink source label target).block? id = g.block? id := by
  rw [block?, relink_blocks, block?]

/-- A new link ends at its target only. -/
theorem Loose.relink (hsound : g.Sound) (hloose : g.Loose id) (hne : id ≠ target) :
    (g.relink source label target).Loose id := by
  obtain ⟨index, hlinks⟩ := exists_links_relink hsound source label target
  unfold Loose
  rw [hlinks, List.map_cons, List.mem_cons, not_or]
  refine ⟨hne, fun hmem => hloose ?_⟩
  exact (List.filter_sublist.map Link.target).subset hmem

theorem blockCount_insert (hsound : g.Sound) (block : Block) :
    (g.insert block).2.blockCount = g.blockCount + 1 := by
  unfold insert blockCount
  split
  · next place freeIds hfree =>
    obtain ⟨hplace, hnone⟩ := List.getElem?_eq_some_iff.1 (hsound.free place (by simp [hfree]))
    simp [List.countP_set hplace, hnone]
  · simp

theorem blockCount_put {old : Block} (hold : g.block? id = some old) (block : Block) :
    (g.put id block).blockCount = g.blockCount := by
  have hplace : id < g.blocks.length := lt_length_of_block? (by simp [hold])
  have hthere : g.blocks[id] = some old := by simpa [block?, hplace] using hold
  have hpos : 0 < g.blocks.countP Option.isSome :=
    List.countP_pos_iff.2 ⟨some old, hthere ▸ List.getElem_mem hplace, rfl⟩
  unfold blockCount put
  rw [List.countP_set hplace, hthere]
  simp only [Option.isSome_some, if_true]
  omega

/-- `h` has all that `g` has: the blocks of `g` are as they were and refer to the same blocks, and those at
    which no link ended are still so. -/
structure Extends (g h : BlockGraph) : Prop where
  block : ∀ {id}, (g.block? id).isSome → h.block? id = g.block? id
  target : ∀ {id}, (g.block? id).isSome → ∀ label, h.target? id label = g.target? id label
  loose : ∀ {id}, (g.block? id).isSome → g.Loose id → h.Loose id

namespace Extends

theorem refl (g : BlockGraph) : g.Extends g where
  block _ := rfl
  target _ _ := rfl
  loose _ hloose := hloose

theorem live (hextends : g.Extends h) (hlive : (g.block? id).isSome) : (h.block? id).isSome := by
  rw [hextends.block hlive]
  exact hlive

theorem trans (hextends : g.Extends h) (hmore : h.Extends k) : g.Extends k where
  block hlive := (hmore.block (hextends.live hlive)).trans (hextends.block hlive)
  target hlive label := (hmore.target (hextends.live hlive) label).trans (hextends.target hlive label)
  loose hlive hloose := hmore.loose (hextends.live hlive) (hextends.loose hlive hloose)

/-- Blocks that are not in `h` were not in `g`. -/
theorem gone (hextends : g.Extends h) (hgone : h.block? id = none) : g.block? id = none := by
  by_contra hthere
  exact ne_of_gone (hextends.live (Option.isSome_iff_ne_none.2 hthere)) hgone rfl

end Extends

/-- A new block changes nothing else. -/
theorem Sound.extends_add (hsound : g.Sound) (kind : Kind) (editorId : Option String) :
    g.Extends (g.add kind editorId).2 where
  block := by
    intro id hlive
    exact (block?_insert hsound _ id).trans (if_neg (ne_of_gone hlive (insert_fresh hsound _)))
  target _ label := hsound.target?_eq_of_links_eq (hsound.add kind editorId) (links_insert _)
  loose _ hloose := by
    unfold Loose BlockGraph.add
    rw [links_insert]
    exact hloose

theorem Sound.kind_add (hsound : g.Sound) (kind : Kind) (editorId : Option String) :
    (g.add kind editorId).2.source.kind (g.add kind editorId).1 = some kind := by
  have hblock : (g.add kind editorId).2.block? (g.add kind editorId).1 = some { kind, editorId } :=
    (block?_insert hsound _ _).trans (if_pos rfl)
  simp only [source, hblock, Option.map_some]

/-- In `h` there are `n` blocks more than in `g`, and no other roots. -/
structure Adds (g : BlockGraph) (n : Nat) (h : BlockGraph) : Prop where
  count : h.blockCount = g.blockCount + n
  root : ∀ {id}, h.source.kind id = some .root → g.source.kind id = some .root

theorem Adds.trans {m n : Nat} (hadds : g.Adds m h) (hmore : h.Adds n k) : g.Adds (m + n) k where
  count := by
    rw [hmore.count, hadds.count]
    omega
  root hroot := hadds.root (hmore.root hroot)

theorem Sound.adds_add (hsound : g.Sound) {kind : Kind} (hkind : kind ≠ .root) (editorId : Option String) :
    g.Adds 1 (g.add kind editorId).2 where
  count := blockCount_insert hsound _
  root := by
    intro id hroot
    simp only [source, BlockGraph.add, block?_insert hsound] at hroot ⊢
    split at hroot
    · exact absurd (Option.some.inj hroot) hkind
    · exact hroot

/-- `h` is `g` with some blocks linked into a chain: they have got their successors, and nothing else
    has changed. -/
structure Chained (g : BlockGraph) (nodes : List NodeId) (h : BlockGraph) : Prop where
  sound : h.Sound
  blocks : h.blocks = g.blocks
  target : ∀ {id label}, (label = .next → id ∉ nodes) → h.target? id label = g.target? id label
  loose : ∀ {id}, id ∉ nodes.tail → g.Loose id → h.Loose id
  chain : h.source.ChainFrom nodes.head? nodes

/-- Blocks are linked in any order, whatever successors they have, if all but the last can have one and the
    last has none. -/
theorem Sound.exists_chained (hsound : g.Sound) {nodes : List NodeId} (hnodup : nodes.Nodup)
    (hlive : ∀ node ∈ nodes, (g.block? node).isSome)
    (hlink : ∀ node ∈ nodes.dropLast, ∃ block, g.block? node = some block ∧ block.kind.isLink)
    (hlast : ∀ node ∈ nodes.getLast?, g.next? node = none) :
    ∃ h, g.chain nodes = (h, none) ∧ g.Chained nodes h := by
  induction nodes generalizing g with
  | nil => exact ⟨g, rfl, hsound, rfl, fun _ => rfl, fun _ hloose => hloose, .nil⟩
  | cons first rest ih =>
    cases rest with
    | nil =>
      refine ⟨g, rfl, hsound, rfl, fun _ => rfl, fun _ hloose => hloose, .cons ?_⟩
      have hnone : g.source.next first = none := hlast first rfl
      rw [hnone]
      exact .nil
    | cons second rest =>
      obtain ⟨hfirst, hrest⟩ := List.nodup_cons.1 hnodup
      obtain ⟨block, hblock, hislink⟩ := hlink first List.mem_cons_self
      have hsecond := hlive second (by simp)
      obtain ⟨next, hnext⟩ := Option.isSome_iff_exists.1 hsecond
      have hallows : block.kind.Allows .next := hislink
      have hstep : g.setNext first second = .ok (g.relink first .next second) := by
        rw [setNext_eq, hblock, hnext]
        exact if_pos hislink
      have htarget : ∀ id label, (g.relink first .next second).target? id label =
          if (id, label) = (first, .next) then some second else g.target? id label :=
        fun id label => target?_relink hsound hblock hallows hsecond
      -- The blocks from the second on are in the new graph what they were in the old one.
      obtain ⟨h, hchain, hchained⟩ := ih (hsound.relink hblock hallows hsecond) hrest
        (fun node hnode => by
          rw [block?_relink]
          exact hlive node (List.mem_cons_of_mem _ hnode))
        (fun node hnode => by
          rw [block?_relink]
          exact hlink node (List.mem_cons_of_mem _ hnode))
        (fun node hnode => by
          have hne : node ≠ first := fun heq => hfirst (heq ▸ List.mem_of_getLast? hnode)
          rw [next?, htarget, if_neg (by simp [hne])]
          exact hlast node (List.getLast?_cons_cons.symm ▸ hnode))
      refine ⟨h, ?_, hchained.sound, hchained.blocks.trans relink_blocks, ?_, ?_, .cons ?_⟩
      · rw [BlockGraph.chain, hstep]
        exact hchain
      · intro id label hother
        rw [hchained.target fun heq hmem => hother heq (List.mem_cons_of_mem _ hmem), htarget, if_neg]
        rintro ⟨⟩
        exact hother rfl List.mem_cons_self
      · intro id hid hloose
        have hne : id ≠ second := fun heq => hid (heq ▸ List.mem_cons_self)
        exact hchained.loose (fun hmem => hid (List.mem_cons_of_mem _ hmem)) (hloose.relink hsound hne)
      · have hfollows : h.source.next first = some second := by
          change h.target? first .next = some second
          rw [hchained.target fun _ => hfirst, htarget, if_pos rfl]
        rw [hfollows]
        exact hchained.chain

end ContractBlocks.BlockGraph
