import ContractBlocks.Proofs.Compile.Alike
import ContractBlocks.Proofs.Compile.Weights
import ContractBlocks.Proofs.Workspace.Ascending

namespace ContractBlocks

open Relation PlacedBlock

namespace Kind

variable {kind : Kind} {label : Label}

/-- The labels that links from blocks of a kind can have. -/
def labels (kind : Kind) : List Label :=
  (kind.rule.slots.map fun slot => Label.slot slot.name) ++ [.next]

theorem labels_nodup (kind : Kind) : kind.labels.Nodup := by
  have htable : ∀ kind ∈ all, kind.labels.Nodup := by decide
  exact htable kind kind.mem_all

theorem mem_labels_of_allows (hallows : kind.Allows label) : label ∈ kind.labels := by
  cases label with
  | slot name =>
    obtain ⟨slot, hslot⟩ := Option.isSome_iff_exists.1 hallows
    have hname : slot.name = name := by simpa using List.find?_some hslot
    rw [labels, List.mem_append, List.mem_map]
    exact .inl ⟨slot, List.mem_of_find?_eq_some hslot, congrArg Label.slot hname⟩
  | next => simp [labels]

end Kind

namespace PlacedBlock

variable {block inner top : PlacedBlock} {plugs : List (Label × PlacedBlock)} {category : Category}
  {label : Label} {id : Nat}

/-- The category of a block, where its tag names a kind. -/
def category? (block : PlacedBlock) : Option Category :=
  (Kind.ofTag? block.tag).map Kind.category

/-- The number of blocks of a category in the tree that a block is the top of. -/
def tally (category : Category) (block : PlacedBlock) : Nat :=
  block.preorder.countP fun inner => inner.category? = some category

theorem tally_eq (category : Category) (block : PlacedBlock) :
    block.tally category =
      (if block.category? = some category then 1 else 0) +
        (block.plugs.map fun plug => plug.2.tally category).sum := by
  rw [tally, preorder_eq, List.countP_cons, inside, List.countP_flatMap, List.map_map, Nat.add_comm]
  simp only [decide_eq_true_eq]
  rfl

/-- A sum over all that is plugged in is one over labels, as long as these include those in use. -/
theorem sum_plugs_eq (f : PlacedBlock → Nat) {labels : List Label} (hlabels : labels.Nodup)
    (hdistinct : (plugs.map Prod.fst).Nodup) (hmem : ∀ plug ∈ plugs, plug.1 ∈ labels) :
    (plugs.map fun plug => f plug.2).sum =
      (labels.map fun label => (plugs.lookup label).elim 0 f).sum := by
  induction plugs with
  | nil => simp
  | cons plug plugs ih =>
    obtain ⟨label, inner⟩ := plug
    obtain ⟨hnew, hdistinct⟩ := List.nodup_cons.1 hdistinct
    obtain ⟨hlabel, hmem⟩ := List.forall_mem_cons.1 hmem
    have hperm := List.perm_cons_erase hlabel
    have hothers : ((labels.erase label).map fun other => (((label, inner) :: plugs).lookup other).elim 0 f) =
        (labels.erase label).map fun other => (plugs.lookup other).elim 0 f := by
      refine List.map_congr_left fun other hother => ?_
      have hne : other ≠ label := (hlabels.mem_erase_iff.1 hother).1
      rw [lookup_cons, if_neg hne]
    have hrest := ih hdistinct hmem
    -- The label itself is not in use further on, so there it adds nothing.
    rw [(hperm.map _).sum_nat, List.map_cons, List.sum_cons, lookup_eq_none_of_notMem hnew,
      Option.elim_none, Nat.zero_add] at hrest
    rw [(hperm.map _).sum_nat, List.map_cons, List.map_cons, List.sum_cons, List.sum_cons, hothers, hrest,
      lookup_cons, if_pos rfl, Option.elim_some]

/-- What is plugged into a block of a tree belongs to the tree. -/
theorem lt_length_of_plug? (hblock : top.preorder[id]? = some block) (hdistinct : block.Distinct)
    (hinner : block.plug? label = some inner) :
    id + 1 + (block.before label).length < top.preorder.length := by
  have hforest : ([top].flatMap preorder)[id]? = some block := by simpa using hblock
  have htree := (preorder_isPrefix hforest).length_le
  rw [← lookup_plugs label hdistinct.inputs] at hinner
  have hplugs := (inside_isPrefix hinner).length_le
  have hself := length_preorder inner
  rw [List.flatMap_singleton, List.length_drop, length_preorder block] at htree
  rw [List.length_append] at hplugs
  rw [before]
  omega

/-- Every block of a tree but its top is plugged into a block before it. -/
theorem exists_plug_of_lt_length (hdistinct : ∀ block ∈ top.preorder, block.Distinct) (hpositive : 0 < id)
    (hid : id < top.preorder.length) :
    ∃ outer block label inner, outer < id ∧ top.preorder[outer]? = some block ∧
      block.plug? label = some inner ∧ id = outer + 1 + (block.before label).length := by
  have hperm := starts_append_targets_perm 0 [top]
  rw [List.flatMap_singleton] at hperm
  have hmem : id ∈ starts 0 [top] ++ (wires 0 top.preorder).map fun wire => wire.2.2 :=
    hperm.mem_iff.2 (List.mem_range'_1.2 ⟨Nat.zero_le id, by omega⟩)
  rcases List.mem_append.1 hmem with hstart | htarget
  · have hzero : id = 0 := List.mem_singleton.1 hstart
    omega
  · obtain ⟨⟨outer, label, target⟩, hwire, rfl⟩ := List.mem_map.1 htarget
    have hwires : (0 + outer, label, target) ∈ wires 0 top.preorder ↔ _ := mem_wires_iff
    rw [Nat.zero_add] at hwires
    obtain ⟨block, hblock, hplug⟩ := hwires.1 hwire
    have hnames := hdistinct block (List.mem_of_getElem? hblock)
    obtain ⟨hsome, hend⟩ := (mem_plugWires_iff hnames.labels).1 hplug
    rw [lookup_plugs label hnames.inputs] at hsome
    obtain ⟨inner, hinner⟩ := Option.isSome_iff_exists.1 hsome
    refine ⟨outer, block, label, inner, ?_, hblock, hinner, hend⟩
    exact hend ▸ Nat.lt_of_lt_of_le (Nat.lt_succ_self outer) (Nat.le_add_right _ _)

end PlacedBlock

namespace BlockGraph

variable {g : BlockGraph} {id target : NodeId} {block : Block} {label : Label}

theorem Sound.allows_of_target? (hsound : g.Sound) (hblock : g.block? id = some block)
    (htarget : g.target? id label = some target) : block.kind.Allows label := by
  obtain ⟨link, hlink, hkey, -⟩ := hsound.target?_eq_some_iff.1 htarget
  obtain ⟨rfl, rfl⟩ : link.source = id ∧ link.label = label := Prod.ext_iff.1 hkey
  obtain ⟨found, hfound, hallows⟩ := hsound.sources link hlink
  cases hfound.symm.trans hblock
  exact hallows

theorem Sound.linksOnly (hsound : g.Sound) : g.source.LinksOnly := by
  intro node kind hkind hlink
  obtain ⟨block, hblock, rfl⟩ := Option.map_eq_some_iff.1 hkind
  refine Option.eq_none_iff_forall_ne_some.2 fun next hnext => ?_
  have hallows : block.kind.isLink := hsound.allows_of_target? hblock hnext
  rw [hlink] at hallows
  cases hallows

end BlockGraph

namespace Source

variable {S : Source} {contract : Contract}

/-- The ids of a block and of all blocks that are reached from it, each once. -/
structure TreeBelow (S : Source) (root : NodeId) (tree : List NodeId) : Prop where
  nodup : tree.Nodup
  mem_iff : ∀ id, id ∈ tree ↔ ReflTransGen S.RefersTo root id

/-- The number of blocks of a category among some. -/
def tally (S : Source) (category : Category) (nodes : List NodeId) : Nat :=
  nodes.countP fun node => (S.kind node).map Kind.category = some category

theorem exists_denotes_of_compile (hcompile : S.compile = .ok contract) :
    ∃ root node, S.IsLeastRoot root ∧ S.slot root "CONTRACT" = some node ∧
      S.Denotes node (.contract contract) := by
  rw [compile_eq] at hcompile
  cases hleast : S.leastRoot? with
  | none =>
    rw [hleast] at hcompile
    cases hcompile
  | some root =>
    rw [hleast] at hcompile
    obtain ⟨node, hslot, hdenotes⟩ := (S.compileBelow_eq_ok_iff root contract).1 hcompile
    exact ⟨root, node, (S.leastRoot?_eq_some_iff root).1 hleast, hslot, hdenotes⟩

end Source

namespace Workspace

variable {workspace : Workspace} {g : BlockGraph} {category : Category} {block top : PlacedBlock}
  {label : Label} {id root : Nat}

/-- The number of blocks of a category in the tree below an id. -/
def weight (workspace : Workspace) (category : Category) (id : NodeId) : Nat :=
  workspace.nodes[id]?.elim 0 (PlacedBlock.tally category)

namespace Stands

variable (hstands : workspace.Stands root top)

include hstands

theorem getElem?_add (hid : id < top.preorder.length) : workspace.nodes[root + id]? = top.preorder[id]? := by
  obtain ⟨rest, hrest⟩ := hstands
  rw [← List.getElem?_drop, ← hrest, List.getElem?_append_left hid]

theorem getElem?_root : workspace.nodes[root]? = some top := by
  have hfirst : workspace.nodes[root + 0]? = top.preorder[0]? :=
    hstands.getElem?_add (by rw [length_preorder]; omega)
  rw [preorder_eq] at hfirst
  exact hfirst

theorem mem_nodes (hblock : block ∈ top.preorder) : block ∈ workspace.nodes :=
  List.mem_of_mem_drop (hstands.subset hblock)

theorem weight_eq (category : Category) : workspace.weight category root = top.tally category := by
  rw [weight, hstands.getElem?_root, Option.elim_some]

end Stands

namespace Imported

variable (himported : workspace.Imported g)

include himported

theorem kind_eq (hblock : workspace.nodes[id]? = some block) : g.source.kind id = Kind.ofTag? block.tag := by
  change (g.block? id).map Block.kind = _
  rw [himported.block?_eq, hblock, Option.bind_some, bare?, Option.map_map]
  exact Option.map_id'

/-- A link from a block leads to the weight of what is plugged in there. -/
theorem weightAt_target? (hblock : workspace.nodes[id]? = some block) (label : Label) :
    Source.weightAt (workspace.weight category) (g.target? id label) =
      (block.plug? label).elim 0 (PlacedBlock.tally category) := by
  have hdistinct := himported.distinct_of_getElem? hblock
  rw [himported.target?_eq hblock]
  cases hinner : block.plug? label with
  | none => rfl
  | some inner => exact (stands_of_plug? hblock hdistinct hinner).weight_eq category

/-- Only labels that its kind has are in use in a block. -/
theorem mem_labels_of_mem_plugs {kind : Kind} {plug : Label × PlacedBlock}
    (hblock : workspace.nodes[id]? = some block) (hkind : g.source.kind id = some kind)
    (hplug : plug ∈ block.plugs) : plug.1 ∈ kind.labels := by
  have hdistinct := himported.distinct_of_getElem? hblock
  have hsome : (block.plug? plug.1).isSome := by
    rw [← lookup_plugs plug.1 hdistinct.inputs, Option.isSome_iff_ne_none]
    intro hnone
    have hother := List.lookup_eq_none_iff.1 hnone plug hplug
    simp at hother
  obtain ⟨inner, hinner⟩ := Option.isSome_iff_exists.1 hsome
  obtain ⟨found, hfound, rfl⟩ := Option.map_eq_some_iff.1 hkind
  have htarget := himported.target?_eq hblock plug.1
  rw [hinner] at htarget
  exact Kind.mem_labels_of_allows (himported.sound.allows_of_target? hfound htarget)

/-- Counting the blocks of a category in the trees of a workspace is a weight on its graph: every link
    that leaves a block has a label that its kind declares. -/
theorem weighs (category : Category) : g.source.Weighs category (workspace.weight category) := by
  intro node kind hkind
  have hlive : (g.block? node).isSome := by
    obtain ⟨found, hfound, -⟩ := Option.map_eq_some_iff.1 hkind
    exact Option.isSome_iff_exists.2 ⟨found, hfound⟩
  obtain ⟨block, hblock⟩ := himported.exists_block_of_isSome hlive
  have hdistinct := himported.distinct_of_getElem? hblock
  have hcategory : block.category? = some kind.category := by
    rw [category?, ← himported.kind_eq hblock, hkind, Option.map_some]
  have hplugs := sum_plugs_eq (PlacedBlock.tally category) kind.labels_nodup hdistinct.labels fun plug hplug =>
    himported.mem_labels_of_mem_plugs hblock hkind hplug
  have hlabels : (kind.labels.map fun label => (block.plugs.lookup label).elim 0 (PlacedBlock.tally category)) =
      kind.labels.map fun label => Source.weightAt (workspace.weight category) (g.target? node label) := by
    refine List.map_congr_left fun label _ => ?_
    rw [lookup_plugs label hdistinct.inputs, himported.weightAt_target? hblock]
  rw [hlabels, Kind.labels, List.map_append, List.sum_append_nat, List.map_map] at hplugs
  rw [weight, hblock, Option.elim_some, PlacedBlock.tally_eq, hplugs, hcategory, Nat.add_assoc]
  simp only [Option.some.injEq, List.map_cons, List.map_nil, List.sum_cons, List.sum_nil, Nat.add_zero]
  rfl

/-- What is reached from the top of a tree is in the tree. -/
theorem mem_range'_of_reaches (hstands : workspace.Stands root top)
    (hreach : ReflTransGen g.source.RefersTo root id) : id ∈ List.range' root top.preorder.length := by
  induction hreach with
  | refl =>
    rw [length_preorder]
    exact List.mem_range'_1.2 ⟨Nat.le_refl root, by omega⟩
  | @tail outer target _ hrefers ih =>
    obtain ⟨label, htarget⟩ := BlockGraph.refersTo_iff.1 hrefers
    obtain ⟨hle, hlt⟩ := List.mem_range'_1.1 ih
    obtain ⟨place, rfl⟩ := Nat.exists_eq_add_of_le hle
    have hplace : place < top.preorder.length := Nat.lt_of_add_lt_add_left hlt
    have hblock := List.getElem?_eq_getElem hplace
    have hnode := (hstands.getElem?_add hplace).trans hblock
    have hdistinct := himported.distinct_of_getElem? hnode
    rw [himported.target?_eq hnode] at htarget
    obtain ⟨inner, hinner, rfl⟩ := Option.map_eq_some_iff.1 htarget
    have hinside := lt_length_of_plug? hblock hdistinct hinner
    exact List.mem_range'_1.2 ⟨by omega, by omega⟩

/-- All of a tree is reached from its top: every other block is plugged into one that comes before
    it. -/
theorem reaches_of_lt (hstands : workspace.Stands root top) (hid : id < top.preorder.length) :
    ReflTransGen g.source.RefersTo root (root + id) := by
  induction id using Nat.strongRecOn with
  | ind id ih =>
    by_cases hzero : id = 0
    · subst hzero
      exact .refl
    · have hdistinct : ∀ block ∈ top.preorder, block.Distinct := fun block hblock =>
        himported.distinct block (hstands.mem_nodes hblock)
      obtain ⟨outer, block, label, inner, hlt, hblock, hinner, hend⟩ :=
        exists_plug_of_lt_length hdistinct (Nat.pos_of_ne_zero hzero) hid
      have houter : outer < top.preorder.length := Nat.lt_trans hlt hid
      have hnode := (hstands.getElem?_add houter).trans hblock
      have htarget := himported.target?_eq hnode label
      have hplace : root + outer + 1 + (block.before label).length = root + id := by omega
      rw [hinner, Option.map_some, hplace] at htarget
      exact (ih outer hlt houter).tail (BlockGraph.refersTo_iff.2 ⟨label, htarget⟩)

/-- The blocks that are reached from the top of a tree are those of the tree. -/
theorem treeBelow (hstands : workspace.Stands root top) :
    g.source.TreeBelow root (List.range' root top.preorder.length) where
  nodup := List.nodup_range'
  mem_iff id := by
    refine ⟨fun hmem => ?_, himported.mem_range'_of_reaches hstands⟩
    obtain ⟨hle, hlt⟩ := List.mem_range'_1.1 hmem
    obtain ⟨place, rfl⟩ := Nat.exists_eq_add_of_le hle
    exact himported.reaches_of_lt hstands (Nat.lt_of_add_lt_add_left hlt)

theorem map_block?_range' (hstands : workspace.Stands root top) :
    (List.range' root top.preorder.length).map g.block? = top.preorder.map bare? := by
  refine List.ext_getElem (by simp) fun place hleft hright => ?_
  have hplace : place < top.preorder.length := by simpa using hright
  have hnode := (hstands.getElem?_add hplace).trans (List.getElem?_eq_getElem hplace)
  rw [List.getElem_map, List.getElem_map, List.getElem_range', Nat.one_mul, himported.block?_eq, hnode,
    Option.bind_some]

theorem tally_range' (hstands : workspace.Stands root top) (category : Category) :
    g.source.tally category (List.range' root top.preorder.length) = top.tally category := by
  have hblocks := congrArg
    (List.countP fun found : Option Block => (found.map Block.kind).map Kind.category = some category)
    (himported.map_block?_range' hstands)
  rw [List.countP_map, List.countP_map] at hblocks
  refine hblocks.trans (List.countP_congr fun block _ => ?_)
  simp [bare?, category?, Function.comp_def]

/-- Where no link ends, a tree of the workspace stands. -/
theorem exists_top (hroot : root ∈ g.topLevel) : ∃ top ∈ workspace.blocks, workspace.Stands root top := by
  rw [topLevel_of_grown himported.grown] at hroot
  obtain ⟨place, hplace⟩ := List.mem_iff_getElem?.1 hroot
  have hlt : place < workspace.blocks.length := by
    rw [← length_starts 0 workspace.blocks]
    exact (List.getElem?_eq_some_iff.1 hplace).1
  have htop := List.getElem?_eq_getElem hlt
  obtain ⟨start, hstart, hprefix⟩ := preorder_isPrefix_of_start 0 htop
  rw [hplace, Nat.zero_add] at hstart
  cases hstart
  exact ⟨_, List.mem_of_getElem? htop, hprefix⟩

end Imported

/-- The contract that a workspace text compiles to has as many parts of each category as the tree below
    the least root has blocks of it. The blocks of that tree are those of one tree of the workspace. -/
theorem compile_keeps_blocks_of_importText {text : String} {g : BlockGraph} {contract : Contract}
    (hok : importText text = .ok g) (hcompile : g.source.compile = .ok contract) :
    ∃ root tree workspace top, g.source.IsLeastRoot root ∧ g.source.TreeBelow root tree ∧
      readText text = .ok workspace ∧ top ∈ workspace.blocks ∧ tree.map g.block? = top.preorder.map bare? ∧
      (∀ category, category ≠ .root →
        g.source.tally category tree = (Part.contract contract).tally category) ∧
      contract.size = g.source.tally .contract tree := by
  obtain ⟨workspace, hread, himported⟩ := exists_imported_of_importText hok
  obtain ⟨root, node, hroot, hslot, hdenotes⟩ := Source.exists_denotes_of_compile hcompile
  obtain ⟨top, htop, hstands⟩ := himported.exists_top hroot.topLevel
  have hcounts : ∀ category, category ≠ .root →
      g.source.tally category (List.range' root top.preorder.length) =
        (Part.contract contract).tally category := by
    intro category hcategory
    have hweight := hdenotes.weight_root hroot.kind hslot hcategory (himported.weighs category)
      himported.sound.linksOnly
    rw [himported.tally_range' hstands, ← hstands.weight_eq, hweight]
  refine ⟨root, _, workspace, top, hroot, himported.treeBelow hstands, hread, htop,
    himported.map_block?_range' hstands, hcounts, ?_⟩
  rw [hcounts .contract (by decide), Contract.size_eq_tally]

/-- Two contracts and an observation are below the root, and one more observation is not. -/
theorem compile_keeps_blocks_of_importText_stray_observation :
    let text := "\x7b\"blocks\":\x7b\"blocks\":[\x7b\"type\":\"contract_root\",\"inputs\":\x7b\"CONTRACT\":" ++
      "\x7b\"block\":\x7b\"type\":\"contract_assert\",\"inputs\":\x7b\"OBS\":\x7b\"block\":" ++
      "\x7b\"type\":\"obs_true\"\x7d\x7d,\"THEN\":\x7b\"block\":\x7b\"type\":\"contract_close\"\x7d\x7d\x7d\x7d\x7d\x7d" ++
      "\x7d,\x7b\"type\":\"obs_true\"\x7d]\x7d\x7d"
    let contract : Contract := .assert (.literal true) .close
    ∃ g, importText text = .ok g ∧ g.source.compile = .ok contract ∧
      ∃ root tree workspace top, g.source.IsLeastRoot root ∧ g.source.TreeBelow root tree ∧
        readText text = .ok workspace ∧ top ∈ workspace.blocks ∧ tree.map g.block? = top.preorder.map bare? ∧
        (∀ category, category ≠ .root →
          g.source.tally category tree = (Part.contract contract).tally category) ∧
        contract.size = g.source.tally .contract tree := by
  intro text contract
  have hgraph : ((importText text).toOption.map fun g => g.source.compile) = some (.ok contract) := by
    decide +kernel
  cases hok : importText text with
  | error fault =>
    rw [hok] at hgraph
    cases hgraph
  | ok g =>
    rw [hok] at hgraph
    have hcompile := Option.some.inj hgraph
    exact ⟨g, rfl, hcompile, compile_keeps_blocks_of_importText hok hcompile⟩

end Workspace

end ContractBlocks
