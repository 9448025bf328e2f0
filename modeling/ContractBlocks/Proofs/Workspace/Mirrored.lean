import ContractBlocks.Proofs.Workspace.Grown
import Mathlib.Data.List.Infix

namespace ContractBlocks

open PlacedBlock

namespace PlacedBlock

variable {block : PlacedBlock} {blocks : List PlacedBlock}

theorem distinct_of_mem_preorder (hdistinct : ∀ block ∈ blocks, block.Distinct)
    (hblock : block ∈ blocks.flatMap preorder) : block.Distinct := by
  induction blocks using forest_induction with
  | nil => cases hblock
  | cons head blocks hinside hblocks =>
    obtain ⟨hhead, hdistinct⟩ := List.forall_mem_cons.1 hdistinct
    rw [List.flatMap_cons, preorder_eq, List.cons_append, List.mem_cons, List.mem_append] at hblock
    rcases hblock with rfl | hinner | hrest
    · exact hhead
    · refine hinside (fun inner hmem => ?_) hinner
      obtain ⟨plug, hplug, rfl⟩ := List.mem_map.1 hmem
      exact hhead.of_mem_plugs hplug
    · exact hblocks hdistinct hrest

theorem starts_sublist (first : Nat) (blocks : List PlacedBlock) :
    (starts first blocks).Sublist (List.range' first (blocks.flatMap preorder).length) := by
  induction blocks generalizing first with
  | nil => exact .slnil
  | cons block blocks ih =>
    have hfirst : [first].Sublist (List.range' first block.preorder.length) := by
      rw [length_preorder, Nat.add_comm, List.range'_succ]
      exact (List.nil_sublist _).cons_cons first
    rw [starts, List.flatMap_cons, List.length_append, ← List.range'_append_1]
    exact hfirst.append (ih _)

/-- The first blocks of trees stand in ascending order. -/
theorem starts_ascending (first : Nat) (blocks : List PlacedBlock) :
    (starts first blocks).Pairwise (· < ·) :=
  (List.pairwise_lt_range' 1 Nat.one_pos).sublist (starts_sublist first blocks)

theorem length_starts (first : Nat) (blocks : List PlacedBlock) :
    (starts first blocks).length = blocks.length := by
  induction blocks generalizing first with
  | nil => rfl
  | cons block blocks ih => rw [starts, List.length_cons, List.length_cons, ih]

/-- A tree stands where it starts. -/
theorem preorder_isPrefix_of_start {place : Nat} (first : Nat) (hblock : blocks[place]? = some block) :
    ∃ start, (starts first blocks)[place]? = some (first + start) ∧
      block.preorder <+: (blocks.flatMap preorder).drop start := by
  induction blocks generalizing first place with
  | nil => simp at hblock
  | cons head blocks ih =>
    cases place with
    | zero =>
      cases hblock
      exact ⟨0, rfl, List.prefix_append _ _⟩
    | succ place =>
      obtain ⟨start, hstart, hprefix⟩ := ih (first + head.preorder.length) hblock
      refine ⟨head.preorder.length + start, ?_, ?_⟩
      · rw [starts, List.getElem?_cons_succ, hstart, Nat.add_assoc]
      · rw [List.flatMap_cons, List.drop_append, List.drop_eq_nil_of_le (Nat.le_add_right _ _)]
        simpa using hprefix

end PlacedBlock

namespace Workspace

/-- All blocks of a workspace in preorder, those inside others too. -/
def nodes (workspace : Workspace) : List PlacedBlock :=
  workspace.blocks.flatMap preorder

/-- From its place `id` on, the blocks in preorder are the block and all that is inside it. -/
def Stands (workspace : Workspace) (id : NodeId) (block : PlacedBlock) : Prop :=
  block.preorder <+: workspace.nodes.drop id

/-- The graph has the blocks of the workspace, with their places in preorder as their ids, and the
    links from each to what is plugged into it, and no others. -/
structure Mirrored (workspace : Workspace) (g : BlockGraph) : Prop where
  ids : g.ids = List.range workspace.nodes.length
  blocks : ∀ id block, workspace.nodes[id]? = some block →
    ∃ kind, Kind.ofTag? block.tag = some kind ∧ g.block? id = some ⟨kind, block.editorId, block.fields⟩
  empty : ∀ id block label, workspace.nodes[id]? = some block → block.plug? label = none →
    g.target? id label = none
  /-- A link leads past the blocks that come before what is plugged in. -/
  filled : ∀ id block label inner, workspace.nodes[id]? = some block → block.plug? label = some inner →
    ∃ target, g.target? id label = some target ∧ target = id + 1 + (block.before label).length ∧
      workspace.Stands target inner
  incoming : ∀ id ∈ g.ids, id ∉ g.topLevel → g.links.countP (fun link => link.target = id) = 1
  linkCount : g.linkCount + workspace.blocks.length = g.blockCount
  topLevel : g.topLevel = starts 0 workspace.blocks
  tops : ∀ (place : Nat) block, workspace.blocks[place]? = some block →
    ∃ id, g.topLevel[place]? = some id ∧ workspace.Stands id block

section Mirrored

variable {workspace : Workspace} {g : BlockGraph} {id : NodeId} {block : PlacedBlock} {label : Label}
  (hgrown : BlockGraph.empty.Grown workspace.nodes (wires 0 workspace.nodes) g)

include hgrown

theorem block?_of_grown (hblock : workspace.nodes[id]? = some block) : g.block? id = block.bare? := by
  rw [BlockGraph.block?, hgrown.blocks]
  simp [BlockGraph.empty, hblock]

theorem ids_of_grown : g.ids = List.range workspace.nodes.length := by
  have hlength : g.blocks.length = workspace.nodes.length := by
    rw [hgrown.length_blocks]
    exact Nat.zero_add _
  rw [BlockGraph.ids, hlength, List.filter_eq_self]
  intro id hid
  have hblock := List.getElem?_eq_getElem (List.mem_range.1 hid)
  rw [block?_of_grown hgrown hblock]
  exact hgrown.known _ (List.mem_of_getElem? hblock)

theorem targets_perm_of_grown :
    (starts 0 workspace.blocks ++ g.links.map Link.target).Perm (List.range workspace.nodes.length) := by
  have hends : (g.links.map Link.ends).Perm (wires 0 workspace.nodes) := hgrown.links
  have htargets := hends.map fun wire => wire.2.2
  rw [List.map_map] at htargets
  rw [List.range_eq_range']
  exact (htargets.append_left _).trans (starts_append_targets_perm 0 workspace.blocks)

/-- The blocks at which no link ends are those at which the trees start. -/
theorem topLevel_of_grown : g.topLevel = starts 0 workspace.blocks := by
  have hperm := targets_perm_of_grown hgrown
  have hdisjoint := (List.nodup_append.1 (hperm.nodup_iff.2 List.nodup_range)).2.2
  have hmem : ∀ id, id ∈ g.topLevel ↔ id ∈ starts 0 workspace.blocks := by
    intro id
    rw [g.mem_topLevel_iff, ids_of_grown hgrown, ← hperm.mem_iff, List.mem_append]
    constructor
    · rintro ⟨hstart | htarget, hends⟩
      · exact hstart
      · exact absurd htarget hends
    · intro hstart
      exact ⟨.inl hstart, fun htarget => hdisjoint id hstart id htarget rfl⟩
  -- Two ascending lists with the same elements are one.
  have hgraph := g.topLevel_ascending
  have hforest := starts_ascending 0 workspace.blocks
  have hsame : g.topLevel.Perm (starts 0 workspace.blocks) :=
    (List.perm_ext_iff_of_nodup (hgraph.imp Nat.ne_of_lt) (hforest.imp Nat.ne_of_lt)).2 hmem
  exact hsame.eq_of_pairwise (fun a b _ _ hab hba => absurd hab (Nat.lt_asymm hba)) hgraph hforest

/-- Every block is the start of a tree or the end of one link, but not both. -/
theorem countP_target_of_grown (hid : id ∈ g.ids) (htop : id ∉ g.topLevel) :
    g.links.countP (fun link => link.target = id) = 1 := by
  rw [ids_of_grown hgrown] at hid
  rw [topLevel_of_grown hgrown] at htop
  have hcount := (targets_perm_of_grown hgrown).count_eq id
  rw [List.count_append, List.count_eq_zero_of_not_mem htop, Nat.zero_add,
    List.count_eq_one_of_mem List.nodup_range hid, List.count_eq_countP, List.countP_map] at hcount
  rw [← hcount]
  exact List.countP_congr fun link _ => by simp

theorem linkCount_of_grown : g.linkCount + workspace.blocks.length = g.blockCount := by
  have hlength := (targets_perm_of_grown hgrown).length_eq
  rw [List.length_append, List.length_map, length_starts, ← ids_of_grown hgrown,
    BlockGraph.length_ids] at hlength
  rw [← hlength, BlockGraph.linkCount, Nat.add_comm]

theorem target?_of_grown (hsound : g.Sound) (hdistinct : block.Distinct)
    (hblock : workspace.nodes[id]? = some block) :
    g.target? id label = (block.plug? label).map fun _ => id + 1 + (block.before label).length := by
  refine Option.ext fun target => ?_
  have hends : (∃ link ∈ g.links, link.key = (id, label) ∧ link.target = target) ↔
      (id, label, target) ∈ g.links.map Link.ends := by
    simp [Link.key, Link.ends, and_assoc]
  have hwires : (0 + id, label, target) ∈ wires 0 workspace.nodes ↔ _ := mem_wires_iff
  rw [hsound.target?_eq_some_iff, hends, hgrown.links.mem_iff]
  change (id, label, target) ∈ wires 0 workspace.nodes ↔ _
  rw [Nat.zero_add] at hwires
  rw [hwires, hblock]
  simp only [Option.some.injEq, exists_eq_left', mem_plugWires_iff hdistinct.labels,
    lookup_plugs label hdistinct.inputs, before]
  cases block.plug? label <;> simp [eq_comm]

end Mirrored

/-- What is plugged into a block stands behind the blocks that come before it. -/
theorem stands_of_plug? {workspace : Workspace} {id : NodeId} {block inner : PlacedBlock} {label : Label}
    (hblock : workspace.nodes[id]? = some block) (hdistinct : block.Distinct)
    (hinner : block.plug? label = some inner) :
    workspace.Stands (id + 1 + (block.before label).length) inner := by
  rw [← lookup_plugs label hdistinct.inputs] at hinner
  have hinside : block.before label ++ inner.preorder <+: (workspace.nodes.drop id).drop 1 := by
    refine (inside_isPrefix hinner).trans ?_
    have hblock := (preorder_isPrefix hblock).drop 1
    rwa [preorder_eq] at hblock
  have hstands := hinside.drop (block.before label).length
  rw [List.drop_left, List.drop_drop, List.drop_drop, ← Nat.add_assoc] at hstands
  exact hstands

/-- The graph of a workspace text is the forest of its blocks: one block for each, in preorder, linked
    to just what is plugged into it. -/
theorem mirrored_of_importText {text : String} {g : BlockGraph} (hok : importText text = .ok g) :
    ∃ workspace, readText text = .ok workspace ∧ workspace.Mirrored g := by
  obtain ⟨workspace, hread, hgraph⟩ := importText_eq_ok_iff.1 hok
  have hdistinct := distinct_of_readText hread
  have hgrown := BlockGraph.grown_of_placeAll BlockGraph.empty_sound rfl hdistinct hgraph
  have hsound := BlockGraph.empty_sound.changes (BlockGraph.changes_of_placeAll hgraph)
  have hnodes : ∀ {id : NodeId} {block}, workspace.nodes[id]? = some block → PlacedBlock.Distinct block :=
    fun hblock => distinct_of_mem_preorder hdistinct (List.mem_of_getElem? hblock)
  refine ⟨workspace, hread, ids_of_grown hgrown, ?_, ?_, ?_, ?_, linkCount_of_grown hgrown,
    topLevel_of_grown hgrown, ?_⟩
  · intro id block hblock
    obtain ⟨bare, hbare⟩ := Option.isSome_iff_exists.1 (hgrown.known block (List.mem_of_getElem? hblock))
    obtain ⟨kind, hkind, rfl⟩ := Option.map_eq_some_iff.1 hbare
    exact ⟨kind, hkind, (block?_of_grown hgrown hblock).trans hbare⟩
  · intro id block label hblock hempty
    rw [target?_of_grown hgrown hsound (hnodes hblock) hblock, hempty, Option.map_none]
  · intro id block label inner hblock hfilled
    refine ⟨_, ?_, rfl, stands_of_plug? hblock (hnodes hblock) hfilled⟩
    rw [target?_of_grown hgrown hsound (hnodes hblock) hblock, hfilled, Option.map_some]
  · exact fun id => countP_target_of_grown hgrown
  · intro place block hblock
    obtain ⟨start, hstart, hprefix⟩ := preorder_isPrefix_of_start 0 hblock
    rw [topLevel_of_grown hgrown]
    exact ⟨0 + start, hstart, by rwa [Nat.zero_add]⟩

/-- Two trees, one with a stand-in in an input and one with a successor. -/
theorem mirrored_of_importText_two_trees :
    let text := "\x7b\"blocks\":\x7b\"blocks\":[\x7b\"type\":\"obs_not\",\"inputs\":\x7b\"OBS\":" ++
      "\x7b\"shadow\":\x7b\"type\":\"obs_true\"\x7d\x7d\x7d\x7d,\x7b\"type\":\"bound_block\"," ++
      "\"next\":\x7b\"block\":\x7b\"type\":\"obs_true\"\x7d\x7d\x7d]\x7d\x7d"
    let g : BlockGraph :=
      { blocks := [some ⟨.observation .not, none, []⟩, some ⟨.observation (.literal true), none, []⟩,
          some ⟨.bound, none, []⟩, some ⟨.observation (.literal true), none, []⟩],
        links := [⟨1, 2, .next, 3⟩, ⟨0, 0, .slot "OBS", 1⟩] }
    importText text = .ok g ∧ ∃ workspace, readText text = .ok workspace ∧ workspace.Mirrored g := by
  intro text g
  have hgraph : (importText text).toOption = some g := by decide +kernel
  have hok : importText text = .ok g := by
    cases himport : importText text with
    | error fault =>
      rw [himport] at hgraph
      cases hgraph
    | ok found =>
      rw [himport] at hgraph
      cases hgraph
      rfl
  exact ⟨hok, mirrored_of_importText hok⟩

end Workspace

end ContractBlocks
