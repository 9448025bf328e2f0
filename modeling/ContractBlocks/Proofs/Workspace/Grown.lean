import ContractBlocks.Proofs.Workspace.Distinct
import ContractBlocks.Proofs.Workspace.Preorder

namespace ContractBlocks

open Outcome PlacedBlock

namespace Link

/-- A link without its index. -/
def ends (link : Link) : NodeId × Label × NodeId :=
  (link.source, link.label, link.target)

end Link

namespace PlacedBlock

/-- The block that a graph has for a block of a workspace; what is plugged in is not part of it. -/
def bare? (block : PlacedBlock) : Option Block :=
  (Kind.ofTag? block.tag).map fun kind => ⟨kind, block.editorId, block.fields⟩

end PlacedBlock

namespace BlockGraph

/-- `h` is `g` with the given blocks behind its own and the given links more. No id is free. -/
structure Grown (g : BlockGraph) (blocks : List PlacedBlock) (wires : List (NodeId × Label × NodeId))
    (h : BlockGraph) : Prop where
  freeIds : h.freeIds = []
  known : ∀ block ∈ blocks, block.bare?.isSome
  blocks : h.blocks = g.blocks ++ blocks.map bare?
  links : (h.links.map Link.ends).Perm (g.links.map Link.ends ++ wires)

section Grown

variable {g filled h : BlockGraph} {blocks others : List PlacedBlock}
  {wires more : List (NodeId × Label × NodeId)} {id : NodeId} {label : Label}

theorem Grown.refl (hfree : g.freeIds = []) : g.Grown [] [] g :=
  ⟨hfree, by simp, by simp, by simp⟩

theorem Grown.trans (hfirst : g.Grown blocks wires filled) (hsecond : filled.Grown others more h) :
    g.Grown (blocks ++ others) (wires ++ more) h where
  freeIds := hsecond.freeIds
  known block hblock := (List.mem_append.1 hblock).elim (hfirst.known block) (hsecond.known block)
  blocks := by rw [hsecond.blocks, hfirst.blocks, List.append_assoc, List.map_append]
  links := by
    rw [← List.append_assoc]
    exact hsecond.links.trans (hfirst.links.append_right more)

theorem Grown.perm (hgrown : g.Grown blocks wires h) (hperm : wires.Perm more) : g.Grown blocks more h :=
  { hgrown with links := hgrown.links.trans (hperm.append_left _) }

theorem Grown.length_blocks (hgrown : g.Grown blocks wires h) :
    h.blocks.length = g.blocks.length + blocks.length := by
  rw [hgrown.blocks, List.length_append, List.length_map]

/-- No link leaves the block under that label. -/
def Unplugged (g : BlockGraph) (id : NodeId) (label : Label) : Prop :=
  ∀ target, (id, label, target) ∉ g.links.map Link.ends

theorem Grown.unplugged (hgrown : g.Grown blocks wires h) (hg : g.Unplugged id label)
    (hwires : ∀ target, (id, label, target) ∉ wires) : h.Unplugged id label := by
  intro target hmem
  exact (List.mem_append.1 (hgrown.links.mem_iff.1 hmem)).elim (hg target) (hwires target)

theorem Sound.unplugged (hsound : g.Sound) (hid : g.block? id = none) : g.Unplugged id label := by
  intro target hmem
  obtain ⟨link, hlink, hends⟩ := List.mem_map.1 hmem
  have hsource : link.source = id := congrArg Prod.fst hends
  have hlive := hsound.source_live hlink
  rw [hsource, hid] at hlive
  cases hlive

/-- A link to an empty place is made and takes no other away. -/
theorem grown_relink {target : NodeId} (hsound : g.Sound) (hfree : g.freeIds = [])
    (hunplugged : g.Unplugged id label) : g.Grown [] [(id, label, target)] (g.relink id label target) := by
  obtain ⟨index, hlinks⟩ := exists_links_relink hsound id label target
  have hkept : g.links.filter (fun link => link.key ≠ (id, label)) = g.links := by
    rw [List.filter_eq_self]
    intro link hlink
    refine decide_eq_true fun hkey => hunplugged link.target (List.mem_map.2 ⟨link, hlink, ?_⟩)
    obtain ⟨rfl, rfl⟩ : link.source = id ∧ link.label = label := Prod.ext_iff.1 hkey
    rfl
  refine ⟨by simp [relink, hfree], by simp, by simp, ?_⟩
  rw [hlinks, hkept, List.map_cons]
  exact (List.perm_append_singleton _ _).symm

theorem put_self {block : Block} (hblock : g.block? id = some block) : g.put id block = g := by
  have hget : g.blocks[id]? = some (some block) := Option.join_eq_some_iff.1 hblock
  obtain ⟨hlt, hget⟩ := List.getElem?_eq_some_iff.1 hget
  rw [put, ← hget, List.set_getElem_self]

theorem put_put (g : BlockGraph) (id : NodeId) (old block : Block) :
    (g.put id old).put id block = g.put id block := by
  simp [put]

theorem block?_eq_none_of_length_le (hid : g.blocks.length ≤ id) : g.block? id = none := by
  simp [block?, List.getElem?_eq_none hid]

/-- Setting fields with new names appends them. -/
theorem eq_put_of_setFields {block : Block} {fields : List (String × FieldValue)}
    (hblock : g.block? id = some block) (hnames : ((block.fields ++ fields).map Prod.fst).Nodup)
    (hok : g.setFields id fields = .ok h) :
    h = g.put id { block with fields := block.fields ++ fields } := by
  induction fields generalizing g block with
  | nil =>
    cases hok
    rw [List.append_nil, put_self hblock]
  | cons field fields ih =>
    obtain ⟨name, value⟩ := field
    obtain ⟨set, hset, hok⟩ := bind_eq_ok_iff.1 hok
    rw [setField_eq] at hset
    simp only [hblock] at hset
    split at hset
    · cases hset
    · cases hset
      have hnew : name ∉ block.fields.map Prod.fst := by
        rw [List.map_append, List.nodup_append] at hnames
        exact fun hold => hnames.2.2 name hold name List.mem_cons_self rfl
      have happend : block.setField name value = { block with fields := block.fields ++ [(name, value)] } := by
        rw [Block.setField, putNamed_of_notMem hnew]
      have hput : (g.put id (block.setField name value)).block? id = some (block.setField name value) := by
        rw [block?_put (by simp [hblock]), if_pos rfl]
      rw [ih hput (by simpa [happend] using hnames) hok, put_put, happend]
      simp

theorem Begun.grown {block : PlacedBlock} (hfree : g.freeIds = [])
    (hfields : (block.fields.map Prod.fst).Nodup) (hbegun : g.Begun block id h) :
    id = g.blocks.length ∧ g.Grown [block] [] h := by
  obtain ⟨kind, hkind, rfl, hok⟩ := hbegun
  have hadd : g.add kind block.editorId =
      (g.blocks.length, { g with blocks := g.blocks ++ [some { kind, editorId := block.editorId }] }) := by
    rw [add, insert, hfree]
  rw [hadd] at hok ⊢
  have hblock : BlockGraph.block?
      { g with blocks := g.blocks ++ [some { kind, editorId := block.editorId }] } g.blocks.length =
        some { kind, editorId := block.editorId } := by
    simp [block?]
  obtain rfl := eq_put_of_setFields hblock (by simpa using hfields) hok
  refine ⟨rfl, hfree, by simp [bare?, hkind], ?_, by simp [put]⟩
  simp [put, bare?, hkind]

theorem Grown.unplugged_new {block : PlacedBlock} (hgrown : g.Grown [block] [] h) (hsound : g.Sound) :
    h.Unplugged g.blocks.length label :=
  hgrown.unplugged (hsound.unplugged (block?_eq_none_of_length_le le_rfl)) (by simp)

/-- A block that is begun is followed by what is plugged into it. -/
theorem Grown.preorder {block : PlacedBlock} {begun : BlockGraph} (hbegun : g.Grown [block] [] begun)
    (hfilled : begun.Grown (inside block.plugs)
      (plugWires g.blocks.length begun.blocks.length block.plugs ++
        PlacedBlock.wires begun.blocks.length (inside block.plugs)) h) :
    g.Grown block.preorder (PlacedBlock.wires g.blocks.length block.preorder) h := by
  rw [hbegun.length_blocks] at hfilled
  rw [preorder_eq, PlacedBlock.wires]
  exact hbegun.trans hfilled

/-- The links inside a new block leave later blocks, so the place for the link to it is still empty. -/
theorem Grown.linked {block : PlacedBlock} {linked : BlockGraph}
    (hinner : g.Grown block.preorder (PlacedBlock.wires g.blocks.length block.preorder) filled)
    (hsound : filled.Sound) (hid : id < g.blocks.length) (hunplugged : g.Unplugged id label)
    (hlinked : filled.Relinked id label g.blocks.length linked) :
    g.Grown block.preorder
        (PlacedBlock.wires g.blocks.length block.preorder ++ [(id, label, g.blocks.length)]) linked ∧
      ∀ other ≠ label, g.Unplugged id other → linked.Unplugged id other := by
  have hlater : ∀ other target, (id, other, target) ∉ PlacedBlock.wires g.blocks.length block.preorder :=
    fun other target hmem => Nat.not_lt.2 (le_of_mem_wires hmem) hid
  have hplaces := hinner.unplugged hunplugged (hlater label)
  have hgrown := hinner.trans (hlinked.2.2 ▸ grown_relink hsound hinner.freeIds hplaces)
  rw [List.append_nil] at hgrown
  refine ⟨hgrown, fun other hother hplace => hgrown.unplugged hplace fun target hmem => ?_⟩
  rcases List.mem_append.1 hmem with hinside | hlink
  · exact hlater other target hinside
  · exact hother (congrArg (fun wire => wire.2.1) (List.mem_singleton.1 hlink))

end Grown

/-- What is plugged into a block comes behind all other blocks in preorder, and the only new links are
    those to it and those inside it. -/
theorem Plugged.grown {id : NodeId} {g h : BlockGraph} {plugs : List (Label × PlacedBlock)}
    (hplugged : Plugged id g plugs h) (hsound : g.Sound) (hfree : g.freeIds = [])
    (hid : id < g.blocks.length) (hdistinct : ∀ plug ∈ plugs, plug.2.Distinct)
    (hlabels : (plugs.map Prod.fst).Nodup) (hunplugged : ∀ plug ∈ plugs, g.Unplugged id plug.1) :
    g.Grown (inside plugs)
      (plugWires id g.blocks.length plugs ++ wires g.blocks.length (inside plugs)) h := by
  induction hplugged with
  | nil => exact .refl hfree
  | @cons id inner g begun filled linked h label block plugs hbegun hfilled hlinked hrest ihfilled ihrest =>
    obtain ⟨hblock, hdistinct⟩ := List.forall_mem_cons.1 hdistinct
    obtain ⟨hunplugged, hothers⟩ := List.forall_mem_cons.1 hunplugged
    obtain ⟨hnew, hlabels⟩ := List.nodup_cons.1 hlabels
    obtain ⟨rfl, hgrown⟩ := hbegun.grown hfree hblock.fields
    have hbegunSound := hsound.changes hbegun.changes
    have hfilledSound := hbegunSound.changes hfilled.changes
    have hrelinked := relinked_of_plug hlinked
    have hinner := hgrown.preorder (ihfilled hbegunSound hgrown.freeIds
      (hgrown.length_blocks ▸ Nat.lt_succ_self _) (fun plug hplug => hblock.of_mem_plugs hplug)
      hblock.labels fun plug _ => hgrown.unplugged_new hsound)
    obtain ⟨hfirst, hplaces⟩ := hinner.linked hfilledSound hid hunplugged hrelinked
    have hlast := ihrest (hfilledSound.change hrelinked.change) hfirst.freeIds
      (hfirst.length_blocks ▸ Nat.lt_add_right _ hid) hdistinct hlabels fun plug hplug =>
        hplaces plug.1 (fun hsame => hnew (hsame ▸ List.mem_map_of_mem hplug)) (hothers plug hplug)
    rw [hfirst.length_blocks] at hlast
    rw [inside_cons, plugWires, wires_append]
    refine (hfirst.trans hlast).perm ?_
    simpa using List.perm_append_comm_assoc (wires g.blocks.length block.preorder)
      ((id, label, g.blocks.length) :: plugWires id _ plugs) _

theorem Placed.grown {id : NodeId} {g h : BlockGraph} {block : PlacedBlock}
    (hplaced : g.Placed block id h) (hsound : g.Sound) (hfree : g.freeIds = [])
    (hdistinct : block.Distinct) :
    g.Grown block.preorder (wires g.blocks.length block.preorder) h := by
  obtain ⟨begun, hbegun, hfilled⟩ := hplaced
  obtain ⟨rfl, hgrown⟩ := hbegun.grown hfree hdistinct.fields
  exact hgrown.preorder (hfilled.grown (hsound.changes hbegun.changes) hgrown.freeIds
    (hgrown.length_blocks ▸ Nat.lt_succ_self _) (fun plug hplug => hdistinct.of_mem_plugs hplug)
    hdistinct.labels fun plug _ => hgrown.unplugged_new hsound)

/-- The graph of blocks that are added one after the other is their forest in preorder. -/
theorem grown_of_placeAll {g h : BlockGraph} {blocks : List PlacedBlock} (hsound : g.Sound)
    (hfree : g.freeIds = []) (hdistinct : ∀ block ∈ blocks, block.Distinct)
    (hok : g.placeAll blocks = .ok h) :
    g.Grown (blocks.flatMap preorder) (wires g.blocks.length (blocks.flatMap preorder)) h := by
  induction blocks generalizing g with
  | nil =>
    cases hok
    exact .refl hfree
  | cons block blocks ih =>
    obtain ⟨hblock, hdistinct⟩ := List.forall_mem_cons.1 hdistinct
    obtain ⟨⟨id, placed⟩, hplace, hok⟩ := bind_eq_ok_iff.1 hok
    have hplaced := placed_of_place block hplace
    have hfirst := hplaced.grown hsound hfree hblock
    have hrest := ih (hsound.changes hplaced.changes) hfirst.freeIds hdistinct hok
    rw [hfirst.length_blocks] at hrest
    rw [List.flatMap_cons, wires_append]
    exact hfirst.trans hrest

end BlockGraph

end ContractBlocks
