import ContractBlocks.Graph.Edit
import Mathlib.Data.List.Nodup

namespace ContractBlocks

namespace Link

/-- Where a link starts and what it is for. In a sound graph this tells it from all others. -/
def key (link : Link) : NodeId × Label :=
  (link.source, link.label)

end Link

/-- Whether links with a label may leave the blocks of a kind. -/
def Kind.Allows (kind : Kind) : Label → Prop
  | .slot name => (kind.slot? name).isSome
  | .next => kind.isLink

namespace BlockGraph

/-- What the grammar says of a graph: links leave blocks whose kind has a place for them, end at
    blocks, and are alone in their place, and blocks have each field of their kind at most once, and
    no other. The kinds of the blocks at the ends of links are not looked at. -/
structure Grammatical (g : BlockGraph) : Prop where
  sources : ∀ link ∈ g.links, ∃ block, g.block? link.source = some block ∧ block.kind.Allows link.label
  targets : ∀ link ∈ g.links, (g.block? link.target).isSome
  keys : (g.links.map Link.key).Nodup
  fields : ∀ id block, g.block? id = some block →
    (block.fields.map Prod.fst).Nodup ∧ ∀ name ∈ block.fields.map Prod.fst, (block.kind.field? name).isSome

/-- A grammatical graph whose free ids are free: each once, and no block has one. -/
structure Sound (g : BlockGraph) : Prop extends Grammatical g where
  free : ∀ id ∈ g.freeIds, g.blocks[id]? = some none
  freeIds_nodup : g.freeIds.Nodup

theorem empty_sound : empty.Sound where
  sources := by simp [empty]
  targets := by simp [empty]
  keys := by simp [empty]
  fields := by simp [empty, block?]
  free := by simp [empty]
  freeIds_nodup := by simp [empty]

section Blocks

variable {g : BlockGraph} {id : NodeId}

theorem length_ids (g : BlockGraph) : g.ids.length = g.blockCount := by
  have hblocks : (List.range g.blocks.length).map g.block? = g.blocks := by
    refine List.ext_getElem? fun id => ?_
    by_cases hid : id < g.blocks.length
    · simp [block?, hid]
    · simp [hid]
  unfold blockCount
  conv => rhs; rw [← hblocks]
  rw [List.countP_map, List.countP_eq_length_filter]
  rfl

theorem topLevel_ascending (g : BlockGraph) : g.topLevel.Pairwise (· < ·) :=
  (List.pairwise_lt_range.filter _).filter _

theorem mem_topLevel_iff (g : BlockGraph) (id : NodeId) :
    id ∈ g.topLevel ↔ id ∈ g.ids ∧ id ∉ g.links.map Link.target := by
  simp [topLevel]

theorem lt_length_of_block? (hlive : (g.block? id).isSome) : id < g.blocks.length := by
  by_contra hlength
  simp [block?, List.getElem?_eq_none (Nat.le_of_not_lt hlength)] at hlive

theorem Sound.block?_of_mem_freeIds (hsound : g.Sound) (hfree : id ∈ g.freeIds) : g.block? id = none := by
  simp [block?, hsound.free id hfree]

/-- What stands at an id after something else was put at the place of a block. -/
theorem getElem?_set_join {blocks : List (Option Block)} {place : NodeId} (hplace : place < blocks.length)
    (content : Option Block) (id : NodeId) :
    (blocks.set place content)[id]?.join = if id = place then content else blocks[id]?.join := by
  by_cases hid : id = place
  · subst hid
    simp [hplace]
  · simp [List.getElem?_set_ne (Ne.symm hid), hid]

/-- The id that a new block gets. -/
theorem insert_fresh (hsound : g.Sound) (block : Block) : g.block? (g.insert block).1 = none := by
  unfold insert
  split
  · next id freeIds hfree => exact hsound.block?_of_mem_freeIds (by simp [hfree])
  · simp [block?]

theorem block?_insert (hsound : g.Sound) (block : Block) (id : NodeId) :
    (g.insert block).2.block? id = if id = (g.insert block).1 then some block else g.block? id := by
  unfold insert
  split
  · next place freeIds hfree =>
    have hplace : place < g.blocks.length :=
      (List.getElem?_eq_some_iff.1 (hsound.free place (by simp [hfree]))).1
    exact getElem?_set_join hplace (some block) id
  · by_cases hid : id = g.blocks.length
    · simp [block?, hid]
    · by_cases hlt : id < g.blocks.length
      · simp [block?, hid, List.getElem?_append_left hlt]
      · have hgt : g.blocks.length < id := Nat.lt_of_le_of_ne (Nat.le_of_not_lt hlt) (Ne.symm hid)
        have hlength : (g.blocks ++ [some block]).length ≤ id := by simpa using Nat.succ_le_of_lt hgt
        simp [block?, hid, List.getElem?_eq_none hlength, List.getElem?_eq_none (Nat.le_of_lt hgt)]

@[simp] theorem links_insert (block : Block) : (g.insert block).2.links = g.links := by
  unfold insert
  split <;> rfl

end Blocks

section Links

variable {g : BlockGraph} {source target : NodeId} {label : Label}

namespace Sound

variable (hsound : g.Sound)

include hsound

theorem eq_of_key_eq {link other : Link} (hlink : link ∈ g.links) (hother : other ∈ g.links)
    (hkey : link.key = other.key) : link = other :=
  List.inj_on_of_nodup_map hsound.keys hlink hother hkey

theorem source_live {link : Link} (hlink : link ∈ g.links) : (g.block? link.source).isSome := by
  obtain ⟨block, hblock, -⟩ := hsound.sources link hlink
  simp [hblock]

/-- That the source is there need not be looked at: only blocks that are there have links. -/
theorem link?_eq_find? : g.link? source label = g.links.find? fun link => link.key = (source, label) := by
  unfold link?
  split
  · have hsame : ∀ link : Link, (decide (link.source = source) && decide (link.label = label)) =
        decide (link.key = (source, label)) := by
      intro link
      simp [Link.key, Prod.ext_iff]
    simp only [hsame]
  · next hgone =>
    symm
    refine List.find?_eq_none.2 fun link hmem hkey => hgone ?_
    have hsource : link.source = source := congrArg Prod.fst (of_decide_eq_true hkey)
    exact hsource ▸ hsound.source_live hmem

/-- Looking for a link finds the only one with its key. -/
theorem link?_eq_some_iff {link : Link} :
    g.link? source label = some link ↔ link ∈ g.links ∧ link.key = (source, label) := by
  rw [hsound.link?_eq_find?]
  constructor
  · intro hfound
    exact ⟨List.mem_of_find?_eq_some hfound, by simpa using List.find?_some hfound⟩
  · rintro ⟨hmem, hkey⟩
    cases hfind : g.links.find? fun link => link.key = (source, label) with
    | none => exact absurd (decide_eq_true hkey) (List.find?_eq_none.1 hfind link hmem)
    | some found =>
      have hfound : found.key = (source, label) := by simpa using List.find?_some hfind
      rw [hsound.eq_of_key_eq (List.mem_of_find?_eq_some hfind) hmem (hfound.trans hkey.symm)]

theorem link?_eq_none_iff :
    g.link? source label = none ↔ (source, label) ∉ g.links.map Link.key := by
  rw [Option.eq_none_iff_forall_ne_some]
  simp only [ne_eq, hsound.link?_eq_some_iff, List.mem_map, not_exists]

theorem target?_eq_some_iff :
    g.target? source label = some target ↔ ∃ link ∈ g.links, link.key = (source, label) ∧ link.target = target := by
  simp only [target?, Option.map_eq_some_iff, hsound.link?_eq_some_iff, and_assoc]

theorem isSome_target?_iff : (g.target? source label).isSome ↔ (source, label) ∈ g.links.map Link.key := by
  rw [target?, Option.isSome_map, ← not_iff_not, ← hsound.link?_eq_none_iff]
  simp

theorem mem_targets_iff : target ∈ g.links.map Link.target ↔ ∃ source label, g.target? source label = some target := by
  simp only [hsound.target?_eq_some_iff, List.mem_map]
  constructor
  · rintro ⟨link, hlink, htarget⟩
    exact ⟨link.source, link.label, link, hlink, rfl, htarget⟩
  · rintro ⟨_, _, link, hlink, -, htarget⟩
    exact ⟨link, hlink, htarget⟩

theorem links_nodup : g.links.Nodup :=
  hsound.keys.of_map

end Sound

/-- Losing links, and nothing else, keeps a graph sound. -/
theorem Sound.of_sublist {h : BlockGraph} (hsound : g.Sound) (hblocks : h.blocks = g.blocks)
    (hfree : h.freeIds = g.freeIds) (hlinks : h.links.Sublist g.links) : h.Sound := by
  have hblock : h.block? = g.block? := by
    funext id
    simp [block?, hblocks]
  refine ⟨⟨?_, ?_, hsound.keys.sublist (hlinks.map _), ?_⟩, ?_, hfree ▸ hsound.freeIds_nodup⟩
  · intro link hlink
    rw [hblock]
    exact hsound.sources link (hlinks.subset hlink)
  · intro link hlink
    rw [hblock]
    exact hsound.targets link (hlinks.subset hlink)
  · intro id block hid
    rw [hblock] at hid
    exact hsound.fields id block hid
  · intro id hid
    rw [hblocks]
    exact hsound.free id (hfree ▸ hid)

@[simp] theorem unlink_blocks : (g.unlink source label).2.blocks = g.blocks := by
  unfold unlink
  split <;> rfl

@[simp] theorem unlink_freeIds : (g.unlink source label).2.freeIds = g.freeIds := by
  unfold unlink
  split <;> rfl

@[simp] theorem unlink_fst : (g.unlink source label).1 = g.target? source label := by
  unfold unlink target?
  split
  · next link hlink => simp [hlink]
  · next hnone => simp [hnone]

/-- Emptying a place takes out the link with its key and no other. -/
theorem links_unlink (hsound : g.Sound) :
    (g.unlink source label).2.links = g.links.filter fun link => link.key ≠ (source, label) := by
  unfold unlink
  split
  · next link hlink =>
    obtain ⟨hmem, hkey⟩ := hsound.link?_eq_some_iff.1 hlink
    change g.links.erase link = _
    rw [hsound.links_nodup.erase_eq_filter]
    refine List.filter_congr fun other hother => ?_
    have hsame : other = link ↔ other.key = (source, label) :=
      ⟨fun heq => heq ▸ hkey, fun heq => hsound.eq_of_key_eq hother hmem (heq.trans hkey.symm)⟩
    simp only [ne_eq, ← hsame, bne]
    by_cases heq : other = link <;> simp [heq]
  · next hnone =>
    symm
    rw [List.filter_eq_self]
    intro link hmem
    have hfree := hsound.link?_eq_none_iff.1 hnone
    simpa using fun hkey : link.key = (source, label) => hfree (hkey ▸ List.mem_map_of_mem hmem)

theorem Sound.unlink (hsound : g.Sound) : (g.unlink source label).2.Sound := by
  refine hsound.of_sublist unlink_blocks unlink_freeIds ?_
  rw [links_unlink hsound]
  exact List.filter_sublist

@[simp] theorem addLink_blocks : (g.addLink source label target).blocks = g.blocks := by
  unfold addLink
  split <;> rfl

@[simp] theorem addLink_freeIds : (g.addLink source label target).freeIds = g.freeIds := by
  unfold addLink
  split <;> rfl

theorem exists_links_addLink (g : BlockGraph) (source : NodeId) (label : Label) (target : NodeId) :
    ∃ index, (g.addLink source label target).links = ⟨index, source, label, target⟩ :: g.links := by
  unfold addLink
  split
  · exact ⟨_, rfl⟩
  · exact ⟨_, rfl⟩

theorem Sound.addLink (hsound : g.Sound) {block : Block} (hsource : g.block? source = some block)
    (hallows : block.kind.Allows label) (htarget : (g.block? target).isSome)
    (hnew : (source, label) ∉ g.links.map Link.key) : (g.addLink source label target).Sound := by
  obtain ⟨index, hlinks⟩ := exists_links_addLink g source label target
  have hblock : (g.addLink source label target).block? = g.block? := by
    funext id
    simp [block?]
  refine ⟨⟨?_, ?_, ?_, ?_⟩, ?_, ?_⟩
  · intro link hlink
    rw [hblock]
    rcases List.mem_cons.1 (hlinks ▸ hlink) with rfl | hold
    · exact ⟨block, hsource, hallows⟩
    · exact hsound.sources link hold
  · intro link hlink
    rw [hblock]
    rcases List.mem_cons.1 (hlinks ▸ hlink) with rfl | hold
    · exact htarget
    · exact hsound.targets link hold
  · rw [hlinks, List.map_cons]
    exact List.nodup_cons.2 ⟨hnew, hsound.keys⟩
  · intro id block hid
    rw [hblock] at hid
    exact hsound.fields id block hid
  · simpa using hsound.free
  · simpa using hsound.freeIds_nodup

@[simp] theorem relink_blocks : (g.relink source label target).blocks = g.blocks := by
  simp [relink]

/-- Filling a place puts the new link in front of all that have another key. -/
theorem exists_links_relink (hsound : g.Sound) (source : NodeId) (label : Label) (target : NodeId) :
    ∃ index, (g.relink source label target).links =
      ⟨index, source, label, target⟩ :: g.links.filter fun link => link.key ≠ (source, label) := by
  rw [← links_unlink hsound]
  exact exists_links_addLink _ source label target

theorem Sound.relink (hsound : g.Sound) {block : Block} (hsource : g.block? source = some block)
    (hallows : block.kind.Allows label) (htarget : (g.block? target).isSome) :
    (g.relink source label target).Sound := by
  have hblock : (g.unlink source label).2.block? = g.block? := by
    funext id
    simp [block?]
  refine hsound.unlink.addLink (hblock ▸ hsource) hallows (hblock ▸ htarget) ?_
  rw [links_unlink hsound]
  simp

end Links

end BlockGraph

end ContractBlocks
