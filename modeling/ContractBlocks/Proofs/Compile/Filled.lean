import ContractBlocks.Proofs.Compile.Kept
import ContractBlocks.Proofs.Contract.Components
import ContractBlocks.Proofs.Grammar

namespace ContractBlocks

/-- A content is of the sort that the grammar asks for at a place. -/
def Place.Takes : Place → Content → Prop
  | .field ⟨_, .text⟩, .text _ => True
  | .field ⟨_, .number⟩, .number _ => True
  | .child slot, .part part => part.category = slot.category
  | .chain _ inner, .parts parts => ∀ part ∈ parts, part.category = inner
  | _, _ => False

namespace Part

/-- The contents of a part are of the sorts that its places ask for. -/
theorem forall₂_takes (part : Part) : List.Forall₂ Place.Takes part.kind.places part.contents := by
  match part with
  | .contract .close => exact .nil
  | .contract (.pay ..) => exact .cons rfl (.cons rfl (.cons rfl (.cons rfl (.cons rfl .nil))))
  | .contract (.branch ..) => exact .cons rfl (.cons rfl (.cons rfl .nil))
  | .contract (.when ..) =>
    have hcases : ∀ cases : List Case, ∀ part ∈ cases.map Part.case, part.category = .case := by simp [category]
    exact .cons (hcases _) (.cons trivial (.cons rfl .nil))
  | .contract (.define ..) => exact .cons trivial (.cons rfl (.cons rfl .nil))
  | .contract (.assert ..) => exact .cons rfl (.cons rfl .nil)
  | .case (.mk ..) => exact .cons rfl (.cons rfl .nil)
  | .action (.deposit ..) => exact .cons rfl (.cons rfl (.cons rfl (.cons rfl .nil)))
  | .action (.choice ..) =>
    have hbounds : ∀ bounds : List Bound, ∀ part ∈ bounds.map Part.bound, part.category = .bound := by
      simp [category]
    exact .cons rfl (.cons (hbounds _) .nil)
  | .action (.notify _) => exact .cons rfl .nil
  | .bound ⟨_, _⟩ => exact .cons trivial (.cons trivial .nil)
  | .choiceId ⟨_, _⟩ => exact .cons trivial (.cons rfl .nil)
  | .party (.role _) => exact .cons trivial .nil
  | .party (.address _) => exact .cons trivial .nil
  | .payee (.party _) => exact .cons rfl .nil
  | .payee (.account _) => exact .cons rfl .nil
  | .token ⟨_, _⟩ => exact .cons trivial (.cons trivial .nil)
  | .value (.constant _) => exact .cons trivial .nil
  | .value (.availableMoney ..) => exact .cons rfl (.cons rfl .nil)
  | .value (.arithmetic op ..) => exact Kind.places_arithmetic op ▸ .cons rfl (.cons rfl .nil)
  | .value (.negate _) => exact .cons rfl .nil
  | .value (.choiceValue _) => exact .cons rfl .nil
  | .value .timeStart => exact .nil
  | .value .timeEnd => exact .nil
  | .value (.useValue _) => exact .cons trivial .nil
  | .value (.conditional ..) => exact .cons rfl (.cons rfl (.cons rfl .nil))
  | .observation (.literal b) => exact Kind.places_literal b ▸ .nil
  | .observation (.connective op ..) => exact Kind.places_connective op ▸ .cons rfl (.cons rfl .nil)
  | .observation (.not _) => exact .cons rfl .nil
  | .observation (.choseSomething _) => exact .cons rfl .nil
  | .observation (.comparison op ..) => exact Kind.places_comparison op ▸ .cons rfl (.cons rfl .nil)

theorem kind_ne_root (part : Part) : part.kind ≠ .root := by
  intro hroot
  have hcategory := part.category_kind
  rw [hroot] at hcategory
  cases part <;> cases hcategory

end Part

/-- Whether blocks of a kind have a site. -/
def Kind.Has (kind : Kind) : Site → Bool
  | .field name => (kind.field? name).isSome
  | .slot name => (kind.slot? name).isSome

namespace Kind

theorem has_site {kind : Kind} {place : Place} (hplace : place ∈ kind.places) : kind.Has place.site := by
  have htable : ∀ kind ∈ all, ∀ place ∈ kind.places, kind.Has place.site := by decide +kernel
  exact htable kind kind.mem_all place hplace

/-- No two places of a kind are at the same site. -/
theorem nodup_sites (kind : Kind) : (kind.places.map Place.site).Nodup := by
  have htable : ∀ kind ∈ all, (kind.places.map Place.site).Nodup := by decide +kernel
  exact htable kind kind.mem_all

/-- Chains are made of kinds that can have a successor. -/
theorem isLink_of_chain {kind link : Kind} {slot : String} (hplace : .chain slot link.category ∈ kind.places) :
    link.isLink := by
  have htable : ∀ kind ∈ all, kind.rule.chain ∈
      [ChainRole.none, .link, .holder "CASES" .case, .holder "BOUNDS" .bound] := by decide
  have hrole := htable kind kind.mem_all
  rw [chain_eq_holder_of_mem_places hplace] at hrole
  have hcategory : link.category = .case ∨ link.category = .bound := by
    simp only [List.mem_cons, reduceCtorEq, ChainRole.holder.injEq, List.not_mem_nil, or_false, false_or] at hrole
    exact hrole.imp And.right And.right
  cases link <;> simp [category] at hcategory <;> rfl

end Kind

theorem FieldValue.asInteger?_ofInt64 (n : Int64) : (ofInt64 n).asInteger? = some n := by
  have hhigh : n.toInt < 0x8000000000000000 := n.toInt_lt
  simp [ofInt64, Json.Number.ofInt64, asInteger?, numberInteger?, Json.Number.int64?, hhigh]

theorem Source.ChainFrom.start_eq {S : Source} {start : Option NodeId} {nodes : List NodeId}
    (hchain : S.ChainFrom start nodes) : start = nodes.head? := by
  cases hchain <;> rfl

/-- A chain is one in any source with the same successors. -/
theorem Source.ChainFrom.of_next_eq {S T : Source} {start : Option NodeId} {nodes : List NodeId}
    (hchain : S.ChainFrom start nodes) (hnext : ∀ id, T.next id = S.next id) : T.ChainFrom start nodes := by
  induction hchain with
  | nil => exact .nil
  | cons _ ih =>
    rw [← hnext] at ih
    exact .cons ih

namespace BlockGraph

variable {g h : BlockGraph} {node inner : NodeId} {nodes : List NodeId} {kind : Kind} {site : Site} {part : Part}

/-- `h` is `g` with one site of a block filled with a value, or with the chain of some other blocks. At the
    block nothing else has changed, and at the others nothing but their successors. -/
structure Filled (g : BlockGraph) (node : NodeId) (site : Site) (nodes : List NodeId) (h : BlockGraph) : Prop where
  sound : h.Sound
  block : ∀ id, id ≠ node → h.block? id = g.block? id
  kind : h.source.kind node = g.source.kind node
  target : ∀ id label, id ≠ node → (label = .next → id ∉ nodes) → h.target? id label = g.target? id label
  same : ∀ other, other ≠ site → g.source.SameAt h.source node other
  last : h.next? node = g.next? node
  loose : ∀ id, id ∉ nodes → g.Loose id → h.Loose id
  count : h.blockCount = g.blockCount

/-- Filling a site brings no block and changes no kind. -/
theorem Filled.adds (hfilled : g.Filled node site nodes h) : g.Adds 0 h where
  count := hfilled.count
  root := by
    intro id hroot
    by_cases hid : id = node
    · subst hid
      rw [← hfilled.kind]
      exact hroot
    · simp only [source, hfilled.block id hid] at hroot
      exact hroot

/-- Setting a field of the kind fills it. -/
theorem Sound.exists_setField (hsound : g.Sound) (hkind : g.source.kind node = some kind) {name : String}
    (hfield : kind.Has (.field name)) (value : FieldValue) :
    ∃ h, g.setField node name value = .ok h ∧ g.Filled node (.field name) [] h ∧
      h.source.field node name = some value := by
  obtain ⟨block, hblock, rfl⟩ := exists_block_of_kind hkind
  have hlive : (g.block? node).isSome := by simp [hblock]
  have hput := block?_put hlive (block.setField name value)
  have hok : g.setField node name value = .ok (g.put node (block.setField name value)) := by
    rw [setField_eq, hblock]
    refine if_neg ?_
    rw [Option.isNone_iff_eq_none, ← ne_eq, ← Option.isSome_iff_ne_none]
    exact hfield
  have hnew := hsound.change (change_of_setField hok)
  have htarget : ∀ id label, (g.put node (block.setField name value)).target? id label = g.target? id label :=
    fun id label => hsound.target?_eq_of_links_eq hnew rfl
  refine ⟨_, hok, ⟨hnew, ?_, ?_, fun id label _ _ => htarget id label, ?_, htarget node .next,
    fun id _ hloose => hloose, blockCount_put hblock _⟩, ?_⟩
  · intro id hne
    rw [hput, if_neg hne]
  · simp only [source, hput, if_true, hblock]
    rfl
  · intro other hother
    cases other with
    | field other =>
      simp only [Source.SameAt, source, hput, if_true, hblock]
      refine (lookup_putNamed name other value block.fields).trans (if_neg ?_)
      rintro rfl
      exact hother rfl
    | slot other => exact htarget node (.slot other)
  · simp only [source, hput, if_true]
    exact (lookup_putNamed name name value block.fields).trans (if_pos rfl)

/-- Making a chain touches no site of a block outside it. -/
theorem Chained.filled (hchained : g.Chained nodes h) (hnode : node ∉ nodes) (site : Site) :
    g.Filled node site nodes h := by
  have hblock : ∀ id, h.block? id = g.block? id := by
    intro id
    rw [block?, hchained.blocks, block?]
  have htarget : ∀ label, h.target? node label = g.target? node label := fun label => hchained.target fun _ => hnode
  refine ⟨hchained.sound, fun id _ => hblock id, ?_, fun id label _ hother => hchained.target hother, ?_,
    htarget .next, fun id hid => hchained.loose fun hmem => hid (List.mem_of_mem_tail hmem), ?_⟩
  · simp only [source, hblock]
  · intro other _
    cases other with
    | field name => simp only [Source.SameAt, source, hblock]
    | slot name => exact htarget (.slot name)
  · rw [blockCount, hchained.blocks, blockCount]

/-- Putting one of the blocks into the slot goes with making the chain. -/
theorem Filled.relink {slot : String} {block : Block} {first : NodeId} (hfilled : g.Filled node (.slot slot) nodes h)
    (hblock : h.block? node = some block) (hslot : block.kind.Has (.slot slot)) (hfirst : first ∈ nodes)
    (hlive : (h.block? first).isSome) : g.Filled node (.slot slot) nodes (h.relink node (.slot slot) first) := by
  have htarget : ∀ id label, (h.relink node (.slot slot) first).target? id label =
      if (id, label) = (node, .slot slot) then some first else h.target? id label :=
    fun id label => target?_relink hfilled.sound hblock hslot hlive
  refine ⟨hfilled.sound.relink hblock hslot hlive, ?_, ?_, ?_, ?_, ?_, ?_, ?_⟩
  · intro id hne
    rw [block?_relink, hfilled.block id hne]
  · rw [← hfilled.kind]
    simp only [source, block?_relink]
  · intro id label hne hother
    rw [htarget, if_neg (by simp [hne]), hfilled.target id label hne hother]
  · intro other hother
    have hsame := hfilled.same other hother
    cases other with
    | field name =>
      simp only [Source.SameAt, source, block?_relink] at hsame ⊢
      exact hsame
    | slot name =>
      have hne : (node, Label.slot name) ≠ (node, .slot slot) := by
        rintro ⟨⟩
        exact hother rfl
      exact ((htarget node (.slot name)).trans (if_neg hne)).trans hsame
  · rw [next?, htarget, if_neg (by simp)]
    exact hfilled.last
  · intro id hid hloose
    exact (hfilled.loose id hid hloose).relink hfilled.sound fun heq => hid (heq ▸ hfirst)
  · rw [← hfilled.count, blockCount, relink_blocks, blockCount]

/-- Links blocks into a chain and puts the first of them, if there is one, into a slot. -/
def hang (g : BlockGraph) (node : NodeId) (slot : String) (nodes : List NodeId) : Except GraphFault BlockGraph :=
  match g.chain nodes, nodes with
  | (_, some fault), _ => .error fault
  | (g, none), [] => .ok g
  | (g, none), first :: _ => g.connect node slot first

/-- Hanging blocks without successors into an empty slot of the kind fills it with their chain. -/
theorem Sound.exists_hang (hsound : g.Sound) (hkind : g.source.kind node = some kind) {slot : String}
    (hslot : kind.Has (.slot slot)) (hvacant : g.child? node slot = none) (hnode : node ∉ nodes)
    (hnodup : nodes.Nodup) (hlive : ∀ id ∈ nodes, (g.block? id).isSome)
    (hlink : ∀ id ∈ nodes.dropLast, ∃ block, g.block? id = some block ∧ block.kind.isLink)
    (hlast : ∀ id ∈ nodes, g.next? id = none) :
    ∃ h, g.hang node slot nodes = .ok h ∧ g.Filled node (.slot slot) nodes h ∧
      h.source.ChainFrom (h.child? node slot) nodes := by
  obtain ⟨mid, hmid, hchained⟩ := hsound.exists_chained hnodup hlive hlink
    fun id hid => hlast id (List.mem_of_getLast? hid)
  have hfilled := hchained.filled hnode (.slot slot)
  cases nodes with
  | nil =>
    have hok : g.hang node slot [] = .ok mid := by
      unfold hang
      rw [hmid]
    refine ⟨mid, hok, hfilled, ?_⟩
    have hnone : mid.child? node slot = none := (hchained.target fun _ => hnode).trans hvacant
    rw [hnone]
    exact hchained.chain
  | cons first rest =>
    obtain ⟨block, hblock, rfl⟩ := exists_block_of_kind (hfilled.kind.trans hkind)
    have hfirst : (mid.block? first).isSome := by
      rw [block?, hchained.blocks]
      exact hlive first List.mem_cons_self
    obtain ⟨child, hchild⟩ := Option.isSome_iff_exists.1 hfirst
    have hok : mid.connect node slot first = .ok (mid.relink node (.slot slot) first) := by
      rw [connect_eq, hblock, hchild]
      refine if_neg ?_
      rw [Option.isNone_iff_eq_none, ← ne_eq, ← Option.isSome_iff_ne_none]
      exact hslot
    have htarget : ∀ id label, (mid.relink node (.slot slot) first).target? id label =
        if (id, label) = (node, .slot slot) then some first else mid.target? id label :=
      fun id label => target?_relink hchained.sound hblock hslot hfirst
    refine ⟨_, ?_, hfilled.relink hblock hslot List.mem_cons_self hfirst, ?_⟩
    · unfold hang
      rw [hmid]
      exact hok
    · have hhead : (mid.relink node (.slot slot) first).child? node slot = some first :=
        (htarget node (.slot slot)).trans (if_pos rfl)
      rw [hhead]
      refine hchained.chain.of_next_eq fun id => ?_
      exact (htarget id .next).trans (if_neg (by simp))

end BlockGraph

end ContractBlocks
