import ContractBlocks.Proofs.Compile.Filled

namespace ContractBlocks

namespace Part

/-- The places of a block for the part, each with what it is to hold. -/
def entries (part : Part) : List (Place × Content) :=
  part.kind.places.zip part.contents

theorem map_fst_entries (part : Part) : part.entries.map Prod.fst = part.kind.places :=
  List.map_fst_zip (Nat.le_of_eq part.forall₂_takes.length_eq)

theorem flatMap_entries (part : Part) : part.entries.flatMap (fun entry => entry.2.inner) = part.inner := by
  have hcontents : part.entries.map Prod.snd = part.contents :=
    List.map_snd_zip (Nat.le_of_eq part.forall₂_takes.length_eq.symm)
  rw [inner, ← hcontents, List.flatMap_map]

end Part

namespace BlockGraph

/-- Puts a content into a place of a block. The blocks of the parts in it are there already. -/
def fill (g : BlockGraph) (node : NodeId) (nodes : List NodeId) : Place → Content → Except GraphFault BlockGraph
  | .field field, .text text => g.setField node field.name (.text text)
  | .field field, .number n => g.setField node field.name (.ofInt64 n)
  | .field _, _ => .ok g
  | .child slot, _ => g.hang node slot.name nodes
  | .chain slot _, _ => g.hang node slot nodes

mutual

/-- Adds a block for a part, with a block for each part inside it. -/
def build (g : BlockGraph) (part : Part) : Except GraphFault (NodeId × BlockGraph) := do
  let (node, g) := g.add part.kind none
  let g ← g.fillAll node part.entries
  return (node, g)
termination_by (part.components.length, 0)
decreasing_by
  rw [Part.flatMap_entries, part.components_eq]
  exact Prod.Lex.left _ _ (Nat.lt_succ_self _)

/-- Adds blocks for parts, one part after the other. -/
def buildAll (g : BlockGraph) : List Part → Except GraphFault (List NodeId × BlockGraph)
  | [] => return ([], g)
  | part :: parts => do
    let (node, g) ← g.build part
    let (nodes, g) ← g.buildAll parts
    return (node :: nodes, g)
termination_by parts => ((parts.flatMap Part.components).length, 1)
decreasing_by
  · exact Prod.Lex.right' _ (by simp) Nat.zero_lt_one
  · refine Prod.Lex.left _ _ ?_
    rw [List.flatMap_cons, List.length_append, part.components_eq, List.length_cons]
    omega

/-- Fills places of a block, one place after the other. -/
def fillAll (g : BlockGraph) (node : NodeId) : List (Place × Content) → Except GraphFault BlockGraph
  | [] => return g
  | (place, content) :: rest => do
    let (nodes, g) ← g.buildAll content.inner
    let g ← g.fill node nodes place content
    g.fillAll node rest
termination_by entries =>
  (((entries.flatMap fun entry => entry.2.inner).flatMap Part.components).length, entries.length + 2)
decreasing_by
  · exact Prod.Lex.right' _ (by simp) (by simp)
  · exact Prod.Lex.right' _ (by simp) (by simp)

end

/-- The graph of a contract: blocks for all its parts, and a root above them. -/
def ofContract (contract : Contract) : Except GraphFault BlockGraph := do
  let (node, g) ← empty.build (.contract contract)
  let (root, g) := g.add .root none
  g.connect root "CONTRACT" node

/-- A block denotes a part and is not linked to any block outside it: no link ends at it, and it has no
    successor. -/
structure Alone (g : BlockGraph) (node : NodeId) (part : Part) : Prop where
  denotes : g.source.Denotes node part
  loose : g.Loose node
  last : g.next? node = none

/-- `h` is `g` with a new block for each of some parts, and one for each part inside these. -/
structure Raised (g : BlockGraph) (nodes : List NodeId) (parts : List Part) (h : BlockGraph) : Prop where
  sound : h.Sound
  extended : g.Extends h
  nodup : nodes.Nodup
  fresh : ∀ node ∈ nodes, g.block? node = none
  alone : List.Forall₂ h.Alone nodes parts
  adds : g.Adds (parts.flatMap Part.components).length h

/-- `h` is `g` with a new block of which some places are filled. The others are still empty. -/
structure Opened (g : BlockGraph) (node : NodeId) (kind : Kind) (done : List (Place × Content)) (h : BlockGraph) :
    Prop where
  sound : h.Sound
  extended : g.Extends h
  fresh : g.block? node = none
  kind : h.source.kind node = some kind
  loose : h.Loose node
  last : h.next? node = none
  holds : ∀ entry ∈ done, h.source.Holds h.source.Denotes node entry.1 entry.2
  vacant : ∀ name, .slot name ∉ done.map (fun entry => entry.1.site) → h.child? node name = none

variable {g h k : BlockGraph} {node : NodeId} {nodes : List NodeId} {kind : Kind} {part : Part} {parts : List Part}
  {done : List (Place × Content)} {place : Place} {content : Content}

theorem Alone.extend (halone : g.Alone node part) (hsound : g.Sound) (hextends : g.Extends h) : h.Alone node part := by
  have hlive := live_of_denotes halone.denotes
  exact ⟨hextends.denotes hsound halone.denotes, hextends.loose hlive halone.loose,
    (hextends.target hlive .next).trans halone.last⟩

namespace Raised

theorem nil (hsound : g.Sound) : g.Raised [] [] g :=
  ⟨hsound, .refl g, List.nodup_nil, by simp, .nil, rfl, id⟩

/-- What is raised later stands beside what was raised before. -/
theorem cons (hfirst : g.Raised [node] [part] h) (hrest : h.Raised nodes parts k) :
    g.Raised (node :: nodes) (part :: parts) k := by
  have halone : h.Alone node part := (List.forall₂_cons.1 hfirst.alone).1
  have hnew : node ∉ nodes := by
    intro hmem
    exact ne_of_gone (live_of_denotes halone.denotes) (hrest.fresh node hmem) rfl
  refine ⟨hrest.sound, hfirst.extended.trans hrest.extended, List.nodup_cons.2 ⟨hnew, hrest.nodup⟩, ?_,
    .cons (halone.extend hfirst.sound hrest.extended) hrest.alone, ?_⟩
  · intro id hid
    rcases List.mem_cons.1 hid with rfl | htail
    · exact hfirst.fresh id List.mem_cons_self
    · exact hfirst.extended.gone (hrest.fresh id htail)
  · have hadds := hfirst.adds.trans hrest.adds
    rw [List.flatMap_singleton, ← List.length_append, ← List.flatMap_cons] at hadds
    exact hadds

end Raised

/-- Of a block that has just been added no place is filled. -/
theorem Sound.opened_add (hsound : g.Sound) (kind : Kind) :
    g.Opened (g.add kind none).1 kind [] (g.add kind none).2 := by
  have hfresh : g.block? (g.add kind none).1 = none := insert_fresh hsound _
  have hnew := hsound.add kind none
  have htarget : ∀ label, (g.add kind none).2.target? (g.add kind none).1 label = none := fun label =>
    (hsound.target?_eq_of_links_eq hnew (links_insert _)).trans (hsound.target?_of_gone hfresh)
  refine ⟨hnew, hsound.extends_add kind none, hfresh, hsound.kind_add kind none, ?_, htarget .next, by simp,
    fun name _ => htarget (.slot name)⟩
  unfold Loose BlockGraph.add
  rw [links_insert]
  exact hsound.loose_of_gone hfresh

namespace Opened

theorem live (hopened : g.Opened node kind done h) : (h.block? node).isSome :=
  live_of_kind hopened.kind

/-- Blocks that are added beside it change nothing about a block. -/
theorem extend (hopened : g.Opened node kind done h) (hextends : h.Extends k) (hsound : k.Sound) :
    g.Opened node kind done k := by
  have hagrees : h.source.AgreesAt k.source node :=
    agreesAt_of_eq (hextends.block hopened.live) (hextends.target hopened.live)
  refine ⟨hsound, hopened.extended.trans hextends, hopened.fresh, hagrees.kind.symm.trans hopened.kind,
    hextends.loose hopened.live hopened.loose, (hextends.target hopened.live .next).trans hopened.last, ?_, ?_⟩
  · intro entry hentry
    refine (hopened.holds entry hentry).image (hextends.alikeFrom hopened.sound hopened.live) ?_
    intro inner part hreach hpart
    exact hextends.denotes hopened.sound hpart
  · intro name hname
    exact (hextends.target hopened.live (.slot name)).trans (hopened.vacant name hname)

end Opened

section Filling

variable {site : Site} (hfilled : h.Filled node site nodes k) (hsound : h.Sound) (hnode : h.Loose node)
  (hnodes : ∀ id ∈ nodes, h.Loose id)

include hfilled hsound hnode hnodes

/-- What stands below any block is not touched when a place of one is filled, as long as no link ends at
    this block or at those that are put there. -/
theorem Filled.alikeFrom {source child : NodeId} {label : Label} (hchild : h.target? source label = some child) :
    h.source.AlikeFrom k.source id child := by
  apply hsound.alikeFrom_of_loose (node :: nodes)
  · intro id hid
    rcases List.mem_cons.1 hid with rfl | hmem
    · exact hnode
    · exact hnodes id hmem
  · intro id hid
    exact hfilled.block id (List.ne_of_not_mem_cons hid)
  · intro id hid label
    exact hfilled.target id label (List.ne_of_not_mem_cons hid) fun _ hmem => hid (List.mem_cons_of_mem _ hmem)
  · exact hchild

theorem Filled.denotes {inner : NodeId} (hne : inner ≠ node) (hdenotes : h.source.Denotes inner part) :
    k.source.Denotes inner part := by
  have hblock := hfilled.block inner hne
  apply hdenotes.kept
  · simp only [source, hblock]
  · intro site
    cases site with
    | field name => simp only [Source.SameAt, source, hblock]
    | slot name => exact hfilled.target inner (.slot name) hne (by simp)
  · intro slot child hslot
    exact hfilled.alikeFrom hsound hnode hnodes hslot

end Filling

namespace Opened

/-- Filling a place of a new block with new blocks changes nothing that was there before. -/
theorem extends_of_filled {site : Site} (hopened : g.Opened node kind done h) (hfilled : h.Filled node site nodes k)
    (hfresh : ∀ id ∈ nodes, g.block? id = none) : g.Extends k := by
  have hold : ∀ id, (g.block? id).isSome → id ≠ node ∧ id ∉ nodes := by
    intro id hlive
    refine ⟨ne_of_gone hlive hopened.fresh, fun hmem => ?_⟩
    exact ne_of_gone hlive (hfresh id hmem) rfl
  constructor
  · intro id hlive
    rw [hfilled.block id (hold id hlive).1, hopened.extended.block hlive]
  · intro id hlive label
    obtain ⟨hne, hmem⟩ := hold id hlive
    rw [hfilled.target id label hne fun _ => hmem, hopened.extended.target hlive]
  · intro id hlive hloose
    exact hfilled.loose id (hold id hlive).2 (hopened.extended.loose hlive hloose)

/-- A place that is filled joins those that were. -/
theorem fill (hopened : g.Opened node kind done h) (hfilled : h.Filled node place.site nodes k)
    (hnode : node ∉ nodes) (hnodes : ∀ id ∈ nodes, h.Loose id) (hfresh : ∀ id ∈ nodes, g.block? id = none)
    (hsite : place.site ∉ done.map fun entry => entry.1.site)
    (hholds : k.source.Holds k.source.Denotes node place content) :
    g.Opened node kind (done ++ [(place, content)]) k := by
  refine ⟨hfilled.sound, hopened.extends_of_filled hfilled hfresh, hopened.fresh, hfilled.kind.trans hopened.kind,
    hfilled.loose node hnode hopened.loose, hfilled.last.trans hopened.last, ?_, ?_⟩
  · intro entry hentry
    rcases List.mem_append.1 hentry with hmem | hmem
    · refine (hopened.holds entry hmem).kept (hfilled.same _ ?_) ?_
      · intro heq
        exact hsite (heq ▸ List.mem_map_of_mem hmem)
      · intro slot child hslot
        exact hfilled.alikeFrom hopened.sound hopened.loose hnodes hslot
    · cases List.mem_singleton.1 hmem
      exact hholds
  · intro name hname
    rw [List.map_append, List.mem_append, not_or] at hname
    have hne : .slot name ≠ place.site := fun heq => hname.2 (by simp [heq])
    exact (hfilled.same (.slot name) hne).trans (hopened.vacant name hname.1)

end Opened

theorem Raised.exists_part {id : NodeId} (hraised : g.Raised nodes parts h) (hid : id ∈ nodes) :
    ∃ part ∈ parts, h.Alone id part := by
  have halone := hraised.alone
  clear hraised
  induction halone with
  | nil => cases hid
  | @cons node part _ _ hnode _ ih =>
    rcases List.mem_cons.1 hid with rfl | htail
    · exact ⟨part, List.mem_cons_self, hnode⟩
    · obtain ⟨other, hother, hpart⟩ := ih htail
      exact ⟨other, List.mem_cons_of_mem _ hother, hpart⟩

theorem Raised.loose {id : NodeId} (hraised : g.Raised nodes parts h) (hid : id ∈ nodes) : h.Loose id := by
  obtain ⟨part, -, halone⟩ := hraised.exists_part hid
  exact halone.loose

theorem Opened.notMem_of_raised (hopened : g.Opened node kind done h) (hraised : h.Raised nodes parts k) :
    node ∉ nodes := by
  intro hmem
  exact ne_of_gone hopened.live (hraised.fresh node hmem) rfl

/-- New blocks are hung into an empty slot of a block that was there before them. -/
theorem Opened.exists_hang {slot : String} (hopened : g.Opened node kind done h) (hraised : h.Raised nodes parts k)
    (hslot : kind.Has (.slot slot)) (hvacant : .slot slot ∉ done.map fun entry => entry.1.site)
    (hlink : ∀ id ∈ nodes.dropLast, ∃ block, k.block? id = some block ∧ block.kind.isLink) :
    ∃ l, k.hang node slot nodes = .ok l ∧ k.Filled node (.slot slot) nodes l ∧
      l.source.ChainFrom (l.child? node slot) nodes ∧ List.Forall₂ l.source.Denotes nodes parts := by
  have hmid := hopened.extend hraised.extended hraised.sound
  have hnode := hopened.notMem_of_raised hraised
  have hlive : ∀ id ∈ nodes, (k.block? id).isSome := by
    intro id hid
    obtain ⟨part, -, halone⟩ := hraised.exists_part hid
    exact live_of_denotes halone.denotes
  have hlast : ∀ id ∈ nodes, k.next? id = none := by
    intro id hid
    obtain ⟨part, -, halone⟩ := hraised.exists_part hid
    exact halone.last
  obtain ⟨l, hok, hfilled, hchain⟩ := hraised.sound.exists_hang hmid.kind hslot (hmid.vacant slot hvacant) hnode
    hraised.nodup hlive hlink hlast
  have hother : ∀ id ∈ nodes, id ≠ node := fun id hid heq => hnode (heq ▸ hid)
  refine ⟨l, hok, hfilled, hchain, ((List.forall₂_and_left _ _).2 ⟨hother, hraised.alone⟩).imp ?_⟩
  rintro id part ⟨hne, halone⟩
  exact hfilled.denotes hraised.sound hmid.loose (fun _ => hraised.loose) hne halone.denotes

/-- A place is filled with a content of the sort that it takes, once the blocks for it are there. -/
theorem Opened.exists_fill (hopened : g.Opened node kind done h) (hraised : h.Raised nodes content.inner k)
    (hplace : place ∈ kind.places) (htakes : place.Takes content)
    (hsite : place.site ∉ done.map fun entry => entry.1.site) :
    ∃ l, k.fill node nodes place content = .ok l ∧ g.Opened node kind (done ++ [(place, content)]) l ∧
      k.Adds 0 l := by
  have hmid := hopened.extend hraised.extended hraised.sound
  have hhas := Kind.has_site hplace
  have hfinish : ∀ l, k.Filled node place.site nodes l → l.source.Holds l.source.Denotes node place content →
      g.Opened node kind (done ++ [(place, content)]) l ∧ k.Adds 0 l := by
    intro l hfilled hholds
    refine ⟨hmid.fill hfilled (hopened.notMem_of_raised hraised) (fun _ => hraised.loose) ?_ hsite hholds, hfilled.adds⟩
    intro id hid
    exact hopened.extended.gone (hraised.fresh id hid)
  unfold Place.Takes at htakes
  split at htakes
  · next name text =>
    cases hraised.alone
    obtain ⟨l, hok, hfilled, hfield⟩ := hraised.sound.exists_setField hmid.kind hhas (.text text)
    have hholds : l.source.text? node name = some text := by simp [Source.text?, hfield, FieldValue.asText]
    exact ⟨l, hok, hfinish l hfilled hholds⟩
  · next name n =>
    cases hraised.alone
    obtain ⟨l, hok, hfilled, hfield⟩ := hraised.sound.exists_setField hmid.kind hhas (.ofInt64 n)
    have hholds : l.source.integer? node name = some n := by
      simp [Source.integer?, hfield, FieldValue.asInteger?_ofInt64]
    exact ⟨l, hok, hfinish l hfilled hholds⟩
  · next slot part =>
    obtain ⟨child, rfl⟩ : ∃ child, nodes = [child] := List.length_eq_one_iff.1 hraised.alone.length_eq
    obtain ⟨l, hok, hfilled, hchain, hparts⟩ := hopened.exists_hang hraised hhas hsite (by simp)
    exact ⟨l, hok, hfinish l hfilled ⟨htakes, child, hchain.start_eq, (List.forall₂_cons.1 hparts).1⟩⟩
  · next slot category parts =>
    have hlink : ∀ id ∈ nodes.dropLast, ∃ block, k.block? id = some block ∧ block.kind.isLink := by
      intro id hid
      obtain ⟨part, hpart, halone⟩ := hraised.exists_part ((List.dropLast_sublist nodes).subset hid)
      obtain ⟨block, hblock, hkind⟩ := exists_block_of_kind halone.denotes.holds.1
      refine ⟨block, hblock, ?_⟩
      rw [hkind]
      have hchain : .chain slot part.kind.category ∈ kind.places := by
        rw [Part.category_kind, htakes part hpart]
        exact hplace
      exact Kind.isLink_of_chain hchain
    obtain ⟨l, hok, hfilled, hchain, hparts⟩ := hopened.exists_hang hraised hhas hsite hlink
    exact ⟨l, hok, hfinish l hfilled ⟨htakes, nodes, hchain, hparts⟩⟩
  · exact htakes.elim

/-- Wherever a part is built, all edits are done. -/
def Buildable (part : Part) : Prop :=
  ∀ g : BlockGraph, g.Sound → ∃ node h, g.build part = .ok (node, h) ∧ g.Raised [node] [part] h

theorem exists_buildAll (hsound : g.Sound) (hparts : ∀ part ∈ parts, Buildable part) :
    ∃ nodes h, g.buildAll parts = .ok (nodes, h) ∧ g.Raised nodes parts h := by
  induction parts generalizing g with
  | nil =>
    refine ⟨[], g, ?_, .nil hsound⟩
    rw [buildAll]
    rfl
  | cons part parts ih =>
    obtain ⟨node, h, hbuild, hfirst⟩ := hparts part List.mem_cons_self g hsound
    obtain ⟨nodes, k, hall, hrest⟩ := ih hfirst.sound fun other hother => hparts other (List.mem_cons_of_mem _ hother)
    refine ⟨node :: nodes, k, ?_, hfirst.cons hrest⟩
    rw [buildAll, hbuild]
    simp only [Outcome.ok_bind, hall, Outcome.pure_eq_ok]

theorem Opened.exists_fillAll (hopened : g.Opened node kind done h) (entries : List (Place × Content))
    (hparts : ∀ entry ∈ entries, ∀ part ∈ entry.2.inner, Buildable part)
    (hplaces : ∀ entry ∈ entries, entry.1 ∈ kind.places ∧ entry.1.Takes entry.2)
    (hsites : ((done ++ entries).map fun entry => entry.1.site).Nodup) :
    ∃ k, h.fillAll node entries = .ok k ∧ g.Opened node kind (done ++ entries) k ∧
      h.Adds ((entries.flatMap fun entry => entry.2.inner).flatMap Part.components).length k := by
  induction entries generalizing done h with
  | nil =>
    refine ⟨h, ?_, by simpa using hopened, rfl, id⟩
    rw [fillAll]
    rfl
  | cons entry rest ih =>
    obtain ⟨place, content⟩ := entry
    obtain ⟨hplace, htakes⟩ := hplaces (place, content) List.mem_cons_self
    have hsite : place.site ∉ done.map fun entry => entry.1.site := by
      intro hmem
      rw [List.map_append, List.nodup_append] at hsites
      exact hsites.2.2 _ hmem _ (by simp) rfl
    obtain ⟨nodes, mid, hall, hraised⟩ := exists_buildAll hopened.sound (hparts _ List.mem_cons_self)
    obtain ⟨l, hfill, hnext, hsame⟩ := hopened.exists_fill hraised hplace htakes hsite
    obtain ⟨k, hrest, hlast, hmore⟩ := ih hnext (fun other hother => hparts other (List.mem_cons_of_mem _ hother))
      (fun other hother => hplaces other (List.mem_cons_of_mem _ hother)) (by simpa using hsites)
    refine ⟨k, ?_, by simpa using hlast, ?_⟩
    · rw [fillAll]
      simp only [hall, Outcome.ok_bind, hfill, hrest]
    · have hadds := (hraised.adds.trans hsame).trans hmore
      rw [List.flatMap_cons, List.flatMap_append, List.length_append]
      exact hadds

/-- Every part can be built. -/
theorem buildable (part : Part) : Buildable part := by
  induction part using Part.induct_inner with
  | step part ih =>
    intro g hsound
    have hopened := hsound.opened_add part.kind
    have htakes := List.forall₂_iff_zip.1 part.forall₂_takes
    obtain ⟨h, hfill, hfilled, hadds⟩ := hopened.exists_fillAll part.entries
      (fun entry hentry other hother => ih other (by
        rw [← part.flatMap_entries]
        exact List.mem_flatMap.2 ⟨entry, hentry, hother⟩))
      (fun entry hentry => ⟨(List.of_mem_zip hentry).1, htakes.2 hentry⟩)
      (by
        have hsites := part.kind.nodup_sites
        rw [← part.map_fst_entries, List.map_map] at hsites
        exact hsites)
    refine ⟨(g.add part.kind none).1, h, ?_, hfilled.sound, hfilled.extended, by simp, by simp [hfilled.fresh], ?_, ?_⟩
    · rw [build]
      simp only [hfill, Outcome.ok_bind, Outcome.pure_eq_ok]
    · have hholds :
          List.Forall₂ (h.source.Holds h.source.Denotes (g.add part.kind none).1) part.kind.places part.contents :=
        List.forall₂_iff_zip.2 ⟨htakes.1, fun {place content} hentry => hfilled.holds (place, content) hentry⟩
      exact .cons ⟨Source.denotes_of_holds hfilled.kind hholds, hfilled.loose, hfilled.last⟩ .nil
    · have hadds := (hsound.adds_add part.kind_ne_root none).trans hadds
      rw [part.flatMap_entries, Nat.add_comm, ← List.length_cons, ← part.components_eq] at hadds
      rw [List.flatMap_singleton]
      exact hadds

/-- A root on top of a block for a contract is the only root, and the contract is what it compiles to. -/
theorem exists_rooted {contract : Contract} (hraised : empty.Raised [node] [.contract contract] h) :
    ∃ k, (h.add .root none).2.connect (h.add .root none).1 "CONTRACT" node = .ok k ∧
      k.blockCount = h.blockCount + 1 ∧ k.source.compile = .ok contract := by
  have hopened := hraised.sound.opened_add .root
  have halone := (List.forall₂_cons.1 hraised.alone).1.extend hraised.sound hopened.extended
  have hcount : (h.add .root none).2.blockCount = h.blockCount + 1 := blockCount_insert hraised.sound _
  have honly : ∀ id, (h.add .root none).2.source.kind id = some .root → id = (h.add .root none).1 := by
    intro id hkind
    by_contra hne
    have hblock : (h.add .root none).2.block? id = h.block? id := (block?_insert hraised.sound _ id).trans (if_neg hne)
    simp only [source, hblock] at hkind
    cases hraised.adds.root hkind
  generalize (h.add .root none).1 = root, (h.add .root none).2 = mid at *
  have hne : root ≠ node := by
    rintro rfl
    exact Part.kind_ne_root _ (Option.some.inj (halone.denotes.holds.1.symm.trans hopened.kind))
  have hnode : root ∉ [node] := by simpa using hne
  obtain ⟨k, hok, hfilled, hchain⟩ := hopened.sound.exists_hang hopened.kind (by decide)
    (hopened.vacant "CONTRACT" (by simp)) hnode (by simp) (by simpa using live_of_denotes halone.denotes) (by simp)
    (by simpa using halone.last)
  have hdenotes : k.source.Denotes node (.contract contract) :=
    hfilled.denotes hopened.sound hopened.loose (by simpa using halone.loose) (Ne.symm hne) halone.denotes
  have hkind := hfilled.kind.trans hopened.kind
  have hroot : k.source.IsLeastRoot root := by
    refine ⟨(mem_topLevel_iff k root).2 ⟨k.source.mem_ids_of_kind_eq hkind, ?_⟩, hkind, ?_⟩
    · exact hfilled.loose root hnode hopened.loose
    · intro other _ hother
      exact Nat.le_of_eq (honly other (hfilled.adds.root hother)).symm
  refine ⟨k, hok, hfilled.count.trans hcount, ?_⟩
  rw [hroot.compile_eq, Source.compileBelow_eq_ok_iff]
  exact ⟨node, hchain.start_eq, hdenotes⟩

/-- Every contract has a graph: all edits that build it are done, it has a block for each part of the
    contract and the root, and compiling it gives the contract back. -/
theorem compile_ofContract (contract : Contract) :
    ∃ g, ofContract contract = .ok g ∧ g.blockCount = contract.components.length + 1 ∧
      g.source.compile = .ok contract := by
  obtain ⟨node, h, hbuild, hraised⟩ := buildable (.contract contract) empty empty_sound
  obtain ⟨g, hconnect, hcount, hcompile⟩ := exists_rooted hraised
  refine ⟨g, ?_, ?_, hcompile⟩
  · unfold ofContract
    simp only [hbuild, Outcome.ok_bind]
    exact hconnect
  · have hempty : empty.blockCount = 0 := rfl
    rw [hcount, hraised.adds.count, List.flatMap_singleton, hempty, Nat.zero_add, Part.components]

end BlockGraph

end ContractBlocks
