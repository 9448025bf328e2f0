import ContractBlocks.Proofs.Compile.Renamed
import ContractBlocks.Proofs.Graph.Extended

namespace ContractBlocks

open Relation

namespace BlockGraph

/-- Every block is the top of a tree or the end of a single link, and links lead to greater ids. -/
structure Forest (g : BlockGraph) : Prop where
  sound : g.Sound
  ascends : ∀ {id label target}, g.target? id label = some target → id < target
  single : ∀ {id other label another target}, g.target? id label = some target →
    g.target? other another = some target → id = other ∧ label = another

/-- Blocks of two graphs that are at the same place: tops of trees that are paired, and what links with
    the same label lead to from blocks at the same place. -/
inductive Matched (g k : BlockGraph) (tops : List (NodeId × NodeId)) : NodeId → NodeId → Prop
  | top {id other : NodeId} (htops : (id, other) ∈ tops) : Matched g k tops id other
  | step {id other target reached : NodeId} {label : Label} (hmatched : Matched g k tops id other)
      (htarget : g.target? id label = some target) (hend : k.target? other label = some reached) :
    Matched g k tops target reached

/-- The tops of two graphs are paired, and blocks at the same place have links with the same labels. -/
structure Paired (g k : BlockGraph) (tops : List (NodeId × NodeId)) : Prop where
  left : (tops.map Prod.fst).Perm g.topLevel
  right : (tops.map Prod.snd).Perm k.topLevel
  same : ∀ {id other}, Matched g k tops id other → ∀ label, (g.target? id label).isSome = (k.target? other label).isSome

variable {g k : BlockGraph} {tops : List (NodeId × NodeId)} {id other another : NodeId}

theorem Matched.swap (hmatched : Matched g k tops id other) : Matched k g (tops.map Prod.swap) other id := by
  induction hmatched with
  | top htops => exact .top (List.mem_map_of_mem htops)
  | step _ htarget hend ih => exact .step ih hend htarget

theorem Paired.swap (hpaired : Paired g k tops) : Paired k g (tops.map Prod.swap) where
  left := by
    rw [List.map_map]
    exact hpaired.right
  right := by
    rw [List.map_map]
    exact hpaired.left
  same hmatched label := by
    have hback := hmatched.swap
    rw [List.map_map, Prod.swap_swap_eq, List.map_id] at hback
    exact (hpaired.same hback label).symm

namespace Paired

variable (hpaired : Paired g k tops)

include hpaired

theorem mem_topLevel_of_mem_tops (htops : (id, other) ∈ tops) : id ∈ g.topLevel :=
  hpaired.left.mem_iff.1 (List.mem_map.2 ⟨(id, other), htops, rfl⟩)

/-- Each top is paired with one other. -/
theorem eq_of_mem_tops (htops : (id, other) ∈ tops) (htops' : (id, another) ∈ tops) : other = another := by
  have hnodup : (tops.map Prod.fst).Nodup := hpaired.left.nodup_iff.2 (g.topLevel_ascending.imp Nat.ne_of_lt)
  exact congrArg Prod.snd (List.inj_on_of_nodup_map hnodup htops htops' rfl)

/-- A block is matched with one other at most: there is only one way to it from a top. -/
theorem eq_of_matched (hforest : g.Forest) (hmatched : Matched g k tops id other)
    (hmatched' : Matched g k tops id another) : other = another := by
  induction hmatched generalizing another with
  | top htops =>
    cases hmatched' with
    | top htops' => exact hpaired.eq_of_mem_tops htops htops'
    | step _ htarget _ =>
      exact absurd (hpaired.mem_topLevel_of_mem_tops htops) (hforest.sound.notMem_topLevel htarget)
  | step _ htarget hreached ih =>
    cases hmatched' with
    | top htops => exact absurd (hpaired.mem_topLevel_of_mem_tops htops) (hforest.sound.notMem_topLevel htarget)
    | step hmatched' htarget' hreached' =>
      obtain ⟨rfl, rfl⟩ := hforest.single htarget htarget'
      rw [← ih hmatched'] at hreached'
      exact Option.some.inj (hreached.symm.trans hreached')

/-- Every block is matched: it is a top, or a block with a smaller id leads to it. -/
theorem exists_matched (hforest : g.Forest) (hid : id ∈ g.ids) : ∃ other, Matched g k tops id other := by
  induction id using Nat.strongRecOn with
  | ind id ih =>
    by_cases htop : id ∈ g.topLevel
    · obtain ⟨⟨top, other⟩, htops, rfl⟩ := List.mem_map.1 (hpaired.left.mem_iff.2 htop)
      exact ⟨other, .top htops⟩
    · have hends : id ∈ g.links.map Link.target := by
        by_contra hloose
        exact htop ((g.mem_topLevel_iff id).2 ⟨hid, hloose⟩)
      obtain ⟨link, hlink, rfl⟩ := List.mem_map.1 hends
      have htarget : g.target? link.source link.label = some link.target :=
        hforest.sound.target?_eq_some_iff.2 ⟨link, hlink, rfl, rfl⟩
      have hsource := (g.mem_ids_iff _).2 (hforest.sound.source_live hlink)
      obtain ⟨other, hmatched⟩ := ih link.source (hforest.ascends htarget) hsource
      have hsame := hpaired.same hmatched link.label
      rw [htarget, Option.isSome_some] at hsame
      obtain ⟨reached, hreached⟩ := Option.isSome_iff_exists.1 hsame.symm
      exact ⟨reached, .step hmatched htarget hreached⟩

theorem mem_ids_of_matched (hsound : g.Sound) (hmatched : Matched g k tops id other) : id ∈ g.ids := by
  cases hmatched with
  | top htops => exact ((g.mem_topLevel_iff id).1 (hpaired.mem_topLevel_of_mem_tops htops)).1
  | step _ htarget _ => exact (g.mem_ids_iff id).2 (hsound.live_of_target? htarget)

theorem mem_topLevel_of_matched (hsound : g.Sound) (hmatched : Matched g k tops id other) (htop : id ∈ g.topLevel) :
    other ∈ k.topLevel := by
  cases hmatched with
  | top htops => exact hpaired.right.mem_iff.1 (List.mem_map.2 ⟨(id, other), htops, rfl⟩)
  | step _ htarget _ => exact absurd htop (hsound.notMem_topLevel htarget)

/-- A choice of matches meets every block of the other graph once. -/
theorem ids_perm (hg : g.Forest) (hk : k.Forest) {h : NodeId → NodeId}
    (hmatched : ∀ id, id ∈ g.ids → Matched g k tops id (h id)) : (g.ids.map h).Perm k.ids := by
  have hback := hpaired.swap
  have hinjective : ∀ id ∈ g.ids, ∀ other ∈ g.ids, h id = h other → id = other := by
    intro id hid other hother heq
    have hswapped := (hmatched other hother).swap
    rw [← heq] at hswapped
    exact hback.eq_of_matched hk (hmatched id hid).swap hswapped
  have hnodup := (List.nodup_range.filter _ : g.ids.Nodup).map_on hinjective
  refine (List.perm_ext_iff_of_nodup hnodup (List.nodup_range.filter _)).2 fun other => ?_
  constructor
  · intro hmem
    obtain ⟨id, hid, rfl⟩ := List.mem_map.1 hmem
    exact hback.mem_ids_of_matched hk.sound (hmatched id hid).swap
  · intro hother
    obtain ⟨id, hswapped⟩ := hback.exists_matched hk hother
    have hid := hswapped.swap
    rw [List.map_map, Prod.swap_swap_eq, List.map_id] at hid
    have hmem := hpaired.mem_ids_of_matched hg.sound hid
    exact List.mem_map.2 ⟨id, hmem, hpaired.eq_of_matched hg (hmatched id hmem) hid⟩

end Paired

/-- The blocks of `k` are those of `g` under other ids, and so are the links and the tops. Only fields may
    have another order. -/
structure Corresponds (g k : BlockGraph) (h : NodeId → NodeId) : Prop where
  ids : (g.ids.map h).Perm k.ids
  blocks : ∀ id block, g.block? id = some block → ∃ other, k.block? (h id) = some other ∧
    other.kind = block.kind ∧ other.editorId = block.editorId ∧ block.fields.Perm other.fields
  target : ∀ id ∈ g.ids, ∀ label, k.target? (h id) label = (g.target? id label).map h
  topLevel : ∀ id ∈ g.ids, h id ∈ k.topLevel ↔ id ∈ g.topLevel

/-- Matching blocks with each other renames one graph into the other. -/
theorem Paired.exists_corresponds (hpaired : Paired g k tops) (hg : g.Forest) (hk : k.Forest)
    (hblocks : ∀ id other block, Matched g k tops id other → g.block? id = some block →
      ∃ image, k.block? other = some image ∧ image.kind = block.kind ∧ image.editorId = block.editorId ∧
        block.fields.Perm image.fields) : ∃ h, g.Corresponds k h := by
  have hexists : ∀ id, ∃ other, id ∈ g.ids → Matched g k tops id other := by
    intro id
    by_cases hid : id ∈ g.ids
    · obtain ⟨other, hmatched⟩ := hpaired.exists_matched hg hid
      exact ⟨other, fun _ => hmatched⟩
    · exact ⟨id, fun hmem => absurd hmem hid⟩
  choose h hmatched using hexists
  refine ⟨h, hpaired.ids_perm hg hk hmatched, ?_, ?_, ?_⟩
  · intro id block hblock
    exact hblocks id (h id) block (hmatched id ((g.mem_ids_iff id).2 (by simp [hblock]))) hblock
  · intro id hid label
    have hsame := hpaired.same (hmatched id hid) label
    cases htarget : g.target? id label with
    | none =>
      rw [htarget] at hsame
      exact Option.isNone_iff_eq_none.1 (by simpa using hsame.symm)
    | some target =>
      rw [htarget, Option.isSome_some] at hsame
      obtain ⟨reached, hreached⟩ := Option.isSome_iff_exists.1 hsame.symm
      have hstep := (hmatched id hid).step htarget hreached
      have hown := hmatched target (hpaired.mem_ids_of_matched hg.sound hstep)
      rw [hreached, Option.map_some, hpaired.eq_of_matched hg hstep hown]
  · intro id hid
    exact ⟨hpaired.swap.mem_topLevel_of_matched hk.sound (hmatched id hid).swap,
      hpaired.mem_topLevel_of_matched hg.sound (hmatched id hid)⟩

namespace Corresponds

variable {h : NodeId → NodeId} (hcorresponds : g.Corresponds k h)

include hcorresponds

/-- Where fields have distinct names, blocks that correspond are alike to the compiler. -/
theorem alike (hsound : g.Sound) (hid : id ∈ g.ids) : g.source.Alike k.source h id := by
  obtain ⟨block, hblock⟩ := Option.isSome_iff_exists.1 ((g.mem_ids_iff id).1 hid)
  obtain ⟨other, hother, hkind, -, hfields⟩ := hcorresponds.blocks id block hblock
  constructor
  · simp only [source, hblock, hother, Option.map_some, hkind]
  · intro name
    have hlookup := lookup_eq_of_perm hfields (hsound.fields id block hblock).1 name
    simp only [source, hblock, hother, Option.bind_some]
    exact hlookup.symm
  · intro name
    exact hcorresponds.target id hid (.slot name)
  · exact hcorresponds.target id hid .next

theorem injective (hid : id ∈ g.ids) (hother : other ∈ g.ids) (heq : h id = h other) : id = other := by
  have hnodup : (g.ids.map h).Nodup := hcorresponds.ids.nodup_iff.2 (List.nodup_range.filter _)
  exact List.inj_on_of_nodup_map hnodup hid hother heq

theorem renamedFrom (hsound : g.Sound) {root : NodeId} (hroot : (g.block? root).isSome) :
    g.source.RenamedFrom k.source h root := by
  have hmem : ∀ id, ReflTransGen g.source.RefersTo root id → id ∈ g.ids := fun id hreach =>
    (g.mem_ids_iff id).2 (hsound.live_of_reaches hroot hreach)
  constructor
  · intro id hreach
    exact hcorresponds.alike hsound (hmem id hreach)
  · intro id other hid hother heq
    exact hcorresponds.injective (hmem id hid) (hmem other hother) heq

/-- A root at the top of a tree corresponds to one. -/
theorem exists_root (hsound : g.Sound) (htop : other ∈ k.topLevel) (hkind : k.source.kind other = some .root) :
    ∃ id ∈ g.topLevel, g.source.kind id = some .root ∧ h id = other := by
  obtain ⟨id, hid, rfl⟩ := List.mem_map.1 (hcorresponds.ids.mem_iff.2 ((k.mem_topLevel_iff other).1 htop).1)
  rw [(hcorresponds.alike hsound hid).kind] at hkind
  exact ⟨id, (hcorresponds.topLevel id hid).1 htop, hkind, rfl⟩

/-- Graphs that correspond compile to the same contract, or fail at blocks that correspond, if at most one
    top is a root. Of several roots the least is taken, and this depends on the ids. -/
theorem compile_eq (hsound : g.Sound)
    (honly : ∀ id ∈ g.topLevel, ∀ other ∈ g.topLevel, g.source.kind id = some .root →
      g.source.kind other = some .root → id = other) :
    k.source.compile = g.source.compile.mapError (.rename h) := by
  cases hleast : g.source.leastRoot? with
  | none =>
    have hnone : k.source.leastRoot? = none := by
      rw [Option.eq_none_iff_forall_ne_some]
      intro other hother
      have hroot := (k.source.leastRoot?_eq_some_iff other).1 hother
      obtain ⟨id, htop, hkind, -⟩ := hcorresponds.exists_root hsound hroot.topLevel hroot.kind
      rw [Source.leastRoot?, List.min?_eq_none_iff] at hleast
      exact List.filter_eq_nil_iff.1 hleast id htop (decide_eq_true hkind)
    rw [Source.compile_eq, Source.compile_eq, hleast, hnone]
    rfl
  | some root =>
    have hroot := (g.source.leastRoot?_eq_some_iff root).1 hleast
    have hid := ((g.mem_topLevel_iff root).1 hroot.topLevel).1
    have himage : k.source.IsLeastRoot (h root) := by
      refine ⟨(hcorresponds.topLevel root hid).2 hroot.topLevel,
        (hcorresponds.alike hsound hid).kind.trans hroot.kind, fun other htop hkind => ?_⟩
      obtain ⟨id, hown, hsame, rfl⟩ := hcorresponds.exists_root hsound htop hkind
      exact Nat.le_of_eq (congrArg h (honly root hroot.topLevel id hown hroot.kind hsame))
    rw [himage.compile_eq, hroot.compile_eq]
    exact (hcorresponds.renamedFrom hsound ((g.mem_ids_iff root).1 hid)).compileBelow_eq

end Corresponds

end BlockGraph

end ContractBlocks
