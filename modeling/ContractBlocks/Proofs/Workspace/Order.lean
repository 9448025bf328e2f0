import ContractBlocks.Proofs.Graph.Matched
import ContractBlocks.Proofs.Workspace.Rearranged
import ContractBlocks.Proofs.Workspace.Subtrees

namespace ContractBlocks

open Relation PlacedBlock BlockGraph

theorem eq_of_countP_le_one {α : Type} {p : α → Bool} {items : List α} {a b : α} (hcount : items.countP p ≤ 1)
    (ha : a ∈ items) (hpa : p a) (hb : b ∈ items) (hpb : p b) : a = b := by
  have hamem : a ∈ items.filter p := List.mem_filter.2 ⟨ha, hpa⟩
  have hbmem : b ∈ items.filter p := List.mem_filter.2 ⟨hb, hpb⟩
  rw [List.countP_eq_length_filter] at hcount
  generalize items.filter p = found at hcount hamem hbmem
  match found with
  | [only] => rw [List.mem_singleton.1 hamem, List.mem_singleton.1 hbmem]
  | _ :: _ :: _ =>
    simp only [List.length_cons] at hcount
    omega

theorem forall₂_comp {α β γ : Type} {R : α → β → Prop} {Q : β → γ → Prop} {as : List α} {bs : List β} {cs : List γ}
    (hleft : List.Forall₂ R as bs) (hright : List.Forall₂ Q bs cs) : List.Forall₂ (Comp R Q) as cs := by
  induction hleft generalizing cs with
  | nil =>
    cases hright
    exact .nil
  | cons hfirst _ ih =>
    cases hright with
    | cons hsecond hrest => exact .cons ⟨_, hfirst, hsecond⟩ (ih hrest)

namespace Workspace

variable {workspace rearranged : Workspace} {g k : BlockGraph} {tops : List (NodeId × NodeId)} {id other : NodeId}

/-- The graph of a workspace is a forest. -/
theorem Imported.forest (himported : workspace.Imported g) : g.Forest where
  sound := himported.sound
  ascends := himported.lt_of_target?
  single := by
    intro id other label another target htarget htarget'
    have hlive := himported.sound.live_of_target? htarget
    have hcount := countP_target_of_grown himported.grown ((g.mem_ids_iff target).2 hlive)
      (himported.sound.notMem_topLevel htarget)
    obtain ⟨link, hlink, hkey, hend⟩ := himported.sound.target?_eq_some_iff.1 htarget
    obtain ⟨link', hlink', hkey', hend'⟩ := himported.sound.target?_eq_some_iff.1 htarget'
    obtain rfl := eq_of_countP_le_one (Nat.le_of_eq hcount) hlink (decide_eq_true hend) hlink' (decide_eq_true hend')
    exact Prod.ext_iff.1 (hkey.symm.trans hkey')

/-- The trees of a workspace stand at the tops of its graph, one after the other. -/
theorem Imported.forall₂_stands (himported : workspace.Imported g) :
    List.Forall₂ workspace.Stands g.topLevel workspace.blocks := by
  rw [topLevel_of_grown himported.grown, List.forall₂_iff_get]
  refine ⟨length_starts 0 workspace.blocks, fun place hstart hblock => ?_⟩
  obtain ⟨start, hget, hprefix⟩ := preorder_isPrefix_of_start 0 (List.getElem?_eq_getElem hblock)
  rw [List.getElem?_eq_getElem hstart, Option.some.injEq, Nat.zero_add] at hget
  rw [List.get_eq_getElem, List.get_eq_getElem, hget]
  exact hprefix

/-- Trees that differ only in the order of what is in them stand at two ids. -/
def Counterparts (workspace rearranged : Workspace) (id other : NodeId) : Prop :=
  ∃ block image, workspace.Stands id block ∧ rearranged.Stands other image ∧ block.Rearranged image

section Rearranged

variable (himported : workspace.Imported g) (hother : rearranged.Imported k)

include himported hother

/-- The tops of the graphs of two workspaces are paired along the rearrangement. -/
theorem exists_tops (hrearranged : workspace.Rearranged rearranged) :
    ∃ tops : List (NodeId × NodeId), (tops.map Prod.fst).Perm g.topLevel ∧
      tops.map Prod.snd = k.topLevel ∧ ∀ pair ∈ tops, workspace.Counterparts rearranged pair.1 pair.2 := by
  obtain ⟨between, hperm, htrees⟩ := hrearranged
  -- The ids of the tops take the order that their trees have after the permutation.
  have hcomp : Comp (List.Forall₂ workspace.Stands) List.Perm g.topLevel between :=
    ⟨workspace.blocks, himported.forall₂_stands, hperm⟩
  rw [List.forall₂_comp_perm_eq_perm_comp_forall₂] at hcomp
  obtain ⟨ids, hids, hstands⟩ := hcomp
  have hpairs := forall₂_comp (forall₂_comp hstands htrees) hother.forall₂_stands.flip
  have hlength := hpairs.length_eq
  refine ⟨ids.zip k.topLevel, ?_, List.map_snd_zip (Nat.le_of_eq hlength.symm), ?_⟩
  · rw [List.map_fst_zip (Nat.le_of_eq hlength)]
    exact hids.symm
  · rintro ⟨id, other⟩ hpair
    obtain ⟨image, ⟨block, hblock, hsame⟩, himage⟩ := (List.forall₂_iff_zip.1 hpairs).2 hpair
    exact ⟨block, image, hblock, himage, hsame⟩

/-- What the same label leads to from counterparts is again a pair of counterparts, or nothing from
    either. -/
theorem Counterparts.rel_target? (hcounterparts : workspace.Counterparts rearranged id other) (label : Label) :
    Option.Rel (workspace.Counterparts rearranged) (g.target? id label) (k.target? other label) := by
  obtain ⟨block, image, hblock, himage, hsame⟩ := hcounterparts
  have hnode := hblock.getElem?_root
  have hnode' := himage.getElem?_root
  have hdistinct := himported.distinct_of_getElem? hnode
  have hdistinct' := hother.distinct_of_getElem? hnode'
  have hplug := hsame.plug? hdistinct.inputs label
  have hstands : ∀ inner, block.plug? label = some inner →
      workspace.Stands (id + 1 + (block.before label).length) inner :=
    fun inner => stands_of_plug? hnode hdistinct
  have hstands' : ∀ inner, image.plug? label = some inner →
      rearranged.Stands (other + 1 + (image.before label).length) inner :=
    fun inner => stands_of_plug? hnode' hdistinct'
  rw [himported.target?_eq hnode, hother.target?_eq hnode']
  generalize block.plug? label = plug, image.plug? label = plug' at hplug hstands hstands' ⊢
  cases hplug with
  | none => exact .none
  | some hinner => exact .some ⟨_, _, hstands _ rfl, hstands' _ rfl, hinner⟩

theorem counterparts_of_matched (htops : ∀ pair ∈ tops, workspace.Counterparts rearranged pair.1 pair.2)
    (hmatched : Matched g k tops id other) : workspace.Counterparts rearranged id other := by
  induction hmatched with
  | top hpair => exact htops _ hpair
  | @step id other target reached label _ htarget hreached ih =>
    have hrel := ih.rel_target? himported hother label
    rw [htarget, hreached] at hrel
    cases hrel with
    | some hcounterparts => exact hcounterparts

/-- The blocks of counterparts differ only in the order of their fields. -/
theorem Counterparts.exists_block (hcounterparts : workspace.Counterparts rearranged id other) {found : Block}
    (hfound : g.block? id = some found) :
    ∃ image, k.block? other = some image ∧ image.kind = found.kind ∧ image.editorId = found.editorId ∧
      found.fields.Perm image.fields := by
  obtain ⟨block, image, hblock, himage, hsame⟩ := hcounterparts
  rw [himported.block?_eq, hblock.getElem?_root, Option.bind_some, bare?] at hfound
  obtain ⟨kind, hkind, rfl⟩ := Option.map_eq_some_iff.1 hfound
  refine ⟨⟨kind, image.editorId, image.fields⟩, ?_, rfl, hsame.editorId_eq, hsame.fields_perm⟩
  rw [hother.block?_eq, himage.getElem?_root, Option.bind_some, bare?, hsame.tag_eq, hkind, Option.map_some]

/-- The graphs of workspaces that differ only in order correspond to each other. -/
theorem exists_corresponds (hrearranged : workspace.Rearranged rearranged) : ∃ h, g.Corresponds k h := by
  obtain ⟨tops, hleft, hright, htops⟩ := exists_tops himported hother hrearranged
  have hmatched : ∀ {id other}, Matched g k tops id other → workspace.Counterparts rearranged id other :=
    counterparts_of_matched himported hother htops
  have hpaired : Paired g k tops := by
    refine ⟨hleft, hright ▸ .refl _, fun hsame label => ?_⟩
    exact isSome_eq_of_rel ((hmatched hsame).rel_target? himported hother label)
  refine hpaired.exists_corresponds himported.forest hother.forest ?_
  intro id other block hsame
  exact (hmatched hsame).exists_block himported hother

end Rearranged

/-- The roots among the tops are as many as the blocks with the tag of a root in the workspace. -/
theorem Imported.countP_roots (himported : workspace.Imported g) :
    g.topLevel.countP (fun id => g.source.kind id = some .root) =
      workspace.blocks.countP fun block => block.tag = Kind.root.tag := by
  have hroot : ∀ id block, workspace.Stands id block →
      (decide (g.source.kind id = some .root) = true ↔ decide (block.tag = Kind.root.tag) = true) := by
    intro id block hstands
    rw [decide_eq_true_iff, decide_eq_true_iff, himported.kind_eq hstands.getElem?_root, Kind.ofTag?_eq_some_iff]
  rw [List.countP_eq_length_filter, List.countP_eq_length_filter]
  exact (List.rel_filter (fun {id block} => hroot id block) himported.forall₂_stands).length_eq

/-- Rearranging a workspace does not change whether it has a graph. -/
theorem exists_graph_iff_of_rearranged (hrearranged : workspace.Rearranged rearranged) :
    (∃ g, workspace.graph = .ok g) ↔ ∃ k, rearranged.graph = .ok k := by
  obtain ⟨between, hperm, htrees⟩ := hrearranged
  have hfaults : (workspace.blocks.flatMap faults).Perm (rearranged.blocks.flatMap faults) :=
    (hperm.flatMap_right _).trans
      (flatMap_perm_of_forall₂ htrees fun block _ other hsame => faults_perm_of_rearranged block hsame)
  rw [exists_graph_iff, exists_graph_iff]
  constructor
  · intro hnone
    exact (hnone ▸ hfaults).symm.eq_nil
  · intro hnone
    exact (hnone ▸ hfaults).eq_nil

theorem exists_importText_iff {text : String} (hread : readText text = .ok workspace) :
    (∃ g, importText text = .ok g) ↔ ∃ g, workspace.graph = .ok g := by
  refine exists_congr fun g => ?_
  rw [importText_eq_ok_iff, hread]
  simp

/-- The order in which a workspace lists blocks, fields and inputs matters neither to whether it is
    accepted nor to what it compiles to. Where compiling fails, it fails at corresponding blocks and for the
    same reason. -/
theorem compile_eq_of_rearranged {text other : String} (hread : readText text = .ok workspace)
    (hother : readText other = .ok rearranged) (hrearranged : workspace.Rearranged rearranged)
    (hroots : workspace.blocks.countP (fun block => block.tag = Kind.root.tag) ≤ 1) :
    ((∃ g, importText text = .ok g) ↔ ∃ k, importText other = .ok k) ∧
    ∀ g k, importText text = .ok g → importText other = .ok k →
      ∃ h, g.Corresponds k h ∧ k.source.compile = g.source.compile.mapError (.rename h) := by
  constructor
  · rw [exists_importText_iff hread, exists_importText_iff hother]
    exact exists_graph_iff_of_rearranged hrearranged
  · intro g k hok hok'
    obtain ⟨_, hread', himported⟩ := exists_imported_of_importText hok
    cases hread.symm.trans hread'
    obtain ⟨_, hread', hother'⟩ := exists_imported_of_importText hok'
    cases hother.symm.trans hread'
    obtain ⟨h, hcorresponds⟩ := exists_corresponds himported hother' hrearranged
    refine ⟨h, hcorresponds, hcorresponds.compile_eq himported.sound ?_⟩
    intro id htop other htop' hkind hkind'
    rw [← himported.countP_roots] at hroots
    exact eq_of_countP_le_one hroots htop (decide_eq_true hkind) htop' (decide_eq_true hkind')

/-- A bound stands where a contract is due, below the first or the second top. -/
theorem compile_eq_of_rearranged_stray_bound :
    let text := "\x7b\"blocks\":\x7b\"blocks\":[\x7b\"type\":\"contract_root\",\"inputs\":\x7b\"CONTRACT\":" ++
      "\x7b\"block\":\x7b\"type\":\"bound_block\",\"fields\":\x7b\"FROM\":1,\"TO\":2\x7d\x7d\x7d\x7d\x7d," ++
      "\x7b\"type\":\"obs_or\",\"inputs\":\x7b\"LHS\":\x7b\"block\":\x7b\"type\":\"obs_not\"\x7d\x7d," ++
      "\"RHS\":\x7b\x7d\x7d\x7d]\x7d\x7d"
    let other := "\x7b\"blocks\":\x7b\"blocks\":[\x7b\"type\":\"obs_or\",\"inputs\":\x7b\"RHS\":\x7b\x7d," ++
      "\"LHS\":\x7b\"block\":\x7b\"type\":\"obs_not\"\x7d\x7d\x7d\x7d,\x7b\"type\":\"contract_root\",\"inputs\":\x7b\"CONTRACT\":" ++
      "\x7b\"block\":\x7b\"type\":\"bound_block\",\"fields\":\x7b\"TO\":2,\"FROM\":1\x7d\x7d\x7d\x7d\x7d]\x7d\x7d"
    ∃ g k h, importText text = .ok g ∧ importText other = .ok k ∧ g.Corresponds k h ∧
      g.source.compile = .error (.wrongCategory 1 .contract .bound) ∧
      k.source.compile = .error (.wrongCategory 3 .contract .bound) ∧ h 1 = 3 := by
  intro text other
  have hread : readText text = .ok ⟨[⟨"contract_root", none, [], [("CONTRACT", ⟨some ⟨"bound_block", none,
      [("FROM", .ofInt64 1), ("TO", .ofInt64 2)], [], none⟩, none⟩)], none⟩, ⟨"obs_or", none, [],
      [("LHS", ⟨some ⟨"obs_not", none, [], [], none⟩, none⟩), ("RHS", ⟨none, none⟩)], none⟩]⟩ := by decide +kernel
  have hother : readText other = .ok ⟨[⟨"obs_or", none, [], [("RHS", ⟨none, none⟩),
      ("LHS", ⟨some ⟨"obs_not", none, [], [], none⟩, none⟩)], none⟩, ⟨"contract_root", none, [],
      [("CONTRACT", ⟨some ⟨"bound_block", none, [("TO", .ofInt64 2), ("FROM", .ofInt64 1)], [], none⟩, none⟩)],
      none⟩]⟩ := by decide +kernel
  obtain ⟨haccepts, hcompiles⟩ := compile_eq_of_rearranged hread hother (by
    have hnot : PlacedBlock.Rearranged ⟨"obs_not", none, [], [], none⟩ ⟨"obs_not", none, [], [], none⟩ :=
      .intro .nil .nil .nil .none
    refine ⟨_, .swap _ _ _, .cons (.intro .nil (.swap _ _ _) ?_ .none) (.cons (.intro .nil (.refl _) ?_ .none) .nil)⟩
    · exact .cons ⟨.intro .none .none⟩ (.cons ⟨.intro (.some hnot) .none⟩ .nil)
    · exact .cons ⟨.intro (.some (.intro (.swap _ _ _) .nil .nil .none)) .none⟩ .nil) (by decide)
  have hgraph : ((importText text).toOption.map fun g => g.source.compile) =
      some (.error (.wrongCategory 1 .contract .bound)) := by
    rw [importText, hread]
    decide +kernel
  have hgraph' : ((importText other).toOption.map fun k => k.source.compile) =
      some (.error (.wrongCategory 3 .contract .bound)) := by
    rw [importText, hother]
    decide +kernel
  cases hok : importText text with
  | error fault =>
    rw [hok] at hgraph
    cases hgraph
  | ok g =>
    obtain ⟨k, hok'⟩ := haccepts.1 ⟨g, hok⟩
    obtain ⟨h, hcorresponds, hsame⟩ := hcompiles g k hok hok'
    rw [hok] at hgraph
    rw [hok'] at hgraph'
    have hcompile : g.source.compile = .error (.wrongCategory 1 .contract .bound) := Option.some.inj hgraph
    have hcompile' : k.source.compile = .error (.wrongCategory 3 .contract .bound) := Option.some.inj hgraph'
    refine ⟨g, k, h, rfl, hok', hcorresponds, hcompile, hcompile', ?_⟩
    rw [hcompile, hcompile'] at hsame
    obtain ⟨hid, -⟩ := Violation.wrongCategory.inj (Except.error.inj hsame)
    exact hid.symm

end Workspace

end ContractBlocks
