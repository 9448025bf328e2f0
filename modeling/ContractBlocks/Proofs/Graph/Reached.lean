import ContractBlocks.Proofs.Compile.Grounds
import ContractBlocks.Proofs.Workspace.Plugged

namespace ContractBlocks

open Relation

namespace BlockGraph

/-- The graphs that edits lead to, done or refused, from the graph without blocks or from that of a
    workspace. -/
inductive Reached : BlockGraph → Prop
  | empty : Reached empty
  | imported {text : String} {g : BlockGraph} (hok : Workspace.importText text = .ok g) : Reached g
  | edited {g : BlockGraph} (hreached : Reached g) (e : Edit) : Reached (g.edit e).2

theorem Reached.sound {g : BlockGraph} (hreached : g.Reached) : g.Sound := by
  induction hreached with
  | empty => exact empty_sound
  | imported hok =>
    obtain ⟨workspace, -, hgraph⟩ := Workspace.importText_eq_ok_iff.1 hok
    exact empty_sound.changes (changes_of_placeAll hgraph)
  | edited _ e ih => exact ih.changes (changes_edit _ e)

theorem Reached.run {g : BlockGraph} (hreached : g.Reached) (edits : List Edit) :
    (g.run edits).2.Reached := by
  induction edits generalizing g with
  | nil => exact hreached
  | cons e edits ih => exact ih (hreached.edited e)

section Live

variable {g : BlockGraph} {root node other : NodeId}

theorem exists_block_of_kind {kind : Kind} (hkind : g.source.kind node = some kind) :
    ∃ block, g.block? node = some block ∧ block.kind = kind :=
  Option.map_eq_some_iff.1 hkind

theorem live_of_kind {kind : Kind} (hkind : g.source.kind node = some kind) : (g.block? node).isSome := by
  obtain ⟨block, hblock, -⟩ := exists_block_of_kind hkind
  exact Option.isSome_iff_exists.2 ⟨block, hblock⟩

/-- Blocks refer to each other by the links of their graph, of whatever label. -/
theorem refersTo_iff : g.source.RefersTo node other ↔ ∃ label, g.target? node label = some other := by
  constructor
  · rintro (⟨slot, hslot⟩ | hnext)
    · exact ⟨.slot slot, hslot⟩
    · exact ⟨.next, hnext⟩
  · rintro ⟨label, htarget⟩
    cases label with
    | slot name => exact .inl ⟨name, htarget⟩
    | next => exact .inr htarget

theorem Sound.live_of_target? (hsound : g.Sound) {label : Label} (htarget : g.target? node label = some other) :
    (g.block? other).isSome := by
  obtain ⟨link, hlink, -, rfl⟩ := hsound.target?_eq_some_iff.1 htarget
  exact hsound.targets link hlink

theorem Sound.live_of_refersTo (hsound : g.Sound) (hrefers : g.source.RefersTo node other) :
    (g.block? other).isSome := by
  obtain ⟨label, htarget⟩ := refersTo_iff.1 hrefers
  exact hsound.live_of_target? htarget

theorem Sound.live_of_reaches (hsound : g.Sound) (hroot : (g.block? root).isSome)
    (hreach : ReflTransGen g.source.RefersTo root node) : (g.block? node).isSome := by
  cases hreach with
  | refl => exact hroot
  | tail _ hrefers => exact hsound.live_of_refersTo hrefers

theorem live_of_isLeastRoot (hroot : g.source.IsLeastRoot root) : (g.block? root).isSome := by
  have hkind : (g.block? root).map Block.kind = some .root := hroot.kind
  obtain ⟨block, hblock, -⟩ := Option.map_eq_some_iff.1 hkind
  simp [hblock]

/-- Compiling a sound graph fails at a block that is there. -/
theorem Sound.compile_error {violation : Violation} (hsound : g.Sound)
    (herror : g.source.compile = .error violation) :
    violation = .missingRoot ∨ ∃ root id, g.source.IsLeastRoot root ∧ violation.node? = some id ∧
      (g.block? id).isSome ∧ ReflTransGen g.source.RefersTo root id ∧ violation ≠ .dangling id := by
  rcases Source.exists_fault_of_compile_eq_error herror with ⟨hmissing, -⟩ | ⟨root, hroot, hbelow⟩
  · exact .inl hmissing
  · refine .inr ⟨root, ?_⟩
    have hlive := live_of_isLeastRoot hroot
    rcases hbelow with ⟨rfl, -⟩ | ⟨category, outer, block, hvisit, hfault⟩
    · exact ⟨root, hroot, rfl, hlive, .refl, by simp⟩
    · obtain ⟨id, hid, hreach⟩ := hfault.exists_node hvisit
      have hthere := hsound.live_of_reaches hlive hreach
      refine ⟨id, hroot, hid, hthere, hreach, ?_⟩
      -- The block at which a reference would dangle is reached, so it is there.
      rintro rfl
      cases hfault with
      | dangling hkind =>
        have hgone : (g.block? block).map Block.kind = none := hkind
        simp [Option.map_eq_none_iff.1 hgone] at hthere

end Live

/-- Whatever edits are made, links leave blocks whose kind has a place for them, end at blocks and are
    alone in their place, and blocks have only fields of their kind. So compiling never meets a
    reference that leads nowhere, and any violation below the root names a block that is there and is
    reached from the root. -/
theorem Reached.grammatical {g : BlockGraph} (hreached : g.Reached) :
    g.Grammatical ∧ ∀ violation, g.source.compile = .error violation →
      (∀ id, violation ≠ .dangling id) ∧
        (violation ≠ .missingRoot → ∃ root id, g.source.IsLeastRoot root ∧ violation.node? = some id ∧
          (g.block? id).isSome ∧ ReflTransGen g.source.RefersTo root id) := by
  refine ⟨hreached.sound.toGrammatical, fun violation herror => ?_⟩
  rcases hreached.sound.compile_error herror with rfl | ⟨root, id, hroot, hid, hlive, hreach, hdangling⟩
  · exact ⟨by simp, fun hroot => absurd rfl hroot⟩
  · refine ⟨?_, fun _ => ⟨root, id, hroot, hid, hlive, hreach⟩⟩
    rintro other rfl
    cases hid
    exact hdangling rfl

/-- A block takes the id of another of a kind with other slots, and two edits are refused. -/
theorem Reached.grammatical_after_reuse :
    let g := (BlockGraph.empty.run [.add .root none, .add (.contract .when) none, .connect 0 "CONTRACT" 1,
      .add (.contract .close) none, .connect 1 "TIMEOUT_CONT" 2, .remove 1,
      .add (.contract .branch) none, .connect 0 "CONTRACT" 1, .connect 1 "THEN" 2,
      .connect 1 "TIMEOUT_CONT" 2, .chain [1, 2]]).2
    g.Reached ∧ g.source.compile = .error (.missingInput 1 (.contract .branch) "COND") ∧ g.Grammatical ∧
      ∃ root, g.source.IsLeastRoot root ∧ (g.block? 1).isSome ∧ ReflTransGen g.source.RefersTo root 1 := by
  intro g
  have hreached : g.Reached := Reached.empty.run _
  have herror : g.source.compile = .error (.missingInput 1 (.contract .branch) "COND") := by decide +kernel
  obtain ⟨hgrammatical, hcompile⟩ := Reached.grammatical hreached
  obtain ⟨root, id, hroot, hid, hlive, hreach⟩ := (hcompile _ herror).2 (by simp)
  cases hid
  exact ⟨hreached, herror, hgrammatical, root, hroot, hlive, hreach⟩

end BlockGraph

end ContractBlocks
