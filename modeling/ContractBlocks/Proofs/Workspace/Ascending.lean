import ContractBlocks.Proofs.Graph.Reached
import ContractBlocks.Proofs.Workspace.Mirrored
import Mathlib.Order.Defs.Unbundled

namespace ContractBlocks

open Relation PlacedBlock

namespace Source

variable {S : Source} {node other inner outer : NodeId}

/-- Every block refers to blocks with greater ids only. -/
def Ascending (S : Source) : Prop :=
  ∀ node other, S.RefersTo node other → node < other

namespace Ascending

variable (hascending : S.Ascending)

include hascending

theorem le_of_reaches (hreach : ReflTransGen S.RefersTo node other) : node ≤ other := by
  induction hreach with
  | refl => exact Nat.le_refl _
  | tail _ hrefers ih => exact Nat.le_trans ih (Nat.le_of_lt (hascending _ _ hrefers))

/-- No block comes after itself. -/
theorem not_followedBy_self : ¬TransGen S.FollowedBy node node := by
  intro hcycle
  have hup : S.FollowedBy ≤ fun node other => node < other := fun node other hnext =>
    hascending node other (.inr hnext)
  exact Nat.lt_irrefl node (transGen_minimal hup node node hcycle)

/-- A block stands inside blocks with smaller ids only: the slot leads up to the first block of its
    place, and successors lead further up. -/
theorem lt_of_inside (hinside : S.Inside inner outer) : outer < inner := by
  obtain ⟨kind, -, place, -, hinner⟩ := hinside
  obtain ⟨slot, first, hslot, hfirst⟩ := hinner.reaches
  have hlt := hascending outer first (.inl ⟨slot, hslot⟩)
  have hle := hascending.le_of_reaches (refersTo_of_followedBy hfirst)
  exact Nat.lt_of_lt_of_le hlt hle

/-- No block stands inside itself. -/
theorem not_inside_self : ¬TransGen S.Inside node node := by
  intro hcycle
  have hdown : S.Inside ≤ fun inner outer => inner > outer := fun inner outer hinside =>
    hascending.lt_of_inside hinside
  exact Nat.lt_irrefl node (transGen_minimal hdown node node hcycle)

/-- Where references ascend, compiling reports no cycle. -/
theorem not_cyclic_of_compile {violation : Violation} (herror : S.compile = .error violation) (node : NodeId) :
    violation ≠ .cyclicChain node ∧ violation ≠ .cyclicSlot node := by
  rcases exists_fault_of_compile_eq_error herror with ⟨rfl, -⟩ | ⟨root, hroot, hbelow⟩
  · simp
  · rcases hbelow with ⟨rfl, -⟩ | ⟨category, outer, block, hvisit, hfault⟩
    · simp
    · have hshows := hfault.shows hroot.kind hvisit
      constructor
      · rintro rfl
        exact hascending.not_followedBy_self hshows
      · rintro rfl
        exact hascending.not_inside_self hshows

end Ascending

end Source

namespace Workspace

variable {workspace : Workspace} {g : BlockGraph} {id target : NodeId} {block : PlacedBlock} {label : Label}

/-- What an import makes of a workspace: a sound graph with the blocks of the workspace in preorder and
    the links between them. -/
structure Imported (workspace : Workspace) (g : BlockGraph) : Prop where
  distinct : ∀ block ∈ workspace.nodes, block.Distinct
  sound : g.Sound
  grown : BlockGraph.empty.Grown workspace.nodes (wires 0 workspace.nodes) g

theorem exists_imported_of_importText {text : String} (hok : importText text = .ok g) :
    ∃ workspace, readText text = .ok workspace ∧ workspace.Imported g := by
  obtain ⟨workspace, hread, hgraph⟩ := importText_eq_ok_iff.1 hok
  have hdistinct := distinct_of_readText hread
  refine ⟨workspace, hread, fun block => distinct_of_mem_preorder hdistinct, ?_, ?_⟩
  · exact BlockGraph.empty_sound.changes (BlockGraph.changes_of_placeAll hgraph)
  · exact BlockGraph.grown_of_placeAll BlockGraph.empty_sound rfl hdistinct hgraph

namespace Imported

variable (himported : workspace.Imported g)

include himported

theorem distinct_of_getElem? (hblock : workspace.nodes[id]? = some block) : block.Distinct :=
  himported.distinct block (List.mem_of_getElem? hblock)

theorem block?_eq (id : NodeId) : g.block? id = workspace.nodes[id]?.bind bare? := by
  rw [BlockGraph.block?, himported.grown.blocks]
  cases hblock : workspace.nodes[id]? <;> simp [BlockGraph.empty, hblock]

/-- A link leads past the blocks that come before what is plugged in. -/
theorem target?_eq (hblock : workspace.nodes[id]? = some block) (label : Label) :
    g.target? id label = (block.plug? label).map fun _ => id + 1 + (block.before label).length :=
  target?_of_grown himported.grown himported.sound (himported.distinct_of_getElem? hblock) hblock

theorem exists_block_of_isSome (hlive : (g.block? id).isSome) : ∃ block, workspace.nodes[id]? = some block := by
  rw [himported.block?_eq] at hlive
  cases hblock : workspace.nodes[id]? with
  | none =>
    rw [hblock] at hlive
    cases hlive
  | some block => exact ⟨block, rfl⟩

theorem exists_block_of_target? (htarget : g.target? id label = some target) :
    ∃ block, workspace.nodes[id]? = some block := by
  obtain ⟨link, hlink, hkey, -⟩ := himported.sound.target?_eq_some_iff.1 htarget
  obtain rfl : link.source = id := congrArg Prod.fst hkey
  exact himported.exists_block_of_isSome (himported.sound.source_live hlink)

/-- What is plugged into a block comes behind it. -/
theorem lt_of_target? (htarget : g.target? id label = some target) : id < target := by
  obtain ⟨block, hblock⟩ := himported.exists_block_of_target? htarget
  rw [himported.target?_eq hblock] at htarget
  obtain ⟨inner, -, rfl⟩ := Option.map_eq_some_iff.1 htarget
  exact Nat.lt_of_lt_of_le (Nat.lt_succ_self id) (Nat.le_add_right _ _)

theorem ascending : g.source.Ascending := by
  intro node other hrefers
  obtain ⟨label, htarget⟩ := BlockGraph.refersTo_iff.1 hrefers
  exact himported.lt_of_target? htarget

end Imported

/-- Whatever blocks a workspace text nests where, compiling its graph reports no cycle and no reference
    to a block that is not there. -/
theorem compile_acyclic_of_importText {text : String} {g : BlockGraph} (hok : importText text = .ok g)
    (node : NodeId) :
    g.source.compile ≠ .error (.cyclicChain node) ∧ g.source.compile ≠ .error (.cyclicSlot node) ∧
      g.source.compile ≠ .error (.dangling node) := by
  obtain ⟨workspace, -, himported⟩ := exists_imported_of_importText hok
  have hcyclic : ∀ violation, g.source.compile = .error violation →
      violation ≠ .cyclicChain node ∧ violation ≠ .cyclicSlot node :=
    fun violation herror => himported.ascending.not_cyclic_of_compile herror node
  refine ⟨fun herror => (hcyclic _ herror).1 rfl, fun herror => (hcyclic _ herror).2 rfl, fun herror => ?_⟩
  rcases himported.sound.compile_error herror with hroot | ⟨root, id, -, hid, -, -, hdangling⟩
  · cases hroot
  · cases hid
    exact hdangling rfl

/-- A case stands where a contract is due, and a bound follows it. -/
theorem compile_acyclic_of_importText_stray_chain :
    let text := "\x7b\"blocks\":\x7b\"blocks\":[\x7b\"type\":\"contract_root\",\"inputs\":\x7b\"CONTRACT\":" ++
      "\x7b\"block\":\x7b\"type\":\"case_block\",\"next\":\x7b\"block\":\x7b\"type\":\"bound_block\"" ++
      "\x7d\x7d\x7d\x7d\x7d\x7d]\x7d\x7d"
    ∃ g, importText text = .ok g ∧ g.source.compile = .error (.wrongCategory 1 .contract .case) ∧
      ∀ node, g.source.compile ≠ .error (.cyclicChain node) ∧ g.source.compile ≠ .error (.cyclicSlot node) ∧
        g.source.compile ≠ .error (.dangling node) := by
  intro text
  have hgraph : ((importText text).toOption.map fun g => g.source.compile) =
      some (.error (.wrongCategory 1 .contract .case)) := by decide +kernel
  cases hok : importText text with
  | error fault =>
    rw [hok] at hgraph
    cases hgraph
  | ok g =>
    rw [hok] at hgraph
    exact ⟨g, rfl, Option.some.inj hgraph, compile_acyclic_of_importText hok⟩

end Workspace

end ContractBlocks
