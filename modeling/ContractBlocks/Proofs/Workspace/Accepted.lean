import ContractBlocks.Proofs.Workspace.Faults
import ContractBlocks.Proofs.Workspace.Preorder
import ContractBlocks.Proofs.Workspace.Rearranged

namespace ContractBlocks

namespace PlacedBlock

/-- The block is of that kind, all its fields and inputs are ones that the kind has, and if another
    block follows it, the kind is one of the links of a chain. Of what is plugged in nothing is said. -/
structure Grammatical (block : PlacedBlock) (kind : Kind) : Prop where
  tag : Kind.ofTag? block.tag = some kind
  fields : ∀ field ∈ block.fields, (kind.field? field.1).isSome
  inputs : ∀ input ∈ block.inputs, (kind.slot? input.1).isSome
  next : (block.next.bind Connection.target?).isSome → kind.isLink

theorem fieldFaults_eq_nil_iff {kind : Kind} {fields : List (String × FieldValue)} :
    fieldFaults kind fields = [] ↔ ∀ field ∈ fields, (kind.field? field.1).isSome := by
  simp [fieldFaults, Option.isSome_iff_ne_none]

theorem labelFaults_slot_eq_nil_iff {kind : Kind} {name : String} :
    labelFaults kind (.slot name) = [] ↔ (kind.slot? name).isSome := by
  simp [labelFaults, Option.isSome_iff_ne_none]

theorem labelFaults_next_eq_nil_iff {kind : Kind} : labelFaults kind .next = [] ↔ kind.isLink := by
  simp [labelFaults]

theorem targetFaults_eq_nil_iff {connection : Connection PlacedBlock} :
    targetFaults connection = [] ↔ ∀ inner, connection.target? = some inner → inner.faults = [] := by
  rw [targetFaults_eq]
  cases connection.target? <;> simp

theorem nextFaults_eq_nil_iff {kind : Kind} {next : Option (Connection PlacedBlock)} :
    nextFaults kind next = [] ↔ (∀ inner, next.bind Connection.target? = some inner → inner.faults = []) ∧
      ((next.bind Connection.target?).isSome → kind.isLink) := by
  cases next with
  | none => simp [nextFaults]
  | some connection =>
    rw [nextFaults, List.append_eq_nil_iff, targetFaults_eq_nil_iff, Option.bind_some]
    refine and_congr_right fun _ => ?_
    split
    · next htarget => simp [htarget, labelFaults_next_eq_nil_iff]
    · next hempty => simp [hempty]

/-- Nothing is wrong with a block exactly if it is grammatical itself and nothing is wrong with what is
    plugged into it. -/
theorem faults_eq_nil_iff (block : PlacedBlock) :
    block.faults = [] ↔ (∃ kind, block.Grammatical kind) ∧ ∀ plug ∈ block.plugs, plug.2.faults = [] := by
  obtain ⟨tag, editorId, fields, inputs, next⟩ := block
  rw [faults]
  cases htag : Kind.ofTag? tag with
  | none =>
    have hnone : ¬∃ kind, Grammatical ⟨tag, editorId, fields, inputs, next⟩ kind := by
      rintro ⟨kind, hkind⟩
      cases htag.symm.trans hkind.tag
    simp [hnone]
  | some kind =>
    simp only [List.append_eq_nil_iff, fieldFaults_eq_nil_iff, inputFaults_eq, List.flatMap_eq_nil_iff,
      labelFaults_slot_eq_nil_iff, targetFaults_eq_nil_iff, nextFaults_eq_nil_iff]
    constructor
    · rintro ⟨hfields, hinputs, hinner, hlink⟩
      refine ⟨⟨kind, htag, hfields, fun input hinput => (hinputs input hinput).1, hlink⟩, ?_⟩
      rintro ⟨label, inner⟩ hplug
      rcases List.mem_append.1 hplug with hinput | hnext
      · obtain ⟨input, hmem, htarget, -⟩ := mem_inputPlugs.1 hinput
        exact (hinputs input hmem).2 inner htarget
      · exact hinner inner (mem_nextPlug.1 hnext).2
    · rintro ⟨⟨found, hkind⟩, hplugs⟩
      cases htag.symm.trans hkind.tag
      refine ⟨hkind.fields, fun input hinput => ⟨hkind.inputs input hinput, fun inner htarget => ?_⟩,
        fun inner htarget => ?_, hkind.next⟩
      · exact hplugs (_, inner) (List.mem_append_left _ (mem_inputPlugs.2 ⟨input, hinput, htarget, rfl⟩))
      · exact hplugs (_, inner) (List.mem_append_right _ (mem_nextPlug.2 ⟨rfl, htarget⟩))

theorem mem_targetFaults {fault : GraphFault} {connection : Connection PlacedBlock} :
    fault ∈ targetFaults connection ↔ ∃ inner, connection.target? = some inner ∧ fault ∈ inner.faults := by
  rw [targetFaults_eq]
  cases connection.target? <;> simp

theorem noBlock_notMem_labelFaults (id : NodeId) (kind : Kind) (label : Label) :
    .noBlock id ∉ labelFaults kind label := by
  cases label with
  | slot name =>
    rw [labelFaults]
    split <;> simp
  | next =>
    rw [labelFaults]
    split <;> simp

/-- No fault of a block is that some block is not there. -/
theorem noBlock_notMem_faults (id : NodeId) (block : PlacedBlock) : .noBlock id ∉ block.faults := by
  have hinside : ∀ label inner, (label, inner) ∈ block.plugs → .noBlock id ∉ inner.faults := by
    intro label inner hplug
    have := sizeOf_lt_of_mem_plugs hplug
    exact noBlock_notMem_faults id inner
  obtain ⟨tag, editorId, fields, inputs, next⟩ := block
  rw [faults]
  split
  · simp
  · next kind _ =>
    rw [List.mem_append, List.mem_append, inputFaults_eq]
    rintro (hfield | hinput | hnext)
    · simp [fieldFaults] at hfield
    · obtain ⟨input, hinput, hmem⟩ := List.mem_flatMap.1 hinput
      refine (List.mem_append.1 hmem).elim (noBlock_notMem_labelFaults id kind _) fun hmem => ?_
      obtain ⟨inner, htarget, hmem⟩ := mem_targetFaults.1 hmem
      exact hinside (.slot input.1) inner
        (List.mem_append_left _ (mem_inputPlugs.2 ⟨input, hinput, htarget, rfl⟩)) hmem
    · cases next with
      | none => simp [nextFaults] at hnext
      | some connection =>
        rw [nextFaults] at hnext
        rcases List.mem_append.1 hnext with hmem | hmem
        · obtain ⟨inner, htarget, hmem⟩ := mem_targetFaults.1 hmem
          exact hinside .next inner (List.mem_append_right _ (mem_nextPlug.2 ⟨rfl, htarget⟩)) hmem
        · split at hmem
          · exact noBlock_notMem_labelFaults id kind _ hmem
          · cases hmem
termination_by sizeOf block

mutual

/-- The block with no stand-in left in any connection: it goes where there is a block beside it, and it
    is that block where there is none. -/
def unshadowed : PlacedBlock → PlacedBlock
  | ⟨tag, editorId, fields, inputs, next⟩ =>
    ⟨tag, editorId, fields, unshadowedInputs inputs, unshadowedNext next⟩

def unshadowedInputs : List (String × Connection PlacedBlock) → List (String × Connection PlacedBlock)
  | [] => []
  | (name, connection) :: inputs => (name, unshadowedTarget connection) :: unshadowedInputs inputs

def unshadowedNext : Option (Connection PlacedBlock) → Option (Connection PlacedBlock)
  | none => none
  | some connection => some (unshadowedTarget connection)

def unshadowedTarget : Connection PlacedBlock → Connection PlacedBlock
  | ⟨some block, _⟩ => ⟨some (unshadowed block), none⟩
  | ⟨none, some block⟩ => ⟨some (unshadowed block), none⟩
  | ⟨none, none⟩ => ⟨none, none⟩

end

end PlacedBlock

namespace BlockGraph

open PlacedBlock

mutual

theorem place_unshadowed (g : BlockGraph) : (block : PlacedBlock) → g.place block.unshadowed = g.place block
  | ⟨tag, editorId, fields, inputs, next⟩ => by
    simp only [unshadowed, place, placeInputs_unshadowed _ _ _ inputs, placeNext_unshadowed _ _ next]

theorem placeInputs_unshadowed (g : BlockGraph) (id : NodeId) (kind : Kind) :
    (inputs : List (String × Connection PlacedBlock)) →
      g.placeInputs id kind (unshadowedInputs inputs) = g.placeInputs id kind inputs
  | [] => rfl
  | (name, connection) :: inputs => by
    simp only [unshadowedInputs, placeInputs, placeTarget_unshadowed _ connection,
      placeInputs_unshadowed _ _ _ inputs]

theorem placeNext_unshadowed (g : BlockGraph) (id : NodeId) : (next : Option (Connection PlacedBlock)) →
    g.placeNext id (unshadowedNext next) = g.placeNext id next
  | none => rfl
  | some connection => by
    simp only [unshadowedNext, placeNext, placeTarget_unshadowed _ connection]

theorem placeTarget_unshadowed (g : BlockGraph) : (connection : Connection PlacedBlock) →
    g.placeTarget (unshadowedTarget connection) = g.placeTarget connection
  | ⟨some block, _⟩ => by simp only [unshadowedTarget, placeTarget, place_unshadowed _ block]
  | ⟨none, some block⟩ => by simp only [unshadowedTarget, placeTarget, place_unshadowed _ block]
  | ⟨none, none⟩ => rfl

end

theorem placeAll_unshadowed (g : BlockGraph) (blocks : List PlacedBlock) :
    g.placeAll (blocks.map unshadowed) = g.placeAll blocks := by
  induction blocks generalizing g with
  | nil => rfl
  | cons block blocks ih => simp only [List.map_cons, placeAll, place_unshadowed, ih]

end BlockGraph

namespace Workspace

open PlacedBlock

variable {workspace : Workspace} {block : PlacedBlock}

/-- The blocks of a workspace that count: those that are plugged into no other, and what a connection of
    a block that counts holds. -/
inductive Used (workspace : Workspace) : PlacedBlock → Prop
  | top {block : PlacedBlock} (htop : block ∈ workspace.blocks) : Used workspace block
  | input {outer inner : PlacedBlock} {name : String} {connection : Connection PlacedBlock}
      (houter : Used workspace outer) (hinput : (name, connection) ∈ outer.inputs)
      (htarget : connection.target? = some inner) : Used workspace inner
  | next {outer inner : PlacedBlock} {connection : Connection PlacedBlock} (houter : Used workspace outer)
      (hnext : outer.next = some connection) (htarget : connection.target? = some inner) : Used workspace inner

/-- All that keeps the blocks of a workspace from being added to a graph, one block after the other. -/
def graphFaults (workspace : Workspace) : List GraphFault :=
  workspace.blocks.flatMap PlacedBlock.faults

/-- The workspace without the stand-ins that do not count. -/
def unshadowed (workspace : Workspace) : Workspace :=
  ⟨workspace.blocks.map PlacedBlock.unshadowed⟩

theorem Used.of_mem_plugs {plug : Label × PlacedBlock} (hused : workspace.Used block) (hplug : plug ∈ block.plugs) :
    workspace.Used plug.2 := by
  rcases List.mem_append.1 hplug with hinput | hnext
  · obtain ⟨⟨name, connection⟩, hmem, htarget, -⟩ := mem_inputPlugs.1 hinput
    exact .input hused hmem htarget
  · obtain ⟨connection, hmem, htarget⟩ := Option.bind_eq_some_iff.1 (mem_nextPlug.1 hnext).2
    exact .next hused hmem htarget

/-- Where nothing is wrong with a workspace, nothing is wrong with any block that counts. -/
theorem Used.faults_eq_nil (hused : workspace.Used block) (hnone : workspace.graphFaults = []) : block.faults = [] := by
  induction hused with
  | top htop => exact List.flatMap_eq_nil_iff.1 hnone _ htop
  | input _ hinput htarget ih =>
    exact ((faults_eq_nil_iff _).1 ih).2 (_, _)
      (List.mem_append_left _ (mem_inputPlugs.2 ⟨_, hinput, htarget, rfl⟩))
  | next _ hnext htarget ih =>
    exact ((faults_eq_nil_iff _).1 ih).2 (_, _)
      (List.mem_append_right _ (mem_nextPlug.2 ⟨rfl, Option.bind_eq_some_iff.2 ⟨_, hnext, htarget⟩⟩))

/-- A block that counts has no fault if all blocks that count are grammatical. -/
theorem Used.faults_eq_nil_of_grammatical (hall : ∀ block, workspace.Used block → ∃ kind, block.Grammatical kind)
    {block : PlacedBlock} (hused : workspace.Used block) : block.faults = [] := by
  refine (faults_eq_nil_iff block).2 ⟨hall block hused, fun plug hplug => ?_⟩
  have := sizeOf_lt_of_mem_plugs hplug
  exact Used.faults_eq_nil_of_grammatical hall (hused.of_mem_plugs hplug)
termination_by sizeOf block

theorem graphFaults_eq_nil_iff :
    workspace.graphFaults = [] ↔ ∀ block, workspace.Used block → ∃ kind, block.Grammatical kind := by
  constructor
  · intro hnone block hused
    exact ((faults_eq_nil_iff block).1 (hused.faults_eq_nil hnone)).1
  · intro hall
    exact List.flatMap_eq_nil_iff.2 fun block htop => (Used.top htop).faults_eq_nil_of_grammatical hall

theorem importText_of_readText {text : String} (hread : readText text = .ok workspace) :
    importText text = workspace.graph.mapError .graph := by
  rw [importText, hread]
  dsimp only
  cases workspace.graph <;> rfl

/-- A workspace has a graph exactly if all blocks that count are grammatical. Otherwise the first fault is
    reported, in the order in which blocks are added; it is never that a block is not there. Stand-ins
    beside a block are not looked at. A text that holds a workspace is imported in the same way. -/
theorem graph_reports_first_fault (workspace : Workspace) :
    ((∃ g, workspace.graph = .ok g) ↔ ∀ block, workspace.Used block → ∃ kind, block.Grammatical kind) ∧
    (∀ fault, workspace.graph = .error fault ↔ workspace.graphFaults.head? = some fault) ∧
    (∀ id, workspace.graph ≠ .error (.noBlock id)) ∧
    (∀ other : Workspace, other.unshadowed = workspace.unshadowed → other.graph = workspace.graph) ∧
    ∀ text, readText text = .ok workspace → importText text = workspace.graph.mapError .graph := by
  have hreports := BlockGraph.placeAll_reports BlockGraph.empty_sound workspace.blocks
  have herror : ∀ fault, workspace.graph = .error fault ↔ workspace.graphFaults.head? = some fault := hreports.error_iff
  refine ⟨hreports.exists_ok_iff.trans graphFaults_eq_nil_iff, herror, fun id hgraph => ?_,
    fun other hsame => ?_, fun text => importText_of_readText⟩
  · obtain ⟨block, -, hmem⟩ := List.mem_flatMap.1 (List.mem_of_mem_head? ((herror _).1 hgraph))
    exact noBlock_notMem_faults id block hmem
  · have hblocks : other.blocks.map PlacedBlock.unshadowed = workspace.blocks.map PlacedBlock.unshadowed :=
      congrArg Workspace.blocks hsame
    rw [graph, graph, ← BlockGraph.placeAll_unshadowed, hblocks, BlockGraph.placeAll_unshadowed]

/-- An input without a slot comes before the missing chain of the block above it, and the unknown stand-in
    beside its block is passed over. -/
theorem graph_reports_first_fault_past_a_stand_in :
    let text := "\x7b\"blocks\":\x7b\"blocks\":[\x7b\"type\":\"party_role\",\"next\":\x7b\"block\":" ++
      "\x7b\"type\":\"obs_not\",\"inputs\":\x7b\"X\":\x7b\x7d\x7d\x7d,\"shadow\":\x7b\"type\":\"?\"" ++
      "\x7d\x7d\x7d]\x7d\x7d"
    ∃ workspace, readText text = .ok workspace ∧
      workspace.graphFaults = [.unknownSlot (.observation .not) "X", .notChainable (.party .role)] ∧
      importText text = .error (.graph (.unknownSlot (.observation .not) "X")) := by
  intro text
  have hread : readText text = .ok ⟨[⟨"party_role", none, [], [], some ⟨some ⟨"obs_not", none, [],
      [("X", ⟨none, none⟩)], none⟩, some ⟨"?", none, [], [], none⟩⟩⟩]⟩ := by decide +kernel
  refine ⟨_, hread, by decide +kernel, ?_⟩
  obtain ⟨-, herror, -, -, htext⟩ := graph_reports_first_fault _
  rw [htext text hread, (herror (.unknownSlot (.observation .not) "X")).2 (by decide +kernel)]
  rfl

end Workspace

end ContractBlocks
