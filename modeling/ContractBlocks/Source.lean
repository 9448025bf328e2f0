import ContractBlocks.Graph.Basic

namespace ContractBlocks

/-- What a compilation sees of blocks: finitely many of them, what each is, and which others it
    refers to. Nothing is said of the references: they may lead to no block, meet, or go round. -/
structure Source where
  /-- All ids at which a block or a successor can be found. -/
  ids : List NodeId
  topLevel : List NodeId
  kind : NodeId → Option Kind
  field : NodeId → String → Option FieldValue
  slot : NodeId → String → Option NodeId
  next : NodeId → Option NodeId
  editorId : NodeId → Option String
  mem_ids_of_kind : ∀ id, (kind id).isSome → id ∈ ids
  mem_ids_of_next : ∀ id, (next id).isSome → id ∈ ids

namespace BlockGraph

theorem mem_ids_iff (g : BlockGraph) (id : NodeId) : id ∈ g.ids ↔ (g.block? id).isSome := by
  simp only [ids, List.mem_filter, List.mem_range]
  refine ⟨And.right, fun hblock => ⟨?_, hblock⟩⟩
  refine Decidable.by_contra fun hlength => ?_
  simp [block?, List.getElem?_eq_none (Nat.le_of_not_lt hlength)] at hblock

theorem block?_isSome_of_next? (g : BlockGraph) (id : NodeId) (hnext : (g.next? id).isSome) :
    (g.block? id).isSome := by
  unfold next? target? link? at hnext
  split at hnext
  · assumption
  · simp at hnext

/-- The blocks of a graph. -/
def source (g : BlockGraph) : Source where
  ids := g.ids
  topLevel := g.topLevel
  kind id := (g.block? id).map Block.kind
  field id name := (g.block? id).bind fun block => block.field? name
  slot id name := g.child? id name
  next id := g.next? id
  editorId id := (g.block? id).bind Block.editorId
  mem_ids_of_kind id hkind := (g.mem_ids_iff id).2 (by simpa using hkind)
  mem_ids_of_next id hnext := (g.mem_ids_iff id).2 (g.block?_isSome_of_next? id hnext)

end BlockGraph

end ContractBlocks
