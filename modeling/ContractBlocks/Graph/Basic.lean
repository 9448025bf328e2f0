import ContractBlocks.Block
import ContractBlocks.Graph.Fault

namespace ContractBlocks

/-- What a link is for: a child in a slot of its source, or the successor of its source. -/
inductive Label
  | slot (name : String)
  | next
deriving DecidableEq, Repr

/-- A link between two blocks. Its index is its place in the saved form of the graph. -/
structure Link where
  index : Nat
  source : NodeId
  label : Label
  target : NodeId
deriving DecidableEq, Repr

namespace Link

/-- Whether the link starts or ends at a block. -/
def touches (link : Link) (id : NodeId) : Bool :=
  link.source = id || link.target = id

end Link

/-- Blocks and the links between them. A block's place in `blocks` is its id. Ids and indices that
    are free again are taken anew before any that was never used, the latest freed first. -/
structure BlockGraph where
  blocks : List (Option Block) := []
  freeIds : List NodeId := []
  /-- The links, the latest made first. -/
  links : List Link := []
  freeIndices : List Nat := []
deriving DecidableEq

namespace BlockGraph

/-- The graph without blocks. -/
def empty : BlockGraph := {}

/-- The block with that id. -/
def block? (g : BlockGraph) (id : NodeId) : Option Block :=
  g.blocks[id]?.join

/-- The ids of all blocks, in ascending order. -/
def ids (g : BlockGraph) : List NodeId :=
  (List.range g.blocks.length).filter fun id => (g.block? id).isSome

/-- The number of blocks. -/
def blockCount (g : BlockGraph) : Nat :=
  g.blocks.countP Option.isSome

/-- The number of links. -/
def linkCount (g : BlockGraph) : Nat :=
  g.links.length

/-- The link with that label that leaves a block. Of several, the latest made counts. -/
def link? (g : BlockGraph) (id : NodeId) (label : Label) : Option Link :=
  if (g.block? id).isSome then g.links.find? fun link => link.source = id && link.label = label
  else none

/-- The block at the end of the link with that label. -/
def target? (g : BlockGraph) (id : NodeId) (label : Label) : Option NodeId :=
  (g.link? id label).map Link.target

/-- The child in a slot. -/
def child? (g : BlockGraph) (id : NodeId) (slot : String) : Option NodeId :=
  g.target? id (.slot slot)

/-- The successor in a chain. -/
def next? (g : BlockGraph) (id : NodeId) : Option NodeId :=
  g.target? id .next

/-- The blocks at which no link ends, in ascending order of their ids. -/
def topLevel (g : BlockGraph) : List NodeId :=
  g.ids.filter fun id => !g.links.any fun link => link.target = id

end BlockGraph

end ContractBlocks
