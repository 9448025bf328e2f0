import ContractBlocks.Graph.Edit
import ContractBlocks.Json.Record

namespace ContractBlocks

/-- A graph as it is saved: its blocks in the order of their ids, the free ids among these, and its
    links by index, with nothing at the free ones. -/
structure SavedGraph where
  blocks : List Block
  holes : List NodeId
  links : List (Option (NodeId × NodeId × Label))
deriving DecidableEq

namespace SavedGraph

/-- A list without what stands after its last element that is there. -/
def trimEnd {α : Type} (xs : List (Option α)) : List (Option α) :=
  (xs.reverse.dropWhile Option.isNone).reverse

/-- The places of a list at which nothing is. -/
def gaps {α : Type} (xs : List (Option α)) : List Nat :=
  (List.range xs.length).filter fun place => xs[place]?.join.isNone

/-- The links of a graph by index, up to the last. -/
def linkTable (g : BlockGraph) : List (Option (NodeId × NodeId × Label)) :=
  trimEnd <| (List.range (g.links.length + g.freeIndices.length)).map fun index =>
    (g.links.find? fun link => link.index = index).map fun link =>
      (link.source, link.target, link.label)

/-- The saved form of a graph. Free ids above the last block are not kept. -/
def ofGraph (g : BlockGraph) : SavedGraph :=
  let blocks := trimEnd g.blocks
  ⟨blocks.filterMap id, gaps blocks, linkTable g⟩

def labelJson : Label → Json
  | .next => .string "Next"
  | .slot name => .object [("Slot", .object [("name", .string name)])]

def linkJson : Option (NodeId × NodeId × Label) → Json
  | none => .null
  | some (source, target, label) => .list [.nat source, .nat target, labelJson label]

def blockJson (block : Block) : Json :=
  .object ([("kind", .string block.kind.tag),
    ("fields", .object (block.fields.map fun (name, value) => (name, value.toJson)))] ++
    (block.editorId.map fun id => ("block_id", Json.string id)).toList)

/-- The saved form as a JSON value. -/
def toJson (saved : SavedGraph) : Json :=
  .object [("blocks", .object [("nodes", .list (saved.blocks.map blockJson)),
    ("node_holes", .list (saved.holes.map .nat)), ("edge_property", .string "directed"),
    ("edges", .list (saved.links.map linkJson))])]

/-- Puts blocks at the ids from `place` on, and nothing at the holes, which must come in ascending
    order and lie below `total`. -/
def placeBlocks (total place : Nat) : List NodeId → List Block → Option (List (Option Block))
  | [], blocks => some (blocks.map some)
  | hole :: holes, blocks =>
    if place ≤ hole ∧ hole < total then
      (placeBlocks total (hole + 1) holes (blocks.drop (hole - place))).map fun placed =>
        (blocks.take (hole - place)).map some ++ none :: placed
    else none

/-- The links with their indices, the last first. -/
def placeLinks (links : List (Option (NodeId × NodeId × Label))) : List Link :=
  (links.zipIdx.filterMap fun (link, index) =>
    link.map fun (source, target, label) => ⟨index, source, label, target⟩).reverse

/-- The graph that a saved form stands for, if its holes and the ends of its links are possible. Links
    count as made in the order of their indices, and the highest free id or index is taken first. -/
def toGraph? (saved : SavedGraph) : Option BlockGraph :=
  let total := saved.blocks.length + saved.holes.length
  let links := placeLinks saved.links
  if links.all fun link => link.source < total && link.target < total then
    (placeBlocks total 0 saved.holes saved.blocks).map fun blocks =>
      { blocks, freeIds := saved.holes.reverse, links, freeIndices := (gaps saved.links).reverse }
  else none

end SavedGraph

end ContractBlocks
