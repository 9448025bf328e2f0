import ContractBlocks.Graph.Basic

namespace ContractBlocks.BlockGraph

/-- Adds a block that has no links. It takes the id that was freed last, or else a new one. -/
def insert (g : BlockGraph) (block : Block) : NodeId × BlockGraph :=
  match g.freeIds with
  | id :: freeIds => (id, { g with blocks := g.blocks.set id (some block), freeIds })
  | [] => (g.blocks.length, { g with blocks := g.blocks ++ [some block] })

/-- Adds a block of a kind, with no fields and no links. -/
def add (g : BlockGraph) (kind : Kind) (editorId : Option String) : NodeId × BlockGraph :=
  g.insert { kind, editorId }

/-- The block with that id, which must be there. -/
def require (g : BlockGraph) (id : NodeId) : Except GraphFault Block :=
  match g.block? id with
  | some block => .ok block
  | none => .error (.noBlock id)

/-- Takes out a link and frees its index. -/
def eraseLink (g : BlockGraph) (link : Link) : BlockGraph :=
  { g with links := g.links.erase link, freeIndices := link.index :: g.freeIndices }

/-- The links of a block in the order in which they go with it: those that leave it, then those that
    end at it, each the latest made first. -/
def linksOf (g : BlockGraph) (id : NodeId) : List Link :=
  g.links.filter (fun link => link.source = id) ++
    g.links.filter fun link => link.target = id && link.source ≠ id

/-- Removes a block and all its links. -/
def remove (g : BlockGraph) (id : NodeId) : Except GraphFault (Block × BlockGraph) := do
  let block ← g.require id
  let g := (g.linksOf id).foldl eraseLink g
  return (block, { g with blocks := g.blocks.set id none, freeIds := id :: g.freeIds })

/-- Sets a field, which the kind of the block must have. -/
def setField (g : BlockGraph) (id : NodeId) (name : String) (value : FieldValue) :
    Except GraphFault BlockGraph := do
  let block ← g.require id
  if (block.kind.field? name).isNone then .error (.unknownField block.kind name)
  else return { g with blocks := g.blocks.set id (some (block.setField name value)) }

/-- Makes a link. It takes the index that was freed last, or else a new one. -/
def addLink (g : BlockGraph) (source : NodeId) (label : Label) (target : NodeId) : BlockGraph :=
  match g.freeIndices with
  | index :: freeIndices => { g with links := ⟨index, source, label, target⟩ :: g.links, freeIndices }
  | [] => { g with links := ⟨g.links.length, source, label, target⟩ :: g.links }

/-- Takes out the link with that label that leaves a block, and gives the block it led to. -/
def unlink (g : BlockGraph) (source : NodeId) (label : Label) : Option NodeId × BlockGraph :=
  match g.link? source label with
  | some link => (some link.target, g.eraseLink link)
  | none => (none, g)

/-- Makes a link in the place of the one with the same source and label. -/
def relink (g : BlockGraph) (source : NodeId) (label : Label) (target : NodeId) : BlockGraph :=
  (g.unlink source label).2.addLink source label target

/-- Empties a slot, and gives the child that was there. -/
def disconnect (g : BlockGraph) (parent : NodeId) (slot : String) : Option NodeId × BlockGraph :=
  g.unlink parent (.slot slot)

/-- Puts a child into a slot in the place of any other. The kind of the parent must have the slot;
    the kind of the child is not looked at. -/
def connect (g : BlockGraph) (parent : NodeId) (slot : String) (child : NodeId) :
    Except GraphFault BlockGraph := do
  let block ← g.require parent
  let _ ← g.require child
  if (block.kind.slot? slot).isNone then .error (.unknownSlot block.kind slot)
  else return g.relink parent (.slot slot) child

/-- Takes away the successor of a block, and gives it. -/
def clearNext (g : BlockGraph) (id : NodeId) : Option NodeId × BlockGraph :=
  g.unlink id .next

/-- Gives a block a successor in the place of any other. The kind of the block must be one of the
    links of a chain; the kind of the successor is not looked at. -/
def setNext (g : BlockGraph) (id next : NodeId) : Except GraphFault BlockGraph := do
  let block ← g.require id
  let _ ← g.require next
  if block.kind.isLink then return g.relink id .next next
  else .error (.notChainable block.kind)

/-- Links blocks into a chain in their order. A pair that cannot be linked ends it, and the links
    made before stay. -/
def chain (g : BlockGraph) : List NodeId → BlockGraph × Option GraphFault
  | a :: b :: rest =>
    match g.setNext a b with
    | .ok g => g.chain (b :: rest)
    | .error fault => (g, some fault)
  | _ => (g, none)

end ContractBlocks.BlockGraph
