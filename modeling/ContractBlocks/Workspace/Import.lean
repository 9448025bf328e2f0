import ContractBlocks.Graph.Edit
import ContractBlocks.Workspace.Read

namespace ContractBlocks

namespace BlockGraph

/-- Sets fields one after the other. -/
def setFields (g : BlockGraph) (id : NodeId) :
    List (String × FieldValue) → Except GraphFault BlockGraph
  | [] => .ok g
  | (name, value) :: fields => do
    let g ← g.setField id name value
    g.setFields id fields

mutual

/-- Adds a block and all that is plugged into it, the block first. -/
def place (g : BlockGraph) : PlacedBlock → Except GraphFault (NodeId × BlockGraph)
  | ⟨tag, editorId, fields, inputs, next⟩ => do
    match Kind.ofTag? tag with
    | none => .error (.unknownKind tag)
    | some kind =>
      let (id, g) := g.add kind editorId
      let g ← g.setFields id fields
      let g ← g.placeInputs id kind inputs
      let g ← g.placeNext id next
      return (id, g)

/-- Adds the blocks in the inputs of a block. An input must have the name of a slot even where
    nothing is plugged into it. -/
def placeInputs (g : BlockGraph) (id : NodeId) (kind : Kind) :
    List (String × Connection PlacedBlock) → Except GraphFault BlockGraph
  | [] => .ok g
  | (slot, connection) :: inputs => do
    if (kind.slot? slot).isNone then .error (.unknownSlot kind slot)
    else
      match ← g.placeTarget connection with
      | (some child, g) =>
        let g ← g.connect id slot child
        g.placeInputs id kind inputs
      | (none, g) => g.placeInputs id kind inputs

/-- Adds the block that follows a block, and makes it its successor. -/
def placeNext (g : BlockGraph) (id : NodeId) :
    Option (Connection PlacedBlock) → Except GraphFault BlockGraph
  | none => .ok g
  | some connection => do
    match ← g.placeTarget connection with
    | (some next, g) => g.setNext id next
    | (none, g) => return g

/-- Adds the block that a connection holds, if any. -/
def placeTarget (g : BlockGraph) :
    Connection PlacedBlock → Except GraphFault (Option NodeId × BlockGraph)
  | ⟨some block, _⟩ => do
    let (id, g) ← g.place block
    return (some id, g)
  | ⟨none, some block⟩ => do
    let (id, g) ← g.place block
    return (some id, g)
  | ⟨none, none⟩ => .ok (none, g)

end

/-- Adds blocks with all that is plugged into them. -/
def placeAll (g : BlockGraph) : List PlacedBlock → Except GraphFault BlockGraph
  | [] => .ok g
  | block :: blocks => do
    let (_, g) ← g.place block
    g.placeAll blocks

end BlockGraph

namespace Workspace

/-- Why a text does not give a graph. -/
inductive ImportFault
  | json (fault : Json.Fault)
  | graph (fault : GraphFault)

/-- The text of the fault. -/
def ImportFault.message : ImportFault → String
  | .json fault => "invalid workspace: " ++ fault.message
  | .graph fault => fault.message

/-- The graph of a workspace. -/
def graph (workspace : Workspace) : Except GraphFault BlockGraph :=
  BlockGraph.empty.placeAll workspace.blocks

/-- The graph of a text that holds a workspace. The text is read to its end before the first block is
    added. -/
def importText (text : String) : Except ImportFault BlockGraph :=
  match readText text with
  | .error fault => .error (.json fault)
  | .ok workspace =>
    match workspace.graph with
    | .error fault => .error (.graph fault)
    | .ok g => .ok g

end Workspace

end ContractBlocks
