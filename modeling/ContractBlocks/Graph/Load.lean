import ContractBlocks.Graph.Saved

namespace ContractBlocks.SavedGraph

open Json (Fault Outline RecordShape)

/-- Reads an id or an index. -/
def readIndex (outline : Outline) : Except Fault Nat :=
  match outline with
  | .number n => do
    match ← Outline.readNumber n with
    | .whole z _ => if 0 ≤ z ∧ z < 0x100000000 then .ok z.toNat else .error (.refused "index out of range")
    | .float _ => .error (outline.mismatch "an index")
  | other => .error (other.mismatch "an index")

/-- Reads the tag of a kind. -/
def readKind (outline : Outline) : Except Fault Kind := do
  let tag ← outline.readString "a string"
  match Kind.ofTag? tag with
  | some kind => .ok kind
  | none => .error (.refused (GraphFault.unknownKind tag).message)

/-- What has been read of a block. -/
structure BlockDraft where
  kind : Option Kind := none
  fields : List (String × FieldValue) := []
  editorId : Option String := none

def blockShape : RecordShape :=
  ⟨"Block", [("kind", true), ("fields", false), ("block_id", false)]⟩

def readBlockField (draft : BlockDraft) (name : String) (outline : Outline) :
    Except Fault BlockDraft := do
  match name with
  | "kind" => return { draft with kind := some (← readKind outline) }
  | "fields" => return { draft with fields := ← outline.readMap FieldValue.read }
  | _ => return { draft with editorId := ← outline.readOptional (Outline.readString "a string") }

/-- Reads a block. -/
def readBlock (outline : Outline) : Except Fault Block := do
  let draft ← outline.readRecord blockShape readBlockField {}
  let kind ← Outline.required "kind" draft.kind
  return ⟨kind, draft.editorId, draft.fields⟩

def slotShape : RecordShape :=
  ⟨"Slot", [("name", true)]⟩

/-- Reads the content of a slot label. -/
def readSlot : Option Outline → Except Fault Label
  | some outline => do
    let name ← outline.readRecord slotShape
      (fun _ _ outline => some <$> outline.readString "a string") (none : Option String)
    return .slot (← Outline.required "name" name)
  | none => .error (.refused "a slot has a name")

/-- Reads a label. -/
def readLabel : Outline → Except Fault Label :=
  Outline.readVariant
    (fun name =>
      match name with
      | "Slot" => .ok true
      | "Next" => .ok false
      | _ => .error (.unknownVariant name ["Slot", "Next"]))
    (fun isSlot content =>
      if isSlot then readSlot content
      else do
        Outline.readNothing content
        return .next)

/-- What has been read of a link. -/
structure LinkDraft where
  source : Option NodeId := none
  target : Option NodeId := none
  label : Option Label := none

def linkShape : RecordShape :=
  ⟨"Link", [("source", true), ("target", true), ("label", true)]⟩

def readLinkField (draft : LinkDraft) (name : String) (outline : Outline) :
    Except Fault LinkDraft := do
  match name with
  | "source" => return { draft with source := some (← readIndex outline) }
  | "target" => return { draft with target := some (← readIndex outline) }
  | _ => return { draft with label := some (← readLabel outline) }

/-- Reads a link, which is a list of its two ends and its label. -/
def readLink : Outline → Except Fault (NodeId × NodeId × Label)
  | .list items ending => do
    let draft ← Outline.readPositions linkShape readLinkField {} ending linkShape.fields items
    return (← Outline.required "source" draft.source, ← Outline.required "target" draft.target,
      ← Outline.required "label" draft.label)
  | other => .error (other.mismatch "a tuple of size 3")

/-- Reads whether links have a direction. -/
def readDirected : Outline → Except Fault Bool :=
  Outline.readVariant
    (fun name =>
      match name with
      | "directed" => .ok true
      | "undirected" => .ok false
      | _ => .error (.unknownVariant name ["undirected", "directed"]))
    (fun directed content => do
      Outline.readNothing content
      return directed)

/-- What has been read of a graph. -/
structure GraphDraft where
  blocks : Option (List Block) := none
  holes : List NodeId := []
  directed : Option Bool := none
  links : Option (List (Option (NodeId × NodeId × Label))) := none

def graphShape : RecordShape :=
  ⟨"Graph", [("nodes", true), ("node_holes", false), ("edge_property", true), ("edges", true)]⟩

def readGraphField (draft : GraphDraft) (name : String) (outline : Outline) :
    Except Fault GraphDraft := do
  match name with
  | "nodes" => return { draft with blocks := some (← outline.readList readBlock) }
  | "node_holes" => return { draft with holes := ← outline.readList readIndex }
  | "edge_property" => return { draft with directed := some (← readDirected outline) }
  | _ => return { draft with links := some (← outline.readList (Outline.readOptional readLink)) }

/-- Reads a saved form and makes its graph. -/
def readGraph (outline : Outline) : Except Fault BlockGraph := do
  let draft ← outline.readRecord graphShape readGraphField {}
  let blocks ← Outline.required "nodes" draft.blocks
  let directed ← Outline.required "edge_property" draft.directed
  let links ← Outline.required "edges" draft.links
  if directed then
    match toGraph? ⟨blocks, draft.holes, links⟩ with
    | some g => .ok g
    | none => .error (.refused "no such block")
  else .error (.refused "links must have a direction")

def outerShape : RecordShape :=
  ⟨"SavedGraph", [("blocks", true)]⟩

/-- Reads a text that holds a saved graph. -/
def readText (text : String) : Except Fault BlockGraph :=
  Outline.readText
    (fun outline => do
      let g ← outline.readRecord outerShape
        (fun _ _ outline => some <$> readGraph outline) (none : Option BlockGraph)
      Outline.required "blocks" g)
    text

end ContractBlocks.SavedGraph
