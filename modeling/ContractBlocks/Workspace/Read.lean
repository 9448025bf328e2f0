import ContractBlocks.Workspace.Basic

namespace ContractBlocks.Workspace

open Json (Fault ListEnd Literal ObjectEnd Outline RecordShape)

/-- What has been read of a block. -/
structure BlockDraft where
  tag : Option String := none
  editorId : Option String := none
  fields : List (String × FieldValue) := []
  inputs : List (String × Connection PlacedBlock) := []
  next : Option (Connection PlacedBlock) := none

namespace BlockDraft

/-- The block, which must have a tag. -/
def finish (draft : BlockDraft) : Except Fault PlacedBlock := do
  let tag ← Outline.required "type" draft.tag
  return ⟨tag, draft.editorId, draft.fields, draft.inputs, draft.next⟩

end BlockDraft

def blockShape : RecordShape :=
  ⟨"BlockState", [("type", true), ("id", false), ("fields", false), ("inputs", false), ("next", false)]⟩

def connectionShape : RecordShape :=
  ⟨"ConnectionState", [("block", false), ("shadow", false)]⟩

/-- Reads one field of a block. What is plugged into the block is read by `inputs` and `next`. -/
def readBlockField (inputs : Unit → Except Fault (List (String × Connection PlacedBlock)))
    (next : Unit → Except Fault (Option (Connection PlacedBlock)))
    (draft : BlockDraft) (name : String) (outline : Outline) : Except Fault BlockDraft := do
  match name with
  | "type" => return { draft with tag := some (← outline.readString "a string") }
  | "id" => return { draft with editorId := ← outline.readOptional (Outline.readString "a string") }
  | "fields" => return { draft with fields := ← outline.readMap FieldValue.read }
  | "inputs" => return { draft with inputs := ← inputs () }
  | _ => return { draft with next := ← next () }

/-- Fills one place of a connection. -/
def putTarget (connection : Connection PlacedBlock) (name : String) (target : Option PlacedBlock) :
    Connection PlacedBlock :=
  if name = "block" then { connection with block := target } else { connection with shadow := target }

mutual

/-- Reads the entries of a block. -/
def readBlockEntries (draft : BlockDraft) (seen : List String) :
    List (Literal × Outline) → Except Fault BlockDraft
  | [] => .ok draft
  | (key, value) :: entries => do
    let name ← key.text
    if blockShape.has name then
      if name ∈ seen then .error (.repeatedField name)
      else
        let draft ← readBlockField (fun _ => readInputs value) (fun _ => readNext value) draft name value
        readBlockEntries draft (name :: seen) entries
    else
      value.skip
      readBlockEntries draft seen entries

/-- Reads a block written as the list of its fields. -/
def readBlockItems (draft : BlockDraft) (ending : ListEnd) :
    List (String × Bool) → List Outline → Except Fault BlockDraft
  | [], [] => do
    Json.check ending.lastFault?
    return draft
  | [], _ :: _ => .error .trailingText
  | left, [] => do
    Json.check ending.fault?
    Json.check (blockShape.shortFault? left)
    return draft
  | (name, _) :: left, item :: items => do
    let draft ← readBlockField (fun _ => readInputs item) (fun _ => readNext item) draft name item
    readBlockItems draft ending left items

/-- Reads the inputs of a block. -/
def readInputs : Outline → Except Fault (List (String × Connection PlacedBlock))
  | .object entries ending => do
    let inputs ← readInputEntries [] entries
    Json.check ending.fault?
    return inputs
  | other => .error (other.mismatch "a map")

/-- Reads named connections after those read before. -/
def readInputEntries (before : List (String × Connection PlacedBlock)) :
    List (Literal × Outline) → Except Fault (List (String × Connection PlacedBlock))
  | [] => .ok before
  | (key, value) :: entries => do
    let name ← key.text
    let connection ← readConnection value
    readInputEntries (putNamed name connection before) entries

/-- Reads the connection to the next block, or `null`. -/
def readNext : Outline → Except Fault (Option (Connection PlacedBlock))
  | .null => .ok none
  | .object entries ending => do
    let connection ← readConnectionEntries ⟨none, none⟩ [] entries
    Json.check ending.fault?
    return some connection
  | .list items ending => some <$> readConnectionItems ⟨none, none⟩ ending connectionShape.fields items
  | other => .error (other.mismatch connectionShape.expected)

/-- Reads a connection. -/
def readConnection : Outline → Except Fault (Connection PlacedBlock)
  | .object entries ending => do
    let connection ← readConnectionEntries ⟨none, none⟩ [] entries
    Json.check ending.fault?
    return connection
  | .list items ending => readConnectionItems ⟨none, none⟩ ending connectionShape.fields items
  | other => .error (other.mismatch connectionShape.expected)

/-- Reads the entries of a connection. -/
def readConnectionEntries (connection : Connection PlacedBlock) (seen : List String) :
    List (Literal × Outline) → Except Fault (Connection PlacedBlock)
  | [] => .ok connection
  | (key, value) :: entries => do
    let name ← key.text
    if connectionShape.has name then
      if name ∈ seen then .error (.repeatedField name)
      else
        let target ← readTarget value
        readConnectionEntries (putTarget connection name target) (name :: seen) entries
    else
      value.skip
      readConnectionEntries connection seen entries

/-- Reads a connection written as the list of its fields. -/
def readConnectionItems (connection : Connection PlacedBlock) (ending : ListEnd) :
    List (String × Bool) → List Outline → Except Fault (Connection PlacedBlock)
  | [], [] => do
    Json.check ending.lastFault?
    return connection
  | [], _ :: _ => .error .trailingText
  | _ :: _, [] => do
    Json.check ending.fault?
    return connection
  | (name, _) :: left, item :: items => do
    let target ← readTarget item
    readConnectionItems (putTarget connection name target) ending left items

/-- Reads a block in a connection, or `null`. -/
def readTarget : Outline → Except Fault (Option PlacedBlock)
  | .null => .ok none
  | .object entries ending => do
    let draft ← readBlockEntries {} [] entries
    Json.check ending.fault?
    return some (← draft.finish)
  | .list items ending => do
    let draft ← readBlockItems {} ending blockShape.fields items
    return some (← draft.finish)
  | other => .error (other.mismatch blockShape.expected)

end

/-- Reads a block. -/
def readBlock : Outline → Except Fault PlacedBlock
  | .object entries ending => do
    let draft ← readBlockEntries {} [] entries
    Json.check ending.fault?
    draft.finish
  | .list items ending => do
    let draft ← readBlockItems {} ending blockShape.fields items
    draft.finish
  | other => .error (other.mismatch blockShape.expected)

def stackShape : RecordShape :=
  ⟨"TopBlocks", [("blocks", false)]⟩

def workspaceShape : RecordShape :=
  ⟨"WorkspaceState", [("blocks", false)]⟩

/-- Reads the list of blocks that are plugged into no other. -/
def readStack (outline : Outline) : Except Fault (List PlacedBlock) :=
  outline.readRecord stackShape (fun _ _ outline => outline.readList readBlock) []

/-- Reads a workspace. -/
def read (outline : Outline) : Except Fault Workspace := do
  let stack ← outline.readRecord workspaceShape
    (fun _ _ outline => outline.readOptional readStack) (none : Option (List PlacedBlock))
  return ⟨stack.getD []⟩

/-- Reads a text that holds a workspace. -/
def readText (text : String) : Except Fault Workspace :=
  Outline.readText read text

end ContractBlocks.Workspace
