import ContractBlocks.Field
import ContractBlocks.Json.Record

namespace ContractBlocks

/-- What is plugged into a block: another block, or one that only stands in until there is another. -/
structure Connection (α : Type) where
  block : Option α
  shadow : Option α

namespace Connection

/-- What a connection holds; the stand-in counts only where there is no block. -/
def target? {α : Type} (connection : Connection α) : Option α :=
  connection.block.or connection.shadow

end Connection

/-- A block of a workspace with all that is plugged into it. -/
structure PlacedBlock where
  tag : String
  editorId : Option String
  fields : List (String × FieldValue)
  inputs : List (String × Connection PlacedBlock)
  next : Option (Connection PlacedBlock)

/-- A workspace: the blocks that are plugged into no other. -/
structure Workspace where
  blocks : List PlacedBlock

end ContractBlocks
