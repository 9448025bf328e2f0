import ContractBlocks.Field
import ContractBlocks.Grammar

namespace ContractBlocks

/-- A block: its kind, the id that the editor knows it by, and its fields in the order in which they
    were first set. -/
structure Block where
  kind : Kind
  editorId : Option String := none
  fields : List (String × FieldValue) := []
deriving DecidableEq

namespace Block

/-- The value of a field. -/
def field? (block : Block) (name : String) : Option FieldValue :=
  block.fields.lookup name

/-- Sets a field. One that is set already keeps its place. -/
def setField (block : Block) (name : String) (value : FieldValue) : Block :=
  { block with fields := putNamed name value block.fields }

end Block

end ContractBlocks
