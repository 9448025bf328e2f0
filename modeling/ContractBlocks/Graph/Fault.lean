import ContractBlocks.Grammar

namespace ContractBlocks

/-- The place of a block in a graph. It stays the same while other blocks come and go. -/
abbrev NodeId := Nat

/-- Why an edit of a graph is refused. -/
inductive GraphFault
  | noBlock (id : NodeId)
  | unknownKind (tag : String)
  | unknownSlot (kind : Kind) (slot : String)
  | unknownField (kind : Kind) (field : String)
  | notChainable (kind : Kind)
deriving DecidableEq, Repr

namespace GraphFault

/-- The text of a fault. -/
def message : GraphFault → String
  | .noBlock id => "node not found: NodeId(" ++ Decimal.natText id ++ ")"
  | .unknownKind tag => "unknown block type: '" ++ tag ++ "'"
  | .unknownSlot kind slot => "block " ++ kind.tag ++ " has no input '" ++ slot ++ "'"
  | .unknownField kind field => "block " ++ kind.tag ++ " has no field '" ++ field ++ "'"
  | .notChainable kind => "block " ++ kind.tag ++ " cannot be chained"

end GraphFault

end ContractBlocks
