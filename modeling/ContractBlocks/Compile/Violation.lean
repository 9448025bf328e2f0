import ContractBlocks.Graph.Fault

namespace ContractBlocks

/-- How blocks fail to make up a contract. Each names the block at fault, where there is one. -/
inductive Violation
  | missingRoot
  | missingInput (node : NodeId) (kind : Kind) (slot : String)
  | wrongCategory (node : NodeId) (expected : Category) (found : Kind)
  | cyclicChain (node : NodeId)
  | cyclicSlot (node : NodeId)
  | notInteger (node : NodeId) (kind : Kind) (field : String) (raw : String)
  | missingField (node : NodeId) (kind : Kind) (field : String)
  | dangling (node : NodeId)
deriving DecidableEq, Repr

namespace Violation

/-- The block to point at. -/
def node? : Violation → Option NodeId
  | .missingRoot => none
  | .missingInput node .. | .wrongCategory node .. | .cyclicChain node | .cyclicSlot node
  | .notInteger node .. | .missingField node .. | .dangling node => some node

/-- The block at fault as messages write it. -/
def atNode (node : NodeId) : String :=
  "node " ++ Decimal.natText node

/-- The text of a violation. -/
def message : Violation → String
  | .missingRoot => "no contract_root block found; add a Contract Root block"
  | .missingInput node kind slot =>
    "missing required input \"" ++ slot ++ "\" on " ++ kind.tag ++ " (" ++ atNode node ++ ")"
  | .wrongCategory node expected found =>
    "expected a " ++ expected.name ++ " block, found " ++ found.tag ++ " (" ++ found.category.name ++
      ") at " ++ atNode node
  | .cyclicChain node => "chain revisits " ++ atNode node
  | .cyclicSlot node => "block at " ++ atNode node ++ " contains itself"
  | .notInteger node kind field raw =>
    "field " ++ field ++ " on " ++ kind.tag ++ " (" ++ atNode node ++ ") is not an integer: \"" ++
      raw ++ "\""
  | .missingField node kind field =>
    "missing field " ++ field ++ " on " ++ kind.tag ++ " (" ++ atNode node ++ ")"
  | .dangling node => "reference to unknown " ++ atNode node

/-- The name of the cause. -/
def tag : Violation → String
  | .missingRoot => "missing_root"
  | .missingInput .. => "missing_input"
  | .wrongCategory .. => "category_mismatch"
  | .cyclicChain _ => "cyclic_chain"
  | .cyclicSlot _ => "cyclic_slot"
  | .notInteger .. => "invalid_numeric_field"
  | .missingField .. => "missing_field"
  | .dangling _ => "dangling_reference"

/-- What the violation says beside its cause. -/
def details : Violation → List (String × Json)
  | .missingRoot => []
  | .missingInput node kind slot =>
    [("node", .nat node), ("block_kind", .string kind.tag), ("slot", .string slot)]
  | .wrongCategory node expected found =>
    [("node", .nat node), ("expected", .string expected.name), ("found", .string found.tag)]
  | .cyclicChain node | .cyclicSlot node => [("at_node", .nat node)]
  | .notInteger node kind field raw =>
    [("node", .nat node), ("block_kind", .string kind.tag), ("field", .string field),
      ("raw", .string raw)]
  | .missingField node kind field =>
    [("node", .nat node), ("block_kind", .string kind.tag), ("field", .string field)]
  | .dangling node => [("node", .nat node)]

/-- A violation as a JSON value. -/
def toJson (violation : Violation) : Json :=
  .object (("error", .string violation.tag) :: violation.details)

end Violation

end ContractBlocks
