import ContractBlocks.Compile.Part
import ContractBlocks.Contract.Document

namespace ContractBlocks.Source

/-- The top-level roots, in ascending order of their ids. -/
def roots (S : Source) : List NodeId :=
  (S.topLevel.filter fun node => S.kind node = some .root).mergeSort

/-- The contract below a root. -/
def compileBelow (S : Source) (root : NodeId) : Except Violation Contract :=
  match S.slot root "CONTRACT" with
  | some node => (S.parts.contract node []).1
  | none => .error (.missingInput root .root "CONTRACT")

/-- The contract below the top-level root with the least id. Other roots do not count. -/
def compile (S : Source) : Except Violation Contract :=
  match S.roots with
  | root :: _ => S.compileBelow root
  | [] => .error .missingRoot

/-- The text of the contract's document. -/
def compileText (S : Source) : Except Violation String :=
  S.compile.map Contract.pretty

end ContractBlocks.Source
