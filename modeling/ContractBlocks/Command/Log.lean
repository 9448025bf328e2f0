import ContractBlocks.Compile.Basic
import ContractBlocks.Contract.Size

namespace ContractBlocks

/-- What is told while a command runs. -/
inductive LogLine
  | loaded (blocks links : Nat)
  | severalRoots (root : NodeId) (ignored : Nat)
  | compiling (root : NodeId)
  | compiled (root : NodeId) (size : Nat)
  | wrote (path : String)
deriving DecidableEq, Repr

namespace LogLine

/-- Whether the line is told even if nothing was asked for. -/
def isWarning : LogLine → Bool
  | severalRoots .. => true
  | _ => false

/-- The text of a line. -/
def text : LogLine → String
  | loaded blocks links =>
    "DEBUG marlowe_blocks: loaded workspace blocks=" ++ Decimal.natText blocks ++ " edges=" ++
      Decimal.natText links
  | severalRoots root ignored =>
    "WARN marlowe_blocks_compile::compiler: several contract_root blocks; compiling the first root=" ++
      Decimal.natText root ++ " ignored=" ++ Decimal.natText ignored
  | compiling root =>
    "DEBUG marlowe_blocks_compile::compiler: compiling contract root=" ++ Decimal.natText root
  | compiled root size =>
    "DEBUG marlowe_blocks_compile::compiler: compiled contract root=" ++ Decimal.natText root ++
      " size=" ++ Decimal.natText size
  | wrote path => "INFO marlowe_blocks: wrote contract document path=" ++ path

end LogLine

namespace Source

/-- What is told of a compilation. -/
def compileLog (S : Source) : List LogLine :=
  match S.roots with
  | [] => []
  | root :: others =>
    (if others.isEmpty then [] else [.severalRoots root others.length]) ++ [.compiling root] ++
      match S.compileBelow root with
      | .ok contract => [.compiled root contract.size]
      | .error _ => []

end Source

end ContractBlocks
