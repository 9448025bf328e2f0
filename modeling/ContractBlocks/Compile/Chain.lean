import ContractBlocks.Compile.Violation
import ContractBlocks.Source

namespace ContractBlocks.Source

/-- Follows successors after the blocks in `seen`, the latest first, for at most `steps` steps. -/
def follow (S : Source) : Nat → List NodeId → Option NodeId → Except Violation (List NodeId)
  | _, seen, none => .ok seen.reverse
  | 0, _, some node => .error (.cyclicChain node)
  | steps + 1, seen, some node =>
    if node ∈ seen then .error (.cyclicChain node)
    else S.follow steps (node :: seen) (S.next node)

/-- The blocks of a chain from its first element on. The walk meets each id that has a successor once
    before it comes back to one, so the number of ids bounds it. -/
def chain (S : Source) (start : Option NodeId) : Except Violation (List NodeId) :=
  S.follow (S.ids.length + 1) [] start

end ContractBlocks.Source
