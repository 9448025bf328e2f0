import ContractBlocks.Compile.Chain

namespace ContractBlocks

/-- A computation on the way down from a block to the blocks inside it. It knows the blocks that it
    is inside of, which stay known when it fails. -/
def Walk (α : Type) : Type :=
  List NodeId → Except Violation α × List NodeId

namespace Walk

instance : Monad Walk where
  pure a := fun path => (.ok a, path)
  bind x f := fun path =>
    match x path with
    | (.ok a, path) => f a path
    | (.error violation, path) => (.error violation, path)

/-- Stops with a violation. -/
def fail {α : Type} (violation : Violation) : Walk α :=
  fun path => (.error violation, path)

/-- Goes on with a result that does not depend on where the walk is. -/
def lift {α : Type} (result : Except Violation α) : Walk α :=
  fun path => (result, path)

/-- Walks inside a block, which must not be one that the walk is inside of already. -/
def inside {α : Type} (node : NodeId) (body : Walk α) : Walk α :=
  fun path =>
    if node ∈ path then (.error (.cyclicSlot node), path)
    else
      let (result, path) := body (node :: path)
      (result, path.erase node)

end Walk

end ContractBlocks
