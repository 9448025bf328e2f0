import ContractBlocks.Compile.Basic
import ContractBlocks.Proofs.Compile.Chain

namespace ContractBlocks

/-- What the grammar lets stand on a block: a field, a slot for one child, or the first place of a
    chain of blocks of one category. -/
inductive Place
  | field (field : FieldSlot)
  | child (slot : Slot)
  | chain (slot : String) (inner : Category)
deriving DecidableEq, Repr

/-- The place that a slot is. It starts a chain where the rule says so. -/
def Rule.placeOf (rule : Rule) (slot : Slot) : Place :=
  match rule.chain with
  | .holder name inner => if slot.name = name then .chain slot.name inner else .child slot
  | _ => .child slot

/-- The places on a block in the order in which faults in them are reported: the fields, then the
    slots. Only in the block that waits do the cases come before the timeout. -/
def Kind.places (kind : Kind) : List Place :=
  let fields := kind.rule.fields.map Place.field
  let slots := kind.rule.slots.map kind.rule.placeOf
  if kind = .contract .when then slots.take 1 ++ fields ++ slots.drop 1 else fields ++ slots

namespace Kind

@[simp] theorem places_arithmetic (op : Arithmetic) : (value (.arithmetic op)).places =
    [.child (Grammar.slot "LHS" .value), .child (Grammar.slot "RHS" .value)] := by
  cases op <;> rfl

@[simp] theorem places_literal (b : Bool) : (observation (.literal b)).places = [] := by
  cases b <;> rfl

@[simp] theorem places_connective (op : Connective) : (observation (.connective op)).places =
    [.child (Grammar.slot "LHS" .observation), .child (Grammar.slot "RHS" .observation)] := by
  cases op <;> rfl

@[simp] theorem places_comparison (op : Comparison) : (observation (.comparison op)).places =
    [.child (Grammar.slot "LHS" .value), .child (Grammar.slot "RHS" .value)] := by
  cases op <;> rfl

end Kind

namespace Source

/-- The top-level root with the least id. -/
def leastRoot? (S : Source) : Option NodeId :=
  (S.topLevel.filter fun node => S.kind node = some .root).min?

/-- What is wrong with a field of a block. -/
def fieldViolations (S : Source) (node : NodeId) (kind : Kind) (field : FieldSlot) : List Violation :=
  match S.field node field.name with
  | none => [.missingField node kind field.name]
  | some value =>
    if field.type = .number ∧ value.asInteger? = none then
      [.notInteger node kind field.name value.asText]
    else []

/-- What is wrong with a place of a block, where `below` says what is wrong with a child. -/
def placeViolations (S : Source) (below : Category → NodeId → List Violation) (node : NodeId)
    (kind : Kind) : Place → List Violation
  | .field field => S.fieldViolations node kind field
  | .child slot =>
    match S.slot node slot.name with
    | some child => below slot.category child
    | none => if slot.required then [.missingInput node kind slot.name] else []
  | .chain slot inner =>
    match S.slot node slot with
    | none => []
    | some first =>
      match S.successors [] first with
      | .ok elements => elements.flatMap (below inner)
      | .error again => [.cyclicChain again]

/-- All that is wrong with a block that should produce `expected`, and with the blocks inside it, when
    it stands inside the blocks of `path`. Nothing is looked at below a reference to no block, a block
    of another category or one that contains itself; every other fault leaves the rest in place. -/
def violationsAt (S : Source) (expected : Category) (path : List NodeId) (node : NodeId) :
    List Violation :=
  match hkind : S.kind node with
  | none => [.dangling node]
  | some kind =>
    if kind.category ≠ expected then [.wrongCategory node expected kind]
    else if hpath : node ∈ path then [.cyclicSlot node]
    else
      have := S.outside_cons_lt (S.mem_ids_of_kind_eq hkind) hpath
      kind.places.flatMap
        (S.placeViolations (fun category child => S.violationsAt category (node :: path) child) node kind)
termination_by S.outside path

/-- All that keeps the blocks below the least top-level root from being a contract. -/
def violations (S : Source) : List Violation :=
  match S.leastRoot? with
  | none => [.missingRoot]
  | some root =>
    match S.slot root "CONTRACT" with
    | none => [.missingInput root .root "CONTRACT"]
    | some node => S.violationsAt .contract [] node

theorem violationsAt_of_dangling (S : Source) {expected : Category} {path : List NodeId} {node : NodeId}
    (hkind : S.kind node = none) : S.violationsAt expected path node = [.dangling node] := by
  rw [violationsAt]
  split
  · rfl
  · next hsome => rw [hkind] at hsome; cases hsome

theorem violationsAt_of_category_ne (S : Source) {expected : Category} {path : List NodeId}
    {node : NodeId} {kind : Kind} (hkind : S.kind node = some kind)
    (hcategory : kind.category ≠ expected) :
    S.violationsAt expected path node = [.wrongCategory node expected kind] := by
  rw [violationsAt]
  split
  · next hnone => rw [hkind] at hnone; cases hnone
  · next hsome =>
    rw [hkind] at hsome
    cases hsome
    rw [if_pos hcategory]

theorem violationsAt_of_mem_path (S : Source) {path : List NodeId} {node : NodeId} {kind : Kind}
    (hkind : S.kind node = some kind) (hpath : node ∈ path) :
    S.violationsAt kind.category path node = [.cyclicSlot node] := by
  rw [violationsAt]
  split
  · next hnone => rw [hkind] at hnone; cases hnone
  · next hsome =>
    rw [hkind] at hsome
    cases hsome
    rw [if_neg (by simp), dif_pos hpath]

theorem violationsAt_of_not_mem_path (S : Source) {path : List NodeId} {node : NodeId} {kind : Kind}
    (hkind : S.kind node = some kind) (hpath : node ∉ path) :
    S.violationsAt kind.category path node = kind.places.flatMap
      (S.placeViolations (fun category => S.violationsAt category (node :: path)) node kind) := by
  rw [violationsAt]
  split
  · next hnone => rw [hkind] at hnone; cases hnone
  · next hsome =>
    rw [hkind] at hsome
    cases hsome
    rw [if_neg (by simp), dif_neg hpath]

end Source

end ContractBlocks
