import ContractBlocks.Proofs.Compile.Denotes
import ContractBlocks.Proofs.Compile.Finds
import ContractBlocks.Proofs.Compile.Violations

namespace ContractBlocks

namespace Source

variable {S : Source} {α β : Type} {node : NodeId} {kind : Kind} {path : List NodeId}
  {below : Category → NodeId → List Violation} {more : List Violation} {Q : β → Prop}

theorem textOf_finds (field : String) :
    (S.textOf node kind field).Finds path (S.placeViolations below node kind (.field ⟨field, .text⟩))
      fun text => S.text? node field = some text := by
  cases hfield : S.field node field with
  | none =>
    simp only [textOf, fieldOf, placeViolations, fieldViolations, hfield, Walk.fail_bind]
    exact .fail _
  | some value =>
    simp only [textOf, fieldOf, placeViolations, fieldViolations, hfield, pure_bind, reduceCtorEq,
      false_and, if_false]
    exact .pure (by simp [text?, hfield])

theorem integerOf_finds (field : String) :
    (S.integerOf node kind field).Finds path
      (S.placeViolations below node kind (.field ⟨field, .number⟩))
      fun n => S.integer? node field = some n := by
  cases hfield : S.field node field with
  | none =>
    simp only [integerOf, fieldOf, placeViolations, fieldViolations, hfield, Walk.fail_bind]
    exact .fail _
  | some value =>
    cases hinteger : value.asInteger? with
    | none =>
      simp only [integerOf, fieldOf, placeViolations, fieldViolations, hfield, hinteger, pure_bind,
        and_self, if_true]
      exact .fail _
    | some n =>
      simp only [integerOf, fieldOf, placeViolations, fieldViolations, hfield, hinteger, pure_bind,
        reduceCtorEq, and_false, if_false]
      exact .pure (by simp [integer?, hfield, hinteger])

/-- A slot that must be filled contributes its absence, or else what is found at its child. -/
theorem childOf_finds {slot : String} {category : Category} {visit : NodeId → Walk α}
    {f : α → Walk β} {P : NodeId → α → Prop}
    (hvisit : ∀ child, (visit child).Finds path (below category child) (P child))
    (hrest : ∀ child a, S.slot node slot = some child → P child a → (f a).Finds path more Q) :
    (S.childOf node kind slot >>= fun child => visit child >>= f).Finds path
      (S.placeViolations below node kind (.child (Grammar.slot slot category)) ++ more) Q := by
  cases hslot : S.slot node slot with
  | none =>
    simp only [childOf, placeViolations, Grammar.slot, hslot, if_true, Walk.fail_bind]
    exact rfl
  | some child =>
    simp only [childOf, placeViolations, Grammar.slot, hslot, pure_bind]
    exact (hvisit child).bind fun a ha => hrest child a hslot ha

/-- A chain contributes that it comes back to a block, or else what is found at its elements. -/
theorem chainOf_finds {slot : String} {inner : Category} {visit : NodeId → Walk α}
    {f : List α → Walk β} {P : NodeId → α → Prop}
    (hvisit : ∀ element, (visit element).Finds path (below inner element) (P element))
    (hrest : ∀ nodes results, S.ChainFrom (S.slot node slot) nodes → nodes.length = results.length →
      (∀ pair ∈ nodes.zip results, P pair.1 pair.2) → (f results).Finds path more Q) :
    (S.chainOf node slot >>= fun elements => elements.mapM visit >>= f).Finds path
      (S.placeViolations below node kind (.chain slot inner) ++ more) Q := by
  have hok : ∀ nodes, S.chain (S.slot node slot) = .ok nodes →
      (S.chainOf node slot >>= fun elements => elements.mapM visit >>= f).Finds path
        (nodes.flatMap (below inner) ++ more) Q := by
    intro nodes hnodes
    have hchain : S.chainOf node slot = pure nodes := by rw [chainOf, hnodes]; rfl
    rw [hchain, pure_bind]
    exact (Walk.Finds.mapM fun element _ => hvisit element).bind fun results hresults =>
      hrest nodes results ((S.chain_eq_ok_iff _ _).1 hnodes) hresults.1 hresults.2
  cases hslot : S.slot node slot with
  | none =>
    simp only [placeViolations, hslot]
    exact hok [] (by rw [hslot, chain_none])
  | some first =>
    have hchain := S.chain_some first
    simp only [placeViolations, hslot]
    cases hnodes : S.successors [] first with
    | ok nodes => exact hok nodes (by rw [hslot, hchain, hnodes])
    | error again =>
      have hfail : S.chainOf node slot = .fail (.cyclicChain again) := by
        rw [chainOf, hslot, hchain, hnodes]
        rfl
      rw [hfail, Walk.fail_bind]
      exact rfl

/-- Looking at a block's kind finds a missing block or one of another category. -/
theorem kindOf_finds {expected : Category} {body : Kind → Walk β}
    (hother : ∀ kind, kind.category ≠ expected → body kind = .fail (.wrongCategory node expected kind))
    (hbody : ∀ kind, S.kind node = some kind → kind.category = expected →
      (body kind).Finds path (S.violationsAt expected path node) Q) :
    (S.kindOf node >>= body).Finds path (S.violationsAt expected path node) Q := by
  cases hkind : S.kind node with
  | none =>
    rw [S.violationsAt_of_dangling hkind]
    simp only [kindOf, hkind, Walk.fail_bind]
    exact .fail _
  | some kind =>
    simp only [kindOf, hkind, pure_bind]
    by_cases hcategory : kind.category = expected
    · exact hbody kind hkind hcategory
    · rw [S.violationsAt_of_category_ne hkind hcategory, hother kind hcategory]
      exact .fail _

/-- Going inside a block finds that the walk is inside it already, or else what its places hold. -/
theorem inside_finds {w : Walk β} (hkind : S.kind node = some kind)
    (hbody : node ∉ path → w.Finds (node :: path) (kind.places.flatMap
      (S.placeViolations (fun category => S.violationsAt category (node :: path)) node kind)) Q) :
    (Walk.inside node w).Finds path (S.violationsAt kind.category path node) Q := by
  by_cases hpath : node ∈ path
  · rw [S.violationsAt_of_mem_path hkind hpath]
    exact .inside_again hpath
  · rw [S.violationsAt_of_not_mem_path hkind hpath]
    exact .inside hpath (hbody hpath)

/-- A block that has no others inside it is looked at without going inside. -/
theorem outside_finds {w : Walk β} (hkind : S.kind node = some kind) (hpath : node ∉ path)
    (hbody : w.Finds path (kind.places.flatMap
      (S.placeViolations (fun category => S.violationsAt category (node :: path)) node kind)) Q) :
    w.Finds path (S.violationsAt kind.category path node) Q := by
  rw [S.violationsAt_of_not_mem_path hkind hpath]
  exact hbody

end Source

end ContractBlocks
