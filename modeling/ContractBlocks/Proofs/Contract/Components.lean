import ContractBlocks.Contract.Size
import ContractBlocks.Proofs.Compile.Contents
import Mathlib.Algebra.GroupWithZero.Nat

namespace ContractBlocks

/-! The components of a part of a contract are the part itself and all parts inside it, in the order
in which they are written. -/

def Party.components (party : Party) : List Part :=
  [.party party]

def Payee.components : Payee → List Part
  | .party p => .payee (.party p) :: p.components
  | .account p => .payee (.account p) :: p.components

def Token.components (token : Token) : List Part :=
  [.token token]

def ChoiceId.components (choice : ChoiceId) : List Part :=
  .choiceId choice :: choice.owner.components

def Bound.components (bound : Bound) : List Part :=
  [.bound bound]

mutual

def Value.components : Value → List Part
  | .constant n => [.value (.constant n)]
  | .availableMoney token account =>
    .value (.availableMoney token account) :: (token.components ++ account.components)
  | .arithmetic op lhs rhs => .value (.arithmetic op lhs rhs) :: (lhs.components ++ rhs.components)
  | .negate value => .value (.negate value) :: value.components
  | .choiceValue choice => .value (.choiceValue choice) :: choice.components
  | .timeStart => [.value .timeStart]
  | .timeEnd => [.value .timeEnd]
  | .useValue name => [.value (.useValue name)]
  | .conditional condition yes no =>
    .value (.conditional condition yes no) ::
      (condition.components ++ (yes.components ++ no.components))

def Observation.components : Observation → List Part
  | .literal value => [.observation (.literal value)]
  | .connective op lhs rhs =>
    .observation (.connective op lhs rhs) :: (lhs.components ++ rhs.components)
  | .not observation => .observation (.not observation) :: observation.components
  | .choseSomething choice => .observation (.choseSomething choice) :: choice.components
  | .comparison op lhs rhs =>
    .observation (.comparison op lhs rhs) :: (lhs.components ++ rhs.components)

end

def Action.components : Action → List Part
  | action@(.deposit party into token amount) =>
    .action action ::
      (party.components ++ (into.components ++ (token.components ++ amount.components)))
  | action@(.choice id bounds) =>
    .action action :: (id.components ++ bounds.flatMap Bound.components)
  | action@(.notify observation) => .action action :: observation.components

mutual

def Contract.components : Contract → List Part
  | .close => [.contract .close]
  | .pay source target token amount next =>
    .contract (.pay source target token amount next) :: (source.components ++ (target.components ++
      (token.components ++ (amount.components ++ next.components))))
  | .branch condition yes no =>
    .contract (.branch condition yes no) :: (condition.components ++ (yes.components ++ no.components))
  | .when cases timeout after =>
    .contract (.when cases timeout after) :: (Contract.casesComponents cases ++ after.components)
  | .define name value next => .contract (.define name value next) :: (value.components ++ next.components)
  | .assert observation next =>
    .contract (.assert observation next) :: (observation.components ++ next.components)

def Case.components : Case → List Part
  | .mk action next => .case (.mk action next) :: (action.components ++ next.components)

/-- The components of a list of cases, one case after the other. -/
def Contract.casesComponents : List Case → List Part
  | [] => []
  | case :: cases => case.components ++ Contract.casesComponents cases

end

def Part.components : Part → List Part
  | .contract c => c.components
  | .case c => c.components
  | .action a => a.components
  | .bound b => b.components
  | .choiceId i => i.components
  | .party p => p.components
  | .payee p => p.components
  | .token t => t.components
  | .value v => v.components
  | .observation o => o.components

/-- The parts that a content is made of. -/
def Content.inner : Content → List Part
  | .text _ | .number _ => []
  | .part p => [p]
  | .parts ps => ps

theorem Contract.casesComponents_eq (cases : List Case) :
    Contract.casesComponents cases = (cases.map Part.case).flatMap Part.components := by
  induction cases with
  | nil => rfl
  | cons case cases ih => rw [casesComponents, ih, List.map_cons, List.flatMap_cons, Part.components]

namespace Part

/-- The parts that stand directly inside a part. -/
def inner (part : Part) : List Part :=
  part.contents.flatMap Content.inner

/-- Beside itself, a part has the components of the parts inside it. -/
theorem components_eq (part : Part) : part.components = part :: part.inner.flatMap components := by
  cases part with
  | contract c =>
    cases c <;> simp [components, inner, contents, Contract.components, Content.inner,
      Contract.casesComponents_eq]
  | case c =>
    cases c
    simp [components, inner, contents, Case.components, Content.inner]
  | action a =>
    cases a <;> simp [components, inner, contents, Action.components, Content.inner, List.flatMap_map]
  | bound b => rfl
  | choiceId i => simp [components, inner, contents, ChoiceId.components, Content.inner]
  | party p => cases p <;> rfl
  | payee p => cases p <;> simp [components, inner, contents, Payee.components, Content.inner]
  | token t => rfl
  | value v => cases v <;> simp [components, inner, contents, Value.components, Content.inner]
  | observation o => cases o <;> simp [components, inner, contents, Observation.components, Content.inner]

theorem length_components_lt {part other : Part} (hinner : other ∈ part.inner) :
    other.components.length < part.components.length := by
  obtain ⟨before, after, hsplit⟩ := List.append_of_mem hinner
  rw [part.components_eq, hsplit, List.flatMap_append, List.flatMap_cons, List.length_cons,
    List.length_append, List.length_append]
  omega

/-- Induction over the parts of all categories at once: what holds of the parts inside a part holds of
    the part. -/
theorem induct_inner {motive : Part → Prop}
    (step : ∀ part, (∀ other ∈ part.inner, motive other) → motive part) (part : Part) : motive part :=
  step part fun other hinner =>
    have := length_components_lt hinner
    induct_inner step other
termination_by part.components.length

/-- The number of parts of a category in a part, itself included. -/
def tally (category : Category) (part : Part) : Nat :=
  part.components.countP fun component => component.category = category

/-- A part counts once, and so does everything inside it. -/
theorem tally_eq (category : Category) (part : Part) :
    part.tally category =
      (if part.category = category then 1 else 0) + (part.inner.map (tally category)).sum := by
  rw [tally, components_eq, List.countP_cons, List.countP_flatMap, Nat.add_comm]
  simp only [decide_eq_true_eq]
  rfl

end Part

namespace Contract

/-- Taking pending contracts one by one counts each of them and all that stands inside it. -/
theorem countPending_eq (counted : Nat) (pending : List Contract) :
    countPending counted pending = counted + countAll pending := by
  fun_induction countPending counted pending with
  | case1 counted => rfl
  | case2 counted c pending ih =>
    rw [ih, countAll_append, countAll_reverse, countAll, count_eq_continuations c]
    omega

theorem countAll_singleton (c : Contract) : countAll [c] = c.count :=
  rfl

theorem size_eq_count (c : Contract) : c.size = c.count := by
  rw [size, countPending_eq, countAll_singleton, Nat.zero_add]

theorem countAll_flatMap {α : Type} (f : α → List Contract) (items : List α) :
    countAll (items.flatMap f) = (items.map fun item => countAll (f item)).sum := by
  induction items with
  | nil => rfl
  | cons item items ih => rw [List.flatMap_cons, countAll_append, ih, List.map_cons, List.sum_cons]

end Contract

namespace Part

/-- The outermost contracts in a part. Of the parts that are not contracts, only cases have any. -/
def contracts : Part → List Contract
  | .contract c => [c]
  | .case c => [c.next]
  | _ => []

/-- The contracts that stand directly inside a contract are those it goes on with. -/
theorem flatMap_contracts_inner (part : Part) :
    part.inner.flatMap contracts =
      match part with
      | .contract c => c.continuations
      | part => part.contracts := by
  cases part with
  | contract c =>
    cases c with
    | when cases timeout after =>
      have hcases : (cases.map Part.case).flatMap contracts = cases.map Case.next := by
        rw [List.flatMap_map, List.map_eq_flatMap]
        rfl
      simp [inner, contents, Content.inner, contracts, Contract.continuations, hcases]
    | _ => rfl
  | case c =>
    cases c
    rfl
  | action a =>
    cases a <;> simp [inner, contents, Content.inner, contracts, List.flatMap_map]
  | bound b => rfl
  | choiceId i => rfl
  | party p => cases p <;> rfl
  | payee p => cases p <;> rfl
  | token t => rfl
  | value v => cases v <;> rfl
  | observation o => cases o <;> rfl

theorem tally_contract (part : Part) : part.tally .contract = Contract.countAll part.contracts := by
  induction part using induct_inner with
  | step part ih =>
    have hinner : (part.inner.map (tally .contract)).sum =
        Contract.countAll (part.inner.flatMap contracts) := by
      rw [Contract.countAll_flatMap, List.map_congr_left ih]
    rw [tally_eq, hinner, flatMap_contracts_inner]
    cases part with
    | contract c =>
      rw [contracts, Contract.countAll_singleton, Contract.count_eq_continuations]
      rfl
    | _ => exact Nat.zero_add _

end Part

/-- The size of a contract is the number of contracts among its components. -/
theorem Contract.size_eq_tally (c : Contract) : c.size = (Part.contract c).tally .contract := by
  rw [size_eq_count, Part.tally_contract, Part.contracts, countAll_singleton]

end ContractBlocks
