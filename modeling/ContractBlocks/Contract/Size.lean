import ContractBlocks.Contract.Basic

namespace ContractBlocks.Contract

/-- The contracts that stand directly inside a contract. -/
def continuations : Contract → List Contract
  | .close => []
  | .pay _ _ _ _ next | .define _ _ next | .assert _ next => [next]
  | .branch _ yes no => [yes, no]
  | .when cases _ after => cases.map Case.next ++ [after]

mutual

/-- The number of contracts in a contract, itself included. -/
def count : Contract → Nat
  | .close => 1
  | .pay _ _ _ _ next | .define _ _ next | .assert _ next => 1 + count next
  | .branch _ yes no => 1 + (count yes + count no)
  | .when cases _ after => 1 + (countCases cases + count after)

/-- The number of contracts in a list of cases. -/
def countCases : List Case → Nat
  | [] => 0
  | .mk _ next :: cases => count next + countCases cases

end

/-- The number of contracts in a list of contracts. -/
def countAll : List Contract → Nat
  | [] => 0
  | c :: cs => count c + countAll cs

theorem countAll_append (cs ds : List Contract) : countAll (cs ++ ds) = countAll cs + countAll ds := by
  induction cs with
  | nil => simp [countAll]
  | cons c cs ih => simp [countAll, ih, Nat.add_assoc]

theorem countAll_reverse (cs : List Contract) : countAll cs.reverse = countAll cs := by
  induction cs with
  | nil => rfl
  | cons c cs ih => simp [countAll, countAll_append, ih, Nat.add_comm]

theorem countCases_eq_countAll (cases : List Case) :
    countCases cases = countAll (cases.map Case.next) := by
  induction cases with
  | nil => rfl
  | cons c cases ih =>
    cases c
    simp [countCases, countAll, Case.next, ih]

/-- A contract counts once, and so does everything inside it. -/
theorem count_eq_continuations (c : Contract) : c.count = 1 + countAll c.continuations := by
  cases c <;> simp [count, continuations, countAll, countAll_append, countCases_eq_countAll]

/-- Counts the pending contracts and all that stands inside them. The list is a stack with its top at
    the front. What stands inside a contract is pushed in its order, so that the last of it is taken
    next. -/
def countPending (counted : Nat) (pending : List Contract) : Nat :=
  match pending with
  | [] => counted
  | c :: pending => countPending (counted + 1) (c.continuations.reverse ++ pending)
termination_by countAll pending
decreasing_by
  have hcount := count_eq_continuations c
  simp only [countAll_append, countAll_reverse, countAll]
  omega

/-- The number of contracts in a contract, found by taking pending contracts one by one. -/
def size (c : Contract) : Nat :=
  countPending 0 [c]

end ContractBlocks.Contract
