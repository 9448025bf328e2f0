import ContractBlocks.Operator

namespace ContractBlocks

/-- A participant of a contract. -/
inductive Party
  | role (name : String)
  | address (address : String)
deriving DecidableEq, Repr

/-- Who is paid: a participant, or an account that the contract keeps for one. -/
inductive Payee
  | party (party : Party)
  | account (party : Party)
deriving DecidableEq, Repr

/-- What is paid in. -/
structure Token where
  currency : String
  name : String
deriving DecidableEq, Repr

/-- A choice that a participant makes. -/
structure ChoiceId where
  name : String
  owner : Party
deriving DecidableEq, Repr

/-- The values that a choice may take, both ends included. -/
structure Bound where
  low : Int64
  high : Int64
deriving DecidableEq, Repr

mutual

/-- A number that is known when the contract runs. -/
inductive Value
  | constant (value : Int64)
  | availableMoney (token : Token) (account : Party)
  | arithmetic (op : Arithmetic) (lhs rhs : Value)
  | negate (value : Value)
  | choiceValue (choice : ChoiceId)
  | timeStart
  | timeEnd
  | useValue (name : String)
  | conditional (condition : Observation) (yes no : Value)
deriving DecidableEq, Repr

/-- A truth that is known when the contract runs. -/
inductive Observation
  | literal (value : Bool)
  | connective (op : Connective) (lhs rhs : Observation)
  | not (observation : Observation)
  | choseSomething (choice : ChoiceId)
  | comparison (op : Comparison) (lhs rhs : Value)
deriving DecidableEq, Repr

end

/-- What a contract can wait for. -/
inductive Action
  | deposit (party into : Party) (token : Token) (amount : Value)
  | choice (id : ChoiceId) (bounds : List Bound)
  | notify (observation : Observation)
deriving DecidableEq, Repr

mutual

/-- A contract. -/
inductive Contract
  | close
  | pay (source : Party) (target : Payee) (token : Token) (amount : Value) (next : Contract)
  | branch (condition : Observation) (yes no : Contract)
  | when (cases : List Case) (timeout : Int64) (after : Contract)
  | define (name : String) (value : Value) (next : Contract)
  | assert (observation : Observation) (next : Contract)

/-- What happens once an action has been taken. -/
inductive Case
  | mk (action : Action) (next : Contract)

end

namespace Case

/-- The action that the case waits for. -/
def action : Case → Action
  | .mk action _ => action

/-- The contract that follows. -/
def next : Case → Contract
  | .mk _ next => next

end Case

mutual

/-- Decides whether two contracts are equal. -/
def Contract.decEq : (a b : Contract) → Decidable (a = b)
  | .close, .close => isTrue rfl
  | .pay s t k v n, .pay s' t' k' v' n' =>
    have := Contract.decEq n n'
    decidable_of_iff (s = s' ∧ t = t' ∧ k = k' ∧ v = v' ∧ n = n') (by simp)
  | .branch c y n, .branch c' y' n' =>
    have := Contract.decEq y y'
    have := Contract.decEq n n'
    decidable_of_iff (c = c' ∧ y = y' ∧ n = n') (by simp)
  | .when cs t n, .when cs' t' n' =>
    have := Contract.decEqCases cs cs'
    have := Contract.decEq n n'
    decidable_of_iff (cs = cs' ∧ t = t' ∧ n = n') (by simp)
  | .define x v n, .define x' v' n' =>
    have := Contract.decEq n n'
    decidable_of_iff (x = x' ∧ v = v' ∧ n = n') (by simp)
  | .assert o n, .assert o' n' =>
    have := Contract.decEq n n'
    decidable_of_iff (o = o' ∧ n = n') (by simp)
  | .close, .pay .. | .close, .branch .. | .close, .when .. | .close, .define .. | .close, .assert ..
  | .pay .., .close | .pay .., .branch .. | .pay .., .when .. | .pay .., .define ..
  | .pay .., .assert .. | .branch .., .close | .branch .., .pay .. | .branch .., .when ..
  | .branch .., .define .. | .branch .., .assert .. | .when .., .close | .when .., .pay ..
  | .when .., .branch .. | .when .., .define .. | .when .., .assert .. | .define .., .close
  | .define .., .pay .. | .define .., .branch .. | .define .., .when .. | .define .., .assert ..
  | .assert .., .close | .assert .., .pay .. | .assert .., .branch .. | .assert .., .when ..
  | .assert .., .define .. => isFalse nofun

/-- Decides whether two lists of cases are equal. -/
def Contract.decEqCases : (a b : List Case) → Decidable (a = b)
  | [], [] => isTrue rfl
  | .mk x n :: cs, .mk x' n' :: cs' =>
    have := Contract.decEq n n'
    have := Contract.decEqCases cs cs'
    decidable_of_iff ((x = x' ∧ n = n') ∧ cs = cs') (by simp)
  | [], _ :: _ | _ :: _, [] => isFalse nofun

end

instance : DecidableEq Contract :=
  Contract.decEq

end ContractBlocks
