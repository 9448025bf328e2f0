import ContractBlocks.Operator

namespace ContractBlocks

/-- What a block produces. A slot takes the blocks of one category. -/
inductive Category
  | root
  | contract
  | case
  | action
  | bound
  | choiceId
  | party
  | payee
  | token
  | value
  | observation
deriving DecidableEq, Repr

namespace Category

/-- Every category, in the order of the grammar. -/
def all : List Category :=
  [.root, .contract, .case, .action, .bound, .choiceId, .party, .payee, .token, .value, .observation]

/-- The name of a category in messages and documents. -/
def name : Category → String
  | .root => "Root"
  | .contract => "Contract"
  | .case => "Case"
  | .action => "Action"
  | .bound => "Bound"
  | .choiceId => "ChoiceId"
  | .party => "Party"
  | .payee => "Payee"
  | .token => "Token"
  | .value => "Value"
  | .observation => "Observation"

/-- The category of that name. -/
def ofName? (name : String) : Option Category :=
  all.find? fun category => category.name = name

end Category

inductive ContractKind
  | close
  | pay
  | branch
  | when
  | define
  | assert
deriving DecidableEq, Repr

inductive ActionKind
  | deposit
  | choice
  | notify
deriving DecidableEq, Repr

inductive PartyKind
  | role
  | address
deriving DecidableEq, Repr

inductive PayeeKind
  | party
  | account
deriving DecidableEq, Repr

inductive ValueKind
  | constant
  | availableMoney
  | arithmetic (op : Arithmetic)
  | negate
  | choiceValue
  | timeStart
  | timeEnd
  | useValue
  | conditional
deriving DecidableEq, Repr

inductive ObservationKind
  | literal (value : Bool)
  | connective (op : Connective)
  | not
  | choseSomething
  | comparison (op : Comparison)
deriving DecidableEq, Repr

/-- The kind of a block. The kinds are grouped by what they produce, so a reader of one category sees
    only its own. -/
inductive Kind
  | root
  | contract (kind : ContractKind)
  | case
  | action (kind : ActionKind)
  | bound
  | choiceId
  | party (kind : PartyKind)
  | payee (kind : PayeeKind)
  | token
  | value (kind : ValueKind)
  | observation (kind : ObservationKind)
deriving DecidableEq, Repr

namespace Kind

/-- The category that a kind produces. -/
def category : Kind → Category
  | .root => .root
  | .contract _ => .contract
  | .case => .case
  | .action _ => .action
  | .bound => .bound
  | .choiceId => .choiceId
  | .party _ => .party
  | .payee _ => .payee
  | .token => .token
  | .value _ => .value
  | .observation _ => .observation

/-- Every kind, in the order of the grammar. -/
def all : List Kind :=
  [.root,
    .contract .close, .contract .pay, .contract .branch, .contract .when, .contract .define,
    .contract .assert,
    .case,
    .action .deposit, .action .choice, .action .notify,
    .bound,
    .choiceId,
    .party .role, .party .address,
    .payee .party, .payee .account,
    .token,
    .value .constant, .value .availableMoney, .value (.arithmetic .add), .value (.arithmetic .sub),
    .value (.arithmetic .mul), .value (.arithmetic .div), .value .negate, .value .choiceValue,
    .value .timeStart, .value .timeEnd, .value .useValue, .value .conditional,
    .observation (.literal true), .observation (.literal false), .observation (.connective .and),
    .observation (.connective .or), .observation .not, .observation .choseSomething,
    .observation (.comparison .ge), .observation (.comparison .gt), .observation (.comparison .lt),
    .observation (.comparison .le), .observation (.comparison .eq)]

/-- The kinds of a category, in the order of the grammar. -/
def ofCategory (category : Category) : List Kind :=
  all.filter fun kind => kind.category = category

end Kind

end ContractBlocks
