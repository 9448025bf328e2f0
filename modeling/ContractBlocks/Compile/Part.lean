import ContractBlocks.Compile.Walk
import ContractBlocks.Contract.Basic

namespace ContractBlocks

namespace Source

/-- The kind of a block. -/
def kindOf (S : Source) (node : NodeId) : Walk Kind :=
  match S.kind node with
  | some kind => pure kind
  | none => .fail (.dangling node)

/-- The child in a slot that must be filled. -/
def childOf (S : Source) (node : NodeId) (kind : Kind) (slot : String) : Walk NodeId :=
  match S.slot node slot with
  | some child => pure child
  | none => .fail (.missingInput node kind slot)

/-- The value of a field that must be set. -/
def fieldOf (S : Source) (node : NodeId) (kind : Kind) (field : String) : Walk FieldValue :=
  match S.field node field with
  | some value => pure value
  | none => .fail (.missingField node kind field)

/-- A field as text. -/
def textOf (S : Source) (node : NodeId) (kind : Kind) (field : String) : Walk String := do
  let value ← S.fieldOf node kind field
  return value.asText

/-- A field as an integer. -/
def integerOf (S : Source) (node : NodeId) (kind : Kind) (field : String) : Walk Int64 := do
  let value ← S.fieldOf node kind field
  match value.asInteger? with
  | some n => pure n
  | none => .fail (.notInteger node kind field value.asText)

/-- The elements of the chain that starts in a slot. -/
def chainOf (S : Source) (node : NodeId) (slot : String) : Walk (List NodeId) :=
  .lift (S.chain (S.slot node slot))

end Source

/-- How to make the part of a contract that a block stands for, by the category of the part. -/
structure Parts where
  contract : NodeId → Walk Contract
  case : NodeId → Walk Case
  action : NodeId → Walk Action
  bound : NodeId → Walk Bound
  choiceId : NodeId → Walk ChoiceId
  party : NodeId → Walk Party
  payee : NodeId → Walk Payee
  token : NodeId → Walk Token
  value : NodeId → Walk Value
  observation : NodeId → Walk Observation

namespace Parts

/-- What stands below the deepest level that blocks can have without one being inside itself. -/
def exhausted : Parts where
  contract node := .fail (.cyclicSlot node)
  case node := .fail (.cyclicSlot node)
  action node := .fail (.cyclicSlot node)
  bound node := .fail (.cyclicSlot node)
  choiceId node := .fail (.cyclicSlot node)
  party node := .fail (.cyclicSlot node)
  payee node := .fail (.cyclicSlot node)
  token node := .fail (.cyclicSlot node)
  value node := .fail (.cyclicSlot node)
  observation node := .fail (.cyclicSlot node)

variable (S : Source) (inner : Parts)

/-- A contract, whose parts are made by `inner`. -/
def contractPart (node : NodeId) : Walk Contract := do
  match ← S.kindOf node with
  | .contract kind => .inside node do
    let child := S.childOf node (.contract kind)
    match kind with
    | .close => return .close
    | .pay =>
      let source ← inner.party (← child "FROM")
      let target ← inner.payee (← child "TO")
      let token ← inner.token (← child "TOKEN")
      let amount ← inner.value (← child "VALUE")
      let next ← inner.contract (← child "THEN")
      return .pay source target token amount next
    | .branch =>
      let condition ← inner.observation (← child "COND")
      let yes ← inner.contract (← child "THEN")
      let no ← inner.contract (← child "ELSE")
      return .branch condition yes no
    | .when =>
      let cases ← (← S.chainOf node "CASES").mapM inner.case
      let timeout ← S.integerOf node (.contract kind) "TIMEOUT"
      let after ← inner.contract (← child "TIMEOUT_CONT")
      return .when cases timeout after
    | .define =>
      let name ← S.textOf node (.contract kind) "NAME"
      let value ← inner.value (← child "VALUE")
      let next ← inner.contract (← child "THEN")
      return .define name value next
    | .assert =>
      let observation ← inner.observation (← child "OBS")
      let next ← inner.contract (← child "THEN")
      return .assert observation next
  | found => .fail (.wrongCategory node .contract found)

/-- A case, whose parts are made by `inner`. -/
def casePart (node : NodeId) : Walk Case := do
  match ← S.kindOf node with
  | .case => .inside node do
    let action ← inner.action (← S.childOf node .case "ACTION")
    let next ← inner.contract (← S.childOf node .case "THEN")
    return .mk action next
  | found => .fail (.wrongCategory node .case found)

/-- An action, whose parts are made by `inner`. -/
def actionPart (node : NodeId) : Walk Action := do
  match ← S.kindOf node with
  | .action kind => .inside node do
    let child := S.childOf node (.action kind)
    match kind with
    | .deposit =>
      let party ← inner.party (← child "PARTY")
      let into ← inner.party (← child "INTO")
      let token ← inner.token (← child "TOKEN")
      let amount ← inner.value (← child "AMOUNT")
      return .deposit party into token amount
    | .choice =>
      let id ← inner.choiceId (← child "CHOICE")
      let bounds ← (← S.chainOf node "BOUNDS").mapM inner.bound
      return .choice id bounds
    | .notify => return .notify (← inner.observation (← child "OBS"))
  | found => .fail (.wrongCategory node .action found)

/-- A bound. -/
def boundPart (node : NodeId) : Walk Bound := do
  match ← S.kindOf node with
  | .bound =>
    let low ← S.integerOf node .bound "FROM"
    let high ← S.integerOf node .bound "TO"
    return ⟨low, high⟩
  | found => .fail (.wrongCategory node .bound found)

/-- A choice, whose owner is made by `inner`. -/
def choiceIdPart (node : NodeId) : Walk ChoiceId := do
  match ← S.kindOf node with
  | .choiceId => .inside node do
    let name ← S.textOf node .choiceId "NAME"
    let owner ← inner.party (← S.childOf node .choiceId "OWNER")
    return ⟨name, owner⟩
  | found => .fail (.wrongCategory node .choiceId found)

/-- A participant. -/
def partyPart (node : NodeId) : Walk Party := do
  match ← S.kindOf node with
  | .party kind =>
    match kind with
    | .role => return .role (← S.textOf node (.party kind) "ROLE")
    | .address => return .address (← S.textOf node (.party kind) "ADDRESS")
  | found => .fail (.wrongCategory node .party found)

/-- Who is paid; the participant is made by `inner`. -/
def payeePart (node : NodeId) : Walk Payee := do
  match ← S.kindOf node with
  | .payee kind => .inside node do
    match kind with
    | .party => return .party (← inner.party (← S.childOf node (.payee kind) "PARTY"))
    | .account => return .account (← inner.party (← S.childOf node (.payee kind) "ACCOUNT"))
  | found => .fail (.wrongCategory node .payee found)

/-- A token. -/
def tokenPart (node : NodeId) : Walk Token := do
  match ← S.kindOf node with
  | .token =>
    let currency ← S.textOf node .token "CURRENCY"
    let name ← S.textOf node .token "NAME"
    return ⟨currency, name⟩
  | found => .fail (.wrongCategory node .token found)

/-- A value, whose parts are made by `inner`. -/
def valuePart (node : NodeId) : Walk Value := do
  match ← S.kindOf node with
  | .value kind => .inside node do
    let child := S.childOf node (.value kind)
    match kind with
    | .constant => return .constant (← S.integerOf node (.value kind) "VALUE")
    | .availableMoney =>
      let token ← inner.token (← child "TOKEN")
      let account ← inner.party (← child "PARTY")
      return .availableMoney token account
    | .arithmetic op =>
      let lhs ← inner.value (← child "LHS")
      let rhs ← inner.value (← child "RHS")
      return .arithmetic op lhs rhs
    | .negate => return .negate (← inner.value (← child "VALUE"))
    | .choiceValue => return .choiceValue (← inner.choiceId (← child "CHOICE"))
    | .timeStart => return .timeStart
    | .timeEnd => return .timeEnd
    | .useValue => return .useValue (← S.textOf node (.value kind) "NAME")
    | .conditional =>
      let condition ← inner.observation (← child "OBS")
      let yes ← inner.value (← child "THEN")
      let no ← inner.value (← child "ELSE")
      return .conditional condition yes no
  | found => .fail (.wrongCategory node .value found)

/-- An observation, whose parts are made by `inner`. -/
def observationPart (node : NodeId) : Walk Observation := do
  match ← S.kindOf node with
  | .observation kind => .inside node do
    let child := S.childOf node (.observation kind)
    match kind with
    | .literal value => return .literal value
    | .connective op =>
      let lhs ← inner.observation (← child "LHS")
      let rhs ← inner.observation (← child "RHS")
      return .connective op lhs rhs
    | .not => return .not (← inner.observation (← child "OBS"))
    | .choseSomething => return .choseSomething (← inner.choiceId (← child "CHOICE"))
    | .comparison op =>
      let lhs ← inner.value (← child "LHS")
      let rhs ← inner.value (← child "RHS")
      return .comparison op lhs rhs
  | found => .fail (.wrongCategory node .observation found)

/-- The parts whose own parts are made by `inner`. -/
def around : Parts where
  contract := contractPart S inner
  case := casePart S inner
  action := actionPart S inner
  bound := boundPart S
  choiceId := choiceIdPart S inner
  party := partyPart S
  payee := payeePart S inner
  token := tokenPart S
  value := valuePart S inner
  observation := observationPart S inner

/-- The parts that are at most `depth` levels deep. -/
def upTo (S : Source) : Nat → Parts
  | 0 => exhausted
  | depth + 1 => around S (upTo S depth)

end Parts

/-- The parts of all depths: blocks that are not inside themselves nest no deeper than there are
    blocks, and the block at fault or without children inside the deepest is one more level. -/
def Source.parts (S : Source) : Parts :=
  .upTo S (S.ids.length + 1)

end ContractBlocks
