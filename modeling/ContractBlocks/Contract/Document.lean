import ContractBlocks.Contract.Basic
import ContractBlocks.Json.Print

namespace ContractBlocks

/-- The document of a participant. -/
def Party.toJson : Party → Json
  | .role name => .object [("role_token", .string name)]
  | .address text => .object [("address", .string text)]

/-- The document of who is paid. -/
def Payee.toJson : Payee → Json
  | .party p => .object [("party", p.toJson)]
  | .account p => .object [("account", p.toJson)]

/-- The document of a token. -/
def Token.toJson (token : Token) : Json :=
  .object [("currency_symbol", .string token.currency), ("token_name", .string token.name)]

/-- The document of a choice. -/
def ChoiceId.toJson (choice : ChoiceId) : Json :=
  .object [("choice_name", .string choice.name), ("choice_owner", choice.owner.toJson)]

/-- The document of a bound. -/
def Bound.toJson (bound : Bound) : Json :=
  .object [("from", .int64 bound.low), ("to", .int64 bound.high)]

/-- The keys of the two operands. -/
def Arithmetic.keys : Arithmetic → String × String
  | .add => ("add", "and")
  | .sub => ("value", "minus")
  | .mul => ("times", "multiply")
  | .div => ("divide", "by")

/-- The keys of the two operands. -/
def Connective.keys : Connective → String × String
  | .and => ("both", "and")
  | .or => ("either", "or")

namespace Comparison

/-- Every comparison. -/
def all : List Comparison :=
  [.ge, .gt, .lt, .le, .eq]

/-- The key of the second operand, which tells the comparisons apart. -/
def key : Comparison → String
  | .ge => "ge_than"
  | .gt => "gt"
  | .lt => "lt"
  | .le => "le_than"
  | .eq => "equal_to"

/-- The comparison whose second operand has that key. -/
def ofKey? (key : String) : Option Comparison :=
  all.find? fun op => op.key = key

end Comparison

mutual

/-- The document of a value. -/
def Value.toJson : Value → Json
  | .constant value => .int64 value
  | .availableMoney token account =>
    .object [("amount_of_token", token.toJson), ("in_account", account.toJson)]
  | .arithmetic op lhs rhs => .object [(op.keys.1, lhs.toJson), (op.keys.2, rhs.toJson)]
  | .negate value => .object [("negate", value.toJson)]
  | .choiceValue choice => .object [("value_of_choice", choice.toJson)]
  | .timeStart => .string "time_interval_start"
  | .timeEnd => .string "time_interval_end"
  | .useValue name => .object [("use_value", .string name)]
  | .conditional condition yes no =>
    .object [("if", condition.toJson), ("then", yes.toJson), ("else", no.toJson)]

/-- The document of an observation. -/
def Observation.toJson : Observation → Json
  | .literal value => .bool value
  | .connective op lhs rhs => .object [(op.keys.1, lhs.toJson), (op.keys.2, rhs.toJson)]
  | .not observation => .object [("not", observation.toJson)]
  | .choseSomething choice => .object [("chose_something_for", choice.toJson)]
  | .comparison op lhs rhs => .object [("value", lhs.toJson), (op.key, rhs.toJson)]

end

/-- The document of an action. -/
def Action.toJson : Action → Json
  | .deposit party into token amount =>
    .object [("party", party.toJson), ("of_token", token.toJson), ("into_account", into.toJson),
      ("deposits", amount.toJson)]
  | .choice id bounds =>
    .object [("for_choice", id.toJson), ("choose_between", .list (bounds.map Bound.toJson))]
  | .notify observation => .object [("notify_if", observation.toJson)]

mutual

/-- The document of a contract. -/
def Contract.toJson : Contract → Json
  | .close => .string "close"
  | .pay source target token amount next =>
    .object [("from_account", source.toJson), ("to", target.toJson), ("token", token.toJson),
      ("pay", amount.toJson), ("then", next.toJson)]
  | .branch condition yes no =>
    .object [("if", condition.toJson), ("then", yes.toJson), ("else", no.toJson)]
  | .when cases timeout after =>
    .object [("when", .list (Contract.casesToJson cases)), ("timeout", .int64 timeout),
      ("timeout_continuation", after.toJson)]
  | .define name value next =>
    .object [("let", .string name), ("be", value.toJson), ("then", next.toJson)]
  | .assert observation next =>
    .object [("assert", observation.toJson), ("then", next.toJson)]

/-- The document of a case. -/
def Case.toJson : Case → Json
  | .mk action next => .object [("case", action.toJson), ("then", next.toJson)]

/-- The documents of a list of cases. -/
def Contract.casesToJson : List Case → List Json
  | [] => []
  | c :: cases => c.toJson :: Contract.casesToJson cases

end

namespace Contract

/-- The text of a contract's document over several lines. -/
def pretty (c : Contract) : String :=
  c.toJson.pretty

/-- The text of a contract's document on one line. -/
def compact (c : Contract) : String :=
  c.toJson.compact

end Contract

end ContractBlocks
