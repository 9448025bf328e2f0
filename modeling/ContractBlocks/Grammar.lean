import ContractBlocks.Json.Record
import ContractBlocks.Kind

namespace ContractBlocks

/-- A place on a block for a child of one category. Only the first place of a chain may stay empty. -/
structure Slot where
  name : String
  category : Category
  required : Bool
deriving DecidableEq, Repr

/-- What a field is meant to hold. -/
inductive FieldType
  | text
  | number
deriving DecidableEq, Repr

/-- A place on a block for a number or a text. -/
structure FieldSlot where
  name : String
  type : FieldType
deriving DecidableEq, Repr

/-- The part that a kind takes in chains: none, an element that can have a successor, or the owner of
    the slot that holds the first element. -/
inductive ChainRole
  | none
  | link
  | holder (slot : String) (inner : Category)
deriving DecidableEq, Repr

/-- What the grammar says of a kind. -/
structure Rule where
  tag : String
  slots : List Slot
  fields : List FieldSlot
  chain : ChainRole
deriving DecidableEq, Repr

namespace Grammar

/-- A slot that must be filled. -/
def slot (name : String) (category : Category) : Slot :=
  ⟨name, category, true⟩

/-- A slot that holds the first element of a chain, which may be empty. -/
def chainSlot (name : String) (category : Category) : Slot :=
  ⟨name, category, false⟩

/-- The slots of a binary operation. -/
def operands (category : Category) : List Slot :=
  [slot "LHS" category, slot "RHS" category]

/-- The rule of a kind that takes no part in chains. -/
def plain (tag : String) (slots : List Slot) (fields : List FieldSlot) : Rule :=
  ⟨tag, slots, fields, .none⟩

def contract : ContractKind → Rule
  | .close => plain "contract_close" [] []
  | .pay =>
    plain "contract_pay"
      [slot "FROM" .party, slot "TO" .payee, slot "TOKEN" .token, slot "VALUE" .value,
        slot "THEN" .contract] []
  | .branch =>
    plain "contract_if" [slot "COND" .observation, slot "THEN" .contract, slot "ELSE" .contract] []
  | .when =>
    ⟨"contract_when", [chainSlot "CASES" .case, slot "TIMEOUT_CONT" .contract],
      [⟨"TIMEOUT", .number⟩], .holder "CASES" .case⟩
  | .define =>
    plain "contract_let" [slot "VALUE" .value, slot "THEN" .contract] [⟨"NAME", .text⟩]
  | .assert => plain "contract_assert" [slot "OBS" .observation, slot "THEN" .contract] []

def action : ActionKind → Rule
  | .deposit =>
    plain "action_deposit"
      [slot "PARTY" .party, slot "INTO" .party, slot "TOKEN" .token, slot "AMOUNT" .value] []
  | .choice =>
    ⟨"action_choice", [slot "CHOICE" .choiceId, chainSlot "BOUNDS" .bound], [],
      .holder "BOUNDS" .bound⟩
  | .notify => plain "action_notify" [slot "OBS" .observation] []

def party : PartyKind → Rule
  | .role => plain "party_role" [] [⟨"ROLE", .text⟩]
  | .address => plain "party_address" [] [⟨"ADDRESS", .text⟩]

def payee : PayeeKind → Rule
  | .party => plain "payee_party" [slot "PARTY" .party] []
  | .account => plain "payee_account" [slot "ACCOUNT" .party] []

def value : ValueKind → Rule
  | .constant => plain "value_constant" [] [⟨"VALUE", .number⟩]
  | .availableMoney =>
    plain "value_available_money" [slot "TOKEN" .token, slot "PARTY" .party] []
  | .arithmetic .add => plain "value_add" (operands .value) []
  | .arithmetic .sub => plain "value_sub" (operands .value) []
  | .arithmetic .mul => plain "value_mul" (operands .value) []
  | .arithmetic .div => plain "value_div" (operands .value) []
  | .negate => plain "value_negate" [slot "VALUE" .value] []
  | .choiceValue => plain "value_choice_value" [slot "CHOICE" .choiceId] []
  | .timeStart => plain "value_time_start" [] []
  | .timeEnd => plain "value_time_end" [] []
  | .useValue => plain "value_use_value" [] [⟨"NAME", .text⟩]
  | .conditional =>
    plain "value_cond" [slot "OBS" .observation, slot "THEN" .value, slot "ELSE" .value] []

def observation : ObservationKind → Rule
  | .literal true => plain "obs_true" [] []
  | .literal false => plain "obs_false" [] []
  | .connective .and => plain "obs_and" (operands .observation) []
  | .connective .or => plain "obs_or" (operands .observation) []
  | .not => plain "obs_not" [slot "OBS" .observation] []
  | .choseSomething => plain "obs_chose_something" [slot "CHOICE" .choiceId] []
  | .comparison .ge => plain "obs_ge" (operands .value) []
  | .comparison .gt => plain "obs_gt" (operands .value) []
  | .comparison .lt => plain "obs_lt" (operands .value) []
  | .comparison .le => plain "obs_le" (operands .value) []
  | .comparison .eq => plain "obs_eq" (operands .value) []

end Grammar

namespace Kind

/-- The rule of a kind. -/
def rule : Kind → Rule
  | .root => Grammar.plain "contract_root" [Grammar.slot "CONTRACT" .contract] []
  | .contract kind => Grammar.contract kind
  | .case =>
    ⟨"case_block", [Grammar.slot "ACTION" .action, Grammar.slot "THEN" .contract], [], .link⟩
  | .action kind => Grammar.action kind
  | .bound => ⟨"bound_block", [], [⟨"FROM", .number⟩, ⟨"TO", .number⟩], .link⟩
  | .choiceId => Grammar.plain "choice_id" [Grammar.slot "OWNER" .party] [⟨"NAME", .text⟩]
  | .party kind => Grammar.party kind
  | .payee kind => Grammar.payee kind
  | .token => Grammar.plain "token_block" [] [⟨"CURRENCY", .text⟩, ⟨"NAME", .text⟩]
  | .value kind => Grammar.value kind
  | .observation kind => Grammar.observation kind

/-- The name of a kind in workspaces, documents and messages. -/
def tag (kind : Kind) : String :=
  kind.rule.tag

/-- The kind with that tag. -/
def ofTag? (tag : String) : Option Kind :=
  all.find? fun kind => kind.tag = tag

/-- The slot of that name, if the kind has one. -/
def slot? (kind : Kind) (name : String) : Option Slot :=
  kind.rule.slots.find? fun slot => slot.name = name

/-- The field of that name, if the kind has one. -/
def field? (kind : Kind) (name : String) : Option FieldSlot :=
  kind.rule.fields.find? fun field => field.name = name

/-- Whether blocks of the kind can have a successor in a chain. -/
def isLink (kind : Kind) : Bool :=
  kind.rule.chain = .link

end Kind

namespace FieldType

def name : FieldType → String
  | .text => "Text"
  | .number => "Number"

end FieldType

namespace Grammar

/-- Reads a text that holds the name of a category. -/
def readCategory (text : String) : Except Json.Fault Category :=
  Json.Outline.readText
    (Json.Outline.readVariant
      (fun name =>
        match Category.ofName? name with
        | some category => .ok category
        | none => .error (.unknownVariant name (Category.all.map Category.name)))
      (fun category content => do
        Json.Outline.readNothing content
        return category))
    text

/-- The description of a slot. -/
def slotJson (slot : Slot) : Json :=
  .object [("name", .string slot.name), ("category", .string slot.category.name),
    ("required", .bool slot.required)]

/-- The description of a field. -/
def fieldJson (field : FieldSlot) : Json :=
  .object [("name", .string field.name), ("type", .string field.type.name)]

/-- The description of a part in chains. -/
def chainJson : ChainRole → Json
  | .none => .string "None"
  | .link => .string "Link"
  | .holder slot inner =>
    .object [("Holder", .object [("slot", .string slot), ("inner", .string inner.name)])]

/-- The description of a kind. -/
def kindJson (kind : Kind) : Json :=
  .object [("kind", .string kind.tag), ("tag", .string kind.tag),
    ("slots", .list (kind.rule.slots.map slotJson)),
    ("fields", .list (kind.rule.fields.map fieldJson)), ("chain", chainJson kind.rule.chain)]

/-- The description of the whole grammar. -/
def json : Json :=
  .list (Kind.all.map kindJson)

end Grammar

end ContractBlocks
