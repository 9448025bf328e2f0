import ContractBlocks.Contract.Basic
import ContractBlocks.Contract.Document
import ContractBlocks.Contract.Form
import ContractBlocks.Json.Decode

namespace ContractBlocks.Document

open Json (Fallback Path shape)

/-- Reads a string. -/
def readString (path : Path) : Json → Except Unrecognized String
  | .string s => .ok s
  | other => .error ⟨.string, path, other⟩

/-- Reads an integer of 64 bits, which must be written as one. -/
def readInteger (path : Path) (json : Json) : Except Unrecognized Int64 :=
  match json with
  | .number n =>
    match n.int64? with
    | some value => .ok value
    | none => .error ⟨.integer, path, json⟩
  | other => .error ⟨.integer, path, other⟩

/-- Reads the items of a list from the given place on. -/
def readItems {α : Type} (read : Path → Json → Except Unrecognized α) (path : Path) (place : Nat) :
    List Json → Except Unrecognized (List α)
  | [] => .ok []
  | item :: items => do
    let item ← read (path ++ [.index place]) item
    return item :: (← readItems read path (place + 1) items)

/-- Reads a list. -/
def readList {α : Type} (read : Path → Json → Except Unrecognized α) (path : Path) :
    Json → Except Unrecognized (List α)
  | .list items => readItems read path 0 items
  | other => .error ⟨.list, path, other⟩

/-- Reads a participant. -/
def readParty (fallback : Fallback) (path : Path) : Json → Except Unrecognized Party
  | .object entries =>
    match partyForms.find? (shape entries) with
    | some .role =>
      .role <$> readString (path ++ [.key "role_token"]) (fallback.get entries "role_token")
    | some .address => .address <$> readString (path ++ [.key "address"]) (fallback.get entries "address")
    | none => .error ⟨.party, path, .object entries⟩
  | other => .error ⟨.party, path, other⟩

/-- Reads who is paid. -/
def readPayee (fallback : Fallback) (path : Path) : Json → Except Unrecognized Payee
  | .object entries =>
    match payeeForms.find? (shape entries) with
    | some .party => .party <$> readParty fallback (path ++ [.key "party"]) (fallback.get entries "party")
    | some .account =>
      .account <$> readParty fallback (path ++ [.key "account"]) (fallback.get entries "account")
    | none => .error ⟨.payee, path, .object entries⟩
  | other => .error ⟨.payee, path, other⟩

/-- Reads a token. -/
def readToken (fallback : Fallback) (path : Path) : Json → Except Unrecognized Token
  | .object entries =>
    if shape entries = ["currency_symbol", "token_name"] then do
      let currency ← readString (path ++ [.key "currency_symbol"]) (fallback.get entries "currency_symbol")
      let name ← readString (path ++ [.key "token_name"]) (fallback.get entries "token_name")
      return ⟨currency, name⟩
    else .error ⟨.token, path, .object entries⟩
  | other => .error ⟨.token, path, other⟩

/-- Reads a choice. -/
def readChoiceId (fallback : Fallback) (path : Path) : Json → Except Unrecognized ChoiceId
  | .object entries =>
    if shape entries = ["choice_name", "choice_owner"] then do
      let name ← readString (path ++ [.key "choice_name"]) (fallback.get entries "choice_name")
      let owner ← readParty fallback (path ++ [.key "choice_owner"]) (fallback.get entries "choice_owner")
      return ⟨name, owner⟩
    else .error ⟨.choiceId, path, .object entries⟩
  | other => .error ⟨.choiceId, path, other⟩

/-- Reads a bound. -/
def readBound (fallback : Fallback) (path : Path) : Json → Except Unrecognized Bound
  | .object entries =>
    if shape entries = ["from", "to"] then do
      let low ← readInteger (path ++ [.key "from"]) (fallback.get entries "from")
      let high ← readInteger (path ++ [.key "to"]) (fallback.get entries "to")
      return ⟨low, high⟩
    else .error ⟨.bound, path, .object entries⟩
  | other => .error ⟨.bound, path, other⟩

mutual

/-- Reads a value. -/
def readValue (fallback : Fallback) (path : Path) (json : Json) : Except Unrecognized Value :=
  match json with
  | .number n => .constant <$> readInteger path (.number n)
  | .string s =>
    if s = "time_interval_start" then .ok .timeStart
    else if s = "time_interval_end" then .ok .timeEnd
    else .error ⟨.value, path, .string s⟩
  | .object entries =>
    match valueForms.find? (shape entries) with
    | some .availableMoney => do
      let token ← readToken fallback (path ++ [.key "amount_of_token"]) (fallback.get entries "amount_of_token")
      let account ← readParty fallback (path ++ [.key "in_account"]) (fallback.get entries "in_account")
      return .availableMoney token account
    | some (.arithmetic op) => do
      let lhs ← readValue fallback (path ++ [.key op.keys.1]) (fallback.get entries op.keys.1)
      let rhs ← readValue fallback (path ++ [.key op.keys.2]) (fallback.get entries op.keys.2)
      return .arithmetic op lhs rhs
    | some .negate =>
      .negate <$> readValue fallback (path ++ [.key "negate"]) (fallback.get entries "negate")
    | some .choiceValue =>
      .choiceValue <$> readChoiceId fallback (path ++ [.key "value_of_choice"]) (fallback.get entries "value_of_choice")
    | some .useValue => .useValue <$> readString (path ++ [.key "use_value"]) (fallback.get entries "use_value")
    | some .conditional => do
      let condition ← readObservation fallback (path ++ [.key "if"]) (fallback.get entries "if")
      let yes ← readValue fallback (path ++ [.key "then"]) (fallback.get entries "then")
      let no ← readValue fallback (path ++ [.key "else"]) (fallback.get entries "else")
      return .conditional condition yes no
    | _ => .error ⟨.value, path, .object entries⟩
  | other => .error ⟨.value, path, other⟩
termination_by json.size
decreasing_by all_goals exact fallback.size_get_lt entries _

/-- Reads an observation. -/
def readObservation (fallback : Fallback) (path : Path) (json : Json) : Except Unrecognized Observation :=
  match json with
  | .bool value => .ok (.literal value)
  | .object entries =>
    match observationForm? (shape entries) with
    | some (.connective op) => do
      let lhs ← readObservation fallback (path ++ [.key op.keys.1]) (fallback.get entries op.keys.1)
      let rhs ← readObservation fallback (path ++ [.key op.keys.2]) (fallback.get entries op.keys.2)
      return .connective op lhs rhs
    | some .not => .not <$> readObservation fallback (path ++ [.key "not"]) (fallback.get entries "not")
    | some .choseSomething =>
      .choseSomething <$>
        readChoiceId fallback (path ++ [.key "chose_something_for"]) (fallback.get entries "chose_something_for")
    | some (.comparison op) => do
      let lhs ← readValue fallback (path ++ [.key "value"]) (fallback.get entries "value")
      let rhs ← readValue fallback (path ++ [.key op.key]) (fallback.get entries op.key)
      return .comparison op lhs rhs
    | _ => .error ⟨.observation, path, .object entries⟩
  | other => .error ⟨.observation, path, other⟩
termination_by json.size
decreasing_by all_goals exact fallback.size_get_lt entries _

end

/-- Reads an action. -/
def readAction (fallback : Fallback) (path : Path) : Json → Except Unrecognized Action
  | .object entries =>
    match actionForms.find? (shape entries) with
    | some .deposit => do
      let party ← readParty fallback (path ++ [.key "party"]) (fallback.get entries "party")
      let into ← readParty fallback (path ++ [.key "into_account"]) (fallback.get entries "into_account")
      let token ← readToken fallback (path ++ [.key "of_token"]) (fallback.get entries "of_token")
      let amount ← readValue fallback (path ++ [.key "deposits"]) (fallback.get entries "deposits")
      return .deposit party into token amount
    | some .choice => do
      let id ← readChoiceId fallback (path ++ [.key "for_choice"]) (fallback.get entries "for_choice")
      let bounds ←
        readList (readBound fallback) (path ++ [.key "choose_between"]) (fallback.get entries "choose_between")
      return .choice id bounds
    | some .notify =>
      .notify <$> readObservation fallback (path ++ [.key "notify_if"]) (fallback.get entries "notify_if")
    | none => .error ⟨.action, path, .object entries⟩
  | other => .error ⟨.action, path, other⟩

mutual

/-- Reads a contract. -/
def readContract (fallback : Fallback) (path : Path) (json : Json) : Except Unrecognized Contract :=
  match json with
  | .string s => if s = "close" then .ok .close else .error ⟨.contract, path, .string s⟩
  | .object entries =>
    match contractForms.find? (shape entries) with
    | some .pay => do
      let source ← readParty fallback (path ++ [.key "from_account"]) (fallback.get entries "from_account")
      let target ← readPayee fallback (path ++ [.key "to"]) (fallback.get entries "to")
      let token ← readToken fallback (path ++ [.key "token"]) (fallback.get entries "token")
      let amount ← readValue fallback (path ++ [.key "pay"]) (fallback.get entries "pay")
      let next ← readContract fallback (path ++ [.key "then"]) (fallback.get entries "then")
      return .pay source target token amount next
    | some .branch => do
      let condition ← readObservation fallback (path ++ [.key "if"]) (fallback.get entries "if")
      let yes ← readContract fallback (path ++ [.key "then"]) (fallback.get entries "then")
      let no ← readContract fallback (path ++ [.key "else"]) (fallback.get entries "else")
      return .branch condition yes no
    | some .when => do
      let cases ← readCases fallback (path ++ [.key "when"]) (fallback.get entries "when")
      let timeout ← readInteger (path ++ [.key "timeout"]) (fallback.get entries "timeout")
      let after ←
        readContract fallback (path ++ [.key "timeout_continuation"]) (fallback.get entries "timeout_continuation")
      return .when cases timeout after
    | some .define => do
      let name ← readString (path ++ [.key "let"]) (fallback.get entries "let")
      let value ← readValue fallback (path ++ [.key "be"]) (fallback.get entries "be")
      let next ← readContract fallback (path ++ [.key "then"]) (fallback.get entries "then")
      return .define name value next
    | some .assert => do
      let observation ← readObservation fallback (path ++ [.key "assert"]) (fallback.get entries "assert")
      let next ← readContract fallback (path ++ [.key "then"]) (fallback.get entries "then")
      return .assert observation next
    | _ => .error ⟨.contract, path, .object entries⟩
  | other => .error ⟨.contract, path, other⟩
termination_by json.size
decreasing_by all_goals exact fallback.size_get_lt entries _

/-- Reads a case. -/
def readCase (fallback : Fallback) (path : Path) (json : Json) : Except Unrecognized Case :=
  match json with
  | .object entries =>
    if shape entries = ["case", "then"] then do
      let action ← readAction fallback (path ++ [.key "case"]) (fallback.get entries "case")
      let next ← readContract fallback (path ++ [.key "then"]) (fallback.get entries "then")
      return .mk action next
    else .error ⟨.case, path, .object entries⟩
  | other => .error ⟨.case, path, other⟩
termination_by json.size
decreasing_by exact fallback.size_get_lt entries _

/-- Reads a list of cases. -/
def readCases (fallback : Fallback) (path : Path) (json : Json) : Except Unrecognized (List Case) :=
  match json with
  | .list items => readCasesFrom fallback path 0 items
  | other => .error ⟨.list, path, other⟩
termination_by json.size
decreasing_by exact Nat.lt_succ_self _

/-- Reads the cases of a list from the given place on. -/
def readCasesFrom (fallback : Fallback) (path : Path) (place : Nat) (items : List Json) :
    Except Unrecognized (List Case) :=
  match items with
  | [] => .ok []
  | item :: items => do
    let item ← readCase fallback (path ++ [.index place]) item
    return item :: (← readCasesFrom fallback path (place + 1) items)
termination_by Json.sizeItems items
decreasing_by all_goals rw [Json.sizeItems]; omega

end

/-- Why a text is not the document of a contract. -/
inductive ReadFault
  | json (fault : Json.Fault)
  | unrecognized (fault : Unrecognized)

/-- The text of the fault. -/
def ReadFault.message : ReadFault → String
  | .json fault => "invalid JSON: " ++ fault.message
  | .unrecognized fault => fault.message

/-- Reads the document of a contract. -/
def read (json : Json) : Except Unrecognized Contract :=
  readContract .null [] json

/-- Reads a text that holds the document of a contract. -/
def readText (text : String) : Except ReadFault Contract :=
  match Json.Outline.readText Json.Outline.readJson text with
  | .error fault => .error (.json fault)
  | .ok json =>
    match read json with
    | .error fault => .error (.unrecognized fault)
    | .ok contract => .ok contract

end ContractBlocks.Document
