import ContractBlocks.Contract.Document
import ContractBlocks.Json.Shape
import ContractBlocks.Kind

namespace ContractBlocks.Document

/-- What a place in a document is meant to hold. -/
inductive Expected
  | contract
  | case
  | action
  | bound
  | choiceId
  | party
  | payee
  | token
  | value
  | observation
  | list
  | string
  | integer
deriving DecidableEq, Repr

/-- How messages name what is expected. -/
def Expected.text : Expected → String
  | .contract => "contract"
  | .case => "case"
  | .action => "action"
  | .bound => "bound"
  | .choiceId => "choice id"
  | .party => "party"
  | .payee => "payee"
  | .token => "token"
  | .value => "value"
  | .observation => "observation"
  | .list => "list"
  | .string => "string"
  | .integer => "integer"

/-- The forms of the parts of one category that are written as objects, each with its keys in
    ascending order. An object is of a form when its keys are exactly these. -/
abbrev Forms (κ : Type) := List (κ × List String)

/-- The form of an object with these keys, which are in ascending order. -/
def Forms.find? {κ : Type} (forms : Forms κ) (keys : List String) : Option κ :=
  (List.find? (fun form => form.2 = keys) forms).map Prod.fst

def contractForms : Forms ContractKind :=
  [(.pay, ["from_account", "pay", "then", "to", "token"]),
    (.branch, ["else", "if", "then"]),
    (.when, ["timeout", "timeout_continuation", "when"]),
    (.define, ["be", "let", "then"]),
    (.assert, ["assert", "then"])]

def actionForms : Forms ActionKind :=
  [(.deposit, ["deposits", "into_account", "of_token", "party"]),
    (.choice, ["choose_between", "for_choice"]),
    (.notify, ["notify_if"])]

def partyForms : Forms PartyKind :=
  [(.role, ["role_token"]), (.address, ["address"])]

def payeeForms : Forms PayeeKind :=
  [(.party, ["party"]), (.account, ["account"])]

def valueForms : Forms ValueKind :=
  [(.availableMoney, ["amount_of_token", "in_account"]),
    (.arithmetic .add, ["add", "and"]),
    (.arithmetic .sub, ["minus", "value"]),
    (.arithmetic .mul, ["multiply", "times"]),
    (.arithmetic .div, ["by", "divide"]),
    (.negate, ["negate"]),
    (.choiceValue, ["value_of_choice"]),
    (.useValue, ["use_value"]),
    (.conditional, ["else", "if", "then"])]

def observationForms : Forms ObservationKind :=
  [(.connective .and, ["and", "both"]),
    (.connective .or, ["either", "or"]),
    (.not, ["not"]),
    (.choseSomething, ["chose_something_for"])]

/-- The form of an observation with these keys. Whatever stands beside the key `value` may be the key of
    a comparison. -/
def observationForm? (keys : List String) : Option ObservationKind :=
  match observationForms.find? keys, keys with
  | some kind, _ => some kind
  | none, [key, "value"] => (Comparison.ofKey? key).map .comparison
  | none, _ => none

/-- A value in a document that is not what its place is meant to hold. -/
structure Unrecognized where
  expected : Expected
  path : Json.Path
  found : Json

/-- The text of the fault. -/
def Unrecognized.message (fault : Unrecognized) : String :=
  "unrecognized " ++ fault.expected.text ++ " at " ++ fault.path.text ++ ": " ++ fault.found.describe

end ContractBlocks.Document
