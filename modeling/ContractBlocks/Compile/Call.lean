import ContractBlocks.Compile.Part
import ContractBlocks.Contract.Document

namespace ContractBlocks

/-- A part of a contract, of any category but the root's. -/
inductive Part
  | contract (contract : Contract)
  | case (case : Case)
  | action (action : Action)
  | bound (bound : Bound)
  | choiceId (choice : ChoiceId)
  | party (party : Party)
  | payee (payee : Payee)
  | token (token : Token)
  | value (value : Value)
  | observation (observation : Observation)

/-- The document of a part. -/
def Part.toJson : Part → Json
  | .contract c => c.toJson
  | .case c => c.toJson
  | .action a => a.toJson
  | .bound b => b.toJson
  | .choiceId i => i.toJson
  | .party p => p.toJson
  | .payee p => p.toJson
  | .token t => t.toJson
  | .value v => v.toJson
  | .observation o => o.toJson

/-- A request for the part of one category that a block stands for. -/
inductive Call
  | contract (node : NodeId)
  | case (node : NodeId)
  | action (node : NodeId)
  | bound (node : NodeId)
  | choiceId (node : NodeId)
  | party (node : NodeId)
  | payee (node : NodeId)
  | token (node : NodeId)
  | value (node : NodeId)
  | observation (node : NodeId)

namespace Parts

/-- The part that a call asks for. -/
def answer (parts : Parts) : Call → Walk Part
  | .contract node => .contract <$> parts.contract node
  | .case node => .case <$> parts.case node
  | .action node => .action <$> parts.action node
  | .bound node => .bound <$> parts.bound node
  | .choiceId node => .choiceId <$> parts.choiceId node
  | .party node => .party <$> parts.party node
  | .payee node => .payee <$> parts.payee node
  | .token node => .token <$> parts.token node
  | .value node => .value <$> parts.value node
  | .observation node => .observation <$> parts.observation node

/-- The answers to calls made one after the other, each with the path that it leaves. A call finds the
    path that the call before it left. -/
def answers (parts : Parts) (path : List NodeId) :
    List Call → List (Except Violation Part × List NodeId)
  | [] => []
  | call :: calls =>
    let (result, path) := parts.answer call path
    (result, path) :: parts.answers path calls

end Parts

end ContractBlocks
