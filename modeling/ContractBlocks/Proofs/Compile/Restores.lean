import ContractBlocks.Compile.Call
import ContractBlocks.Proofs.Compile.Finds

namespace ContractBlocks

namespace Walk

variable {α β γ : Type} {w : Walk α} {f : α → Walk β}

/-- The walk leaves the path as it finds it, whether it fails or not. -/
def Restores (w : Walk α) : Prop :=
  ∀ path, (w path).2 = path

namespace Restores

theorem pure (a : α) : (Pure.pure a : Walk α).Restores :=
  fun _ => rfl

theorem fail (violation : Violation) : (Walk.fail violation : Walk α).Restores :=
  fun _ => rfl

theorem lift (result : Except Violation α) : (Walk.lift result).Restores :=
  fun _ => rfl

theorem bind (hw : w.Restores) (hf : ∀ a, (f a).Restores) : (w >>= f).Restores := by
  intro path
  have hpath : w path = ((w path).1, path) := Prod.ext rfl (hw path)
  rw [bind_eq, hpath]
  cases (w path).1 with
  | error violation => rfl
  | ok a => exact hf a path

theorem map (hw : w.Restores) (g : α → β) : (g <$> w).Restores := by
  rw [← bind_pure_comp]
  exact hw.bind fun a => .pure (g a)

/-- Going inside a block restores the path in both cases: where the walk is inside it already, the
    block stays in the path, and where it is not, the block taken out is the one put in. -/
theorem inside (node : NodeId) (hw : w.Restores) : (Walk.inside node w).Restores := by
  intro path
  by_cases hmem : node ∈ path
  · simp [Walk.inside, hmem]
  · simp [Walk.inside, hmem, hw (node :: path)]

theorem mapM {visit : γ → Walk α} (hvisit : ∀ e, (visit e).Restores) (elements : List γ) :
    (elements.mapM visit).Restores := by
  induction elements with
  | nil =>
    rw [List.mapM_nil]
    exact .pure []
  | cons e elements ih =>
    rw [List.mapM_cons]
    exact (hvisit e).bind fun a => ih.bind fun results => .pure (a :: results)

end Restores

end Walk

namespace Source

open Walk

variable {α β : Type} {S : Source} {node : NodeId} {kind : Kind}

theorem kindOf_restores {body : Kind → Walk β} (hbody : ∀ kind, (body kind).Restores) :
    (S.kindOf node >>= body).Restores := by
  refine .bind ?_ hbody
  unfold kindOf
  split
  · exact .pure _
  · exact .fail _

theorem childOf_restores {slot : String} {visit : NodeId → Walk α} {f : α → Walk β}
    (hvisit : ∀ child, (visit child).Restores) (hf : ∀ a, (f a).Restores) :
    (S.childOf node kind slot >>= fun child => visit child >>= f).Restores := by
  refine .bind ?_ fun child => (hvisit child).bind hf
  unfold childOf
  split
  · exact .pure _
  · exact .fail _

theorem fieldOf_restores (field : String) : (S.fieldOf node kind field).Restores := by
  unfold fieldOf
  split
  · exact .pure _
  · exact .fail _

theorem textOf_restores (field : String) : (S.textOf node kind field).Restores :=
  (fieldOf_restores field).bind fun value => .pure value.asText

theorem integerOf_restores (field : String) : (S.integerOf node kind field).Restores := by
  refine (fieldOf_restores field).bind fun value => ?_
  split
  · exact .pure _
  · exact .fail _

theorem chainOf_restores {slot : String} {visit : NodeId → Walk α} {f : List α → Walk β}
    (hvisit : ∀ element, (visit element).Restores) (hf : ∀ results, (f results).Restores) :
    (S.chainOf node slot >>= fun elements => elements.mapM visit >>= f).Restores :=
  (Restores.lift _).bind fun elements => (Restores.mapM hvisit elements).bind hf

end Source

namespace Parts

open Source Walk

/-- Every part leaves the path as it finds it. -/
structure Restores (parts : Parts) : Prop where
  contract : ∀ node, (parts.contract node).Restores
  case : ∀ node, (parts.case node).Restores
  action : ∀ node, (parts.action node).Restores
  bound : ∀ node, (parts.bound node).Restores
  choiceId : ∀ node, (parts.choiceId node).Restores
  party : ∀ node, (parts.party node).Restores
  payee : ∀ node, (parts.payee node).Restores
  token : ∀ node, (parts.token node).Restores
  value : ∀ node, (parts.value node).Restores
  observation : ∀ node, (parts.observation node).Restores

theorem exhausted_restores : exhausted.Restores where
  contract node := .fail (.cyclicSlot node)
  case node := .fail (.cyclicSlot node)
  action node := .fail (.cyclicSlot node)
  bound node := .fail (.cyclicSlot node)
  choiceId node := .fail (.cyclicSlot node)
  party node := .fail (.cyclicSlot node)
  payee node := .fail (.cyclicSlot node)
  token node := .fail (.cyclicSlot node)
  value node := .fail (.cyclicSlot node)
  observation node := .fail (.cyclicSlot node)

section Step

variable {S : Source} {inner : Parts} (hinner : inner.Restores) (node : NodeId)

include hinner

theorem contractPart_restores : (contractPart S inner node).Restores := by
  refine kindOf_restores fun found => ?_
  split
  · rename_i kind
    refine .inside node ?_
    cases kind with
    | close => exact .pure _
    | pay =>
      refine childOf_restores hinner.party fun source => ?_
      refine childOf_restores hinner.payee fun target => ?_
      refine childOf_restores hinner.token fun token => ?_
      refine childOf_restores hinner.value fun amount => ?_
      exact childOf_restores hinner.contract fun next => .pure _
    | branch =>
      refine childOf_restores hinner.observation fun condition => ?_
      refine childOf_restores hinner.contract fun yes => ?_
      exact childOf_restores hinner.contract fun no => .pure _
    | when =>
      refine chainOf_restores hinner.case fun cases => ?_
      refine (integerOf_restores "TIMEOUT").bind fun timeout => ?_
      exact childOf_restores hinner.contract fun after => .pure _
    | define =>
      refine (textOf_restores "NAME").bind fun name => ?_
      refine childOf_restores hinner.value fun value => ?_
      exact childOf_restores hinner.contract fun next => .pure _
    | assert =>
      refine childOf_restores hinner.observation fun observation => ?_
      exact childOf_restores hinner.contract fun next => .pure _
  · exact .fail _

theorem casePart_restores : (casePart S inner node).Restores := by
  refine kindOf_restores fun found => ?_
  split
  · refine .inside node ?_
    refine childOf_restores hinner.action fun action => ?_
    exact childOf_restores hinner.contract fun next => .pure _
  · exact .fail _

theorem actionPart_restores : (actionPart S inner node).Restores := by
  refine kindOf_restores fun found => ?_
  split
  · rename_i kind
    refine .inside node ?_
    cases kind with
    | deposit =>
      refine childOf_restores hinner.party fun party => ?_
      refine childOf_restores hinner.party fun into => ?_
      refine childOf_restores hinner.token fun token => ?_
      exact childOf_restores hinner.value fun amount => .pure _
    | choice =>
      refine childOf_restores hinner.choiceId fun id => ?_
      exact chainOf_restores hinner.bound fun bounds => .pure _
    | notify => exact childOf_restores hinner.observation fun observation => .pure _
  · exact .fail _

theorem choiceIdPart_restores : (choiceIdPart S inner node).Restores := by
  refine kindOf_restores fun found => ?_
  split
  · refine .inside node ?_
    refine (textOf_restores "NAME").bind fun name => ?_
    exact childOf_restores hinner.party fun owner => .pure _
  · exact .fail _

theorem payeePart_restores : (payeePart S inner node).Restores := by
  refine kindOf_restores fun found => ?_
  split
  · rename_i kind
    refine .inside node ?_
    cases kind with
    | party => exact childOf_restores hinner.party fun party => .pure _
    | account => exact childOf_restores hinner.party fun party => .pure _
  · exact .fail _

theorem valuePart_restores : (valuePart S inner node).Restores := by
  refine kindOf_restores fun found => ?_
  split
  · rename_i kind
    refine .inside node ?_
    cases kind with
    | constant => exact (integerOf_restores "VALUE").bind fun n => .pure _
    | availableMoney =>
      refine childOf_restores hinner.token fun token => ?_
      exact childOf_restores hinner.party fun account => .pure _
    | arithmetic op =>
      refine childOf_restores hinner.value fun lhs => ?_
      exact childOf_restores hinner.value fun rhs => .pure _
    | negate => exact childOf_restores hinner.value fun value => .pure _
    | choiceValue => exact childOf_restores hinner.choiceId fun id => .pure _
    | timeStart => exact .pure _
    | timeEnd => exact .pure _
    | useValue => exact (textOf_restores "NAME").bind fun name => .pure _
    | conditional =>
      refine childOf_restores hinner.observation fun condition => ?_
      refine childOf_restores hinner.value fun yes => ?_
      exact childOf_restores hinner.value fun no => .pure _
  · exact .fail _

theorem observationPart_restores : (observationPart S inner node).Restores := by
  refine kindOf_restores fun found => ?_
  split
  · rename_i kind
    refine .inside node ?_
    cases kind with
    | literal value => exact .pure _
    | connective op =>
      refine childOf_restores hinner.observation fun lhs => ?_
      exact childOf_restores hinner.observation fun rhs => .pure _
    | not => exact childOf_restores hinner.observation fun observation => .pure _
    | choseSomething => exact childOf_restores hinner.choiceId fun id => .pure _
    | comparison op =>
      refine childOf_restores hinner.value fun lhs => ?_
      exact childOf_restores hinner.value fun rhs => .pure _
  · exact .fail _

end Step

section Leaf

variable {S : Source} (node : NodeId)

theorem boundPart_restores : (boundPart S node).Restores := by
  refine kindOf_restores fun found => ?_
  split
  · refine (integerOf_restores "FROM").bind fun low => ?_
    exact (integerOf_restores "TO").bind fun high => .pure _
  · exact .fail _

theorem partyPart_restores : (partyPart S node).Restores := by
  refine kindOf_restores fun found => ?_
  split
  · rename_i kind
    cases kind with
    | role => exact (textOf_restores "ROLE").bind fun name => .pure _
    | address => exact (textOf_restores "ADDRESS").bind fun text => .pure _
  · exact .fail _

theorem tokenPart_restores : (tokenPart S node).Restores := by
  refine kindOf_restores fun found => ?_
  split
  · refine (textOf_restores "CURRENCY").bind fun currency => ?_
    exact (textOf_restores "NAME").bind fun name => .pure _
  · exact .fail _

end Leaf

theorem around_restores {S : Source} {inner : Parts} (hinner : inner.Restores) :
    (around S inner).Restores where
  contract := contractPart_restores hinner
  case := casePart_restores hinner
  action := actionPart_restores hinner
  bound := boundPart_restores
  choiceId := choiceIdPart_restores hinner
  party := partyPart_restores
  payee := payeePart_restores hinner
  token := tokenPart_restores
  value := valuePart_restores hinner
  observation := observationPart_restores hinner

theorem upTo_restores (S : Source) (depth : Nat) : (upTo S depth).Restores := by
  induction depth with
  | zero => exact exhausted_restores
  | succ depth ih => exact around_restores ih

theorem Restores.answer {parts : Parts} (hparts : parts.Restores) (call : Call) :
    (parts.answer call).Restores := by
  cases call with
  | contract node => exact (hparts.contract node).map _
  | case node => exact (hparts.case node).map _
  | action node => exact (hparts.action node).map _
  | bound node => exact (hparts.bound node).map _
  | choiceId node => exact (hparts.choiceId node).map _
  | party node => exact (hparts.party node).map _
  | payee node => exact (hparts.payee node).map _
  | token node => exact (hparts.token node).map _
  | value node => exact (hparts.value node).map _
  | observation node => exact (hparts.observation node).map _

/-- Calls made one after the other do not see each other. -/
theorem Restores.answers_eq_map {parts : Parts} (hparts : parts.Restores) (path : List NodeId)
    (calls : List Call) :
    parts.answers path calls = calls.map fun call => ((parts.answer call path).1, path) := by
  induction calls with
  | nil => rfl
  | cons call calls ih =>
    have hcall : parts.answer call path = ((parts.answer call path).1, path) :=
      Prod.ext rfl (hparts.answer call path)
    rw [List.map_cons, ← ih, Parts.answers, hcall]

end Parts

/-- A call leaves the path as it finds it, whatever its outcome, so that calls made one after the other
    have the answers that each of them has on its own from the outside. -/
theorem Source.answers_eq_map_answer (S : Source) :
    (∀ path call, (S.parts.answer call path).2 = path) ∧
      ∀ calls, S.parts.answers [] calls = calls.map fun call => ((S.parts.answer call []).1, []) := by
  have hparts : S.parts.Restores := Parts.upTo_restores S _
  exact ⟨fun path call => hparts.answer call path, hparts.answers_eq_map []⟩

end ContractBlocks
