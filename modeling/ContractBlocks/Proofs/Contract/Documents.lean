import ContractBlocks.Contract.Document
import ContractBlocks.Proofs.Json.Written

namespace ContractBlocks

open Json (Plain)

theorem Contract.casesToJson_eq_map (cases : List Case) : casesToJson cases = cases.map Case.toJson := by
  induction cases with
  | nil => rfl
  | cons c cases ih => rw [casesToJson, ih, List.map_cons]

theorem Json.plain_int64 (n : Int64) : (Json.int64 n).Plain :=
  .whole _ _

theorem Json.plain_nat (n : Nat) : (Json.nat n).Plain :=
  .whole _ _

theorem Party.plain_toJson (party : Party) : party.toJson.Plain := by
  cases party <;> exact .object (by simp) (by simp [Plain.string])

theorem Payee.plain_toJson (payee : Payee) : payee.toJson.Plain := by
  cases payee <;> exact .object (by simp) (by simp [Party.plain_toJson])

theorem Token.plain_toJson (token : Token) : token.toJson.Plain :=
  .object (by simp) (by simp [Plain.string])

theorem ChoiceId.plain_toJson (choice : ChoiceId) : choice.toJson.Plain :=
  .object (by simp) (by simp [Plain.string, Party.plain_toJson])

theorem Bound.plain_toJson (bound : Bound) : bound.toJson.Plain :=
  .object (by simp) (by simp [Json.plain_int64])

mutual

theorem Value.plain_toJson : (value : Value) → value.toJson.Plain
  | .constant n => Json.plain_int64 n
  | .availableMoney token account =>
    .object (by simp) (by simp [Token.plain_toJson, Party.plain_toJson])
  | .arithmetic op lhs rhs =>
    .object (by cases op <;> simp [Arithmetic.keys]) (by simp [lhs.plain_toJson, rhs.plain_toJson])
  | .negate value => .object (by simp) (by simp [value.plain_toJson])
  | .choiceValue choice => .object (by simp) (by simp [choice.plain_toJson])
  | .timeStart => .string _
  | .timeEnd => .string _
  | .useValue name => .object (by simp) (by simp [Plain.string])
  | .conditional condition yes no =>
    .object (by simp) (by simp [condition.plain_toJson, yes.plain_toJson, no.plain_toJson])

theorem Observation.plain_toJson : (observation : Observation) → observation.toJson.Plain
  | .literal b => .bool b
  | .connective op lhs rhs =>
    .object (by cases op <;> simp [Connective.keys]) (by simp [lhs.plain_toJson, rhs.plain_toJson])
  | .not observation => .object (by simp) (by simp [observation.plain_toJson])
  | .choseSomething choice => .object (by simp) (by simp [choice.plain_toJson])
  | .comparison op lhs rhs =>
    .object (by cases op <;> simp [Comparison.key]) (by simp [lhs.plain_toJson, rhs.plain_toJson])

end

theorem Action.plain_toJson : (action : Action) → action.toJson.Plain
  | .deposit party into token amount =>
    .object (by simp) (by simp [Party.plain_toJson, Token.plain_toJson, amount.plain_toJson])
  | .choice id bounds =>
    .object (by simp) (by
      have hbounds : Plain (.list (bounds.map Bound.toJson)) := .list (by simp [Bound.plain_toJson])
      simp [id.plain_toJson, hbounds])
  | .notify observation => .object (by simp) (by simp [observation.plain_toJson])

mutual

/-- The document of a contract has integers for numbers and no key twice in an object. -/
theorem Contract.plain_toJson : (contract : Contract) → contract.toJson.Plain
  | .close => .string _
  | .pay source target token amount next =>
    .object (by simp) (by simp [Party.plain_toJson, Payee.plain_toJson, Token.plain_toJson,
      Value.plain_toJson, next.plain_toJson])
  | .branch condition yes no =>
    .object (by simp) (by simp [Observation.plain_toJson, yes.plain_toJson, no.plain_toJson])
  | .when cases timeout after =>
    .object (by simp) (by
      have hcases : Plain (.list (Contract.casesToJson cases)) := .list (Contract.plain_casesToJson cases)
      simp [hcases, Json.plain_int64, after.plain_toJson])
  | .define name value next =>
    .object (by simp) (by simp [Plain.string, Value.plain_toJson, next.plain_toJson])
  | .assert observation next =>
    .object (by simp) (by simp [Observation.plain_toJson, next.plain_toJson])

theorem Case.plain_toJson : (c : Case) → c.toJson.Plain
  | .mk action next => .object (by simp) (by simp [Action.plain_toJson, next.plain_toJson])

theorem Contract.plain_casesToJson : (cases : List Case) → ∀ item ∈ Contract.casesToJson cases, item.Plain
  | [] => nofun
  | c :: cases => by
    rw [Contract.casesToJson, List.forall_mem_cons]
    exact ⟨c.plain_toJson, Contract.plain_casesToJson cases⟩

end

end ContractBlocks
