import ContractBlocks.Grammar

namespace ContractBlocks.Kind

theorem mem_all (kind : Kind) : kind ∈ all := by
  cases kind with
  | root => decide
  | contract kind => cases kind <;> decide
  | case => decide
  | action kind => cases kind <;> decide
  | bound => decide
  | choiceId => decide
  | party kind => cases kind <;> decide
  | payee kind => cases kind <;> decide
  | token => decide
  | value kind =>
    cases kind with
    | arithmetic op => cases op <;> decide
    | _ => decide
  | observation kind =>
    cases kind with
    | literal value => cases value <;> decide
    | connective op => cases op <;> decide
    | comparison op => cases op <;> decide
    | _ => decide

/-- No two kinds have the same tag. -/
theorem ofTag?_tag (kind : Kind) : ofTag? kind.tag = some kind := by
  have htable : ∀ kind ∈ all, ofTag? kind.tag = some kind := by decide
  exact htable kind kind.mem_all

theorem ofTag?_eq_some_iff {tag : String} {kind : Kind} : ofTag? tag = some kind ↔ tag = kind.tag := by
  constructor
  · intro hfound
    have htag := List.find?_some hfound
    exact (of_decide_eq_true htag).symm
  · rintro rfl
    exact kind.ofTag?_tag

end ContractBlocks.Kind
