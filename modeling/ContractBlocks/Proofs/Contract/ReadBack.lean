import ContractBlocks.Proofs.Contract.Reads

namespace ContractBlocks.Document

open Json (Fallback Path Reordered WellFormed)

theorem readInteger_int64 (path : Path) (n : Int64) : readInteger path (.int64 n) = .ok n := by
  have hlt : n.toInt < 0x8000000000000000 := n.toInt_lt
  simp [readInteger, Json.int64, Json.Number.ofInt64, Json.Number.int64?, hlt]

theorem readItems_map {α : Type} {read : Path → Json → Except Unrecognized α} {doc : α → Json}
    (hread : ∀ path a, read path (doc a) = .ok a) (path : Path) (place : Nat) (found : List α) :
    readItems read path place (found.map doc) = .ok found := by
  induction found generalizing place with
  | nil => rfl
  | cons a found ih => simp [readItems, hread, ih]

theorem readParty_toJson (fallback : Fallback) (path : Path) (party : Party) :
    readParty fallback path party.toJson = .ok party := by
  cases party <;> simp [Party.toJson, readParty, Forms.find?, partyForms, Fallback.get, readString]

theorem readPayee_toJson (fallback : Fallback) (path : Path) (payee : Payee) :
    readPayee fallback path payee.toJson = .ok payee := by
  cases payee <;> simp [Payee.toJson, readPayee, Forms.find?, payeeForms, Fallback.get, readParty_toJson]

theorem readToken_toJson (fallback : Fallback) (path : Path) (token : Token) :
    readToken fallback path token.toJson = .ok token := by
  simp [Token.toJson, readToken, Fallback.get, lookup_cons, readString]

theorem readChoiceId_toJson (fallback : Fallback) (path : Path) (choice : ChoiceId) :
    readChoiceId fallback path choice.toJson = .ok choice := by
  simp [ChoiceId.toJson, readChoiceId, Fallback.get, lookup_cons, readString, readParty_toJson]

theorem readBound_toJson (fallback : Fallback) (path : Path) (bound : Bound) :
    readBound fallback path bound.toJson = .ok bound := by
  simp [Bound.toJson, readBound, Fallback.get, lookup_cons, readInteger_int64]

mutual

theorem readValue_toJson (fallback : Fallback) (path : Path) (value : Value) :
    readValue fallback path value.toJson = .ok value := by
  cases value with
  | constant n =>
    have hread := readInteger_int64 path n
    rw [Json.int64] at hread
    simp [Value.toJson, readValue, Json.int64, hread]
  | availableMoney token account =>
    simp [Value.toJson, readValue, Forms.find?, valueForms, Fallback.get, lookup_cons, readToken_toJson,
      readParty_toJson]
  | arithmetic op lhs rhs =>
    cases op <;>
      simp [Value.toJson, Arithmetic.keys, readValue, Forms.find?, valueForms, Fallback.get, lookup_cons,
        readValue_toJson _ _ lhs, readValue_toJson _ _ rhs]
  | negate value =>
    simp [Value.toJson, readValue, Forms.find?, valueForms, Fallback.get, lookup_cons, readValue_toJson _ _ value]
  | choiceValue choice =>
    simp [Value.toJson, readValue, Forms.find?, valueForms, Fallback.get, lookup_cons, readChoiceId_toJson]
  | timeStart => simp [Value.toJson, readValue]
  | timeEnd => simp [Value.toJson, readValue]
  | useValue name =>
    simp [Value.toJson, readValue, Forms.find?, valueForms, Fallback.get, lookup_cons, readString]
  | conditional condition yes no =>
    simp [Value.toJson, readValue, Forms.find?, valueForms, Fallback.get, lookup_cons,
      readObservation_toJson _ _ condition, readValue_toJson _ _ yes, readValue_toJson _ _ no]

theorem readObservation_toJson (fallback : Fallback) (path : Path) (observation : Observation) :
    readObservation fallback path observation.toJson = .ok observation := by
  cases observation with
  | literal b => simp [Observation.toJson, readObservation]
  | connective op lhs rhs =>
    cases op <;>
      simp [Observation.toJson, Connective.keys, readObservation, observationForm?, Forms.find?, observationForms,
        Fallback.get, lookup_cons, readObservation_toJson _ _ lhs, readObservation_toJson _ _ rhs]
  | not observation =>
    simp [Observation.toJson, readObservation, observationForm?, Forms.find?, observationForms, Fallback.get,
      lookup_cons, readObservation_toJson _ _ observation]
  | choseSomething choice =>
    simp [Observation.toJson, readObservation, observationForm?, Forms.find?, observationForms, Fallback.get,
      lookup_cons, readChoiceId_toJson]
  | comparison op lhs rhs =>
    cases op <;>
      simp [Observation.toJson, Comparison.key, Comparison.ofKey?, Comparison.all, readObservation, observationForm?,
        Forms.find?, observationForms, Fallback.get, lookup_cons, readValue_toJson _ _ lhs, readValue_toJson _ _ rhs]

end

theorem readAction_toJson (fallback : Fallback) (path : Path) (action : Action) :
    readAction fallback path action.toJson = .ok action := by
  cases action with
  | deposit party into token amount =>
    simp [Action.toJson, readAction, Forms.find?, actionForms, Fallback.get, lookup_cons, readParty_toJson,
      readToken_toJson, readValue_toJson]
  | choice id bounds =>
    simp [Action.toJson, readAction, Forms.find?, actionForms, Fallback.get, lookup_cons, readChoiceId_toJson, readList,
      readItems_map (readBound_toJson fallback)]
  | notify observation =>
    simp [Action.toJson, readAction, Forms.find?, actionForms, Fallback.get, lookup_cons, readObservation_toJson]

mutual

/-- A contract's document is read as that contract. -/
theorem readContract_toJson (fallback : Fallback) (path : Path) (contract : Contract) :
    readContract fallback path contract.toJson = .ok contract := by
  cases contract with
  | close => simp [Contract.toJson, readContract]
  | pay source target token amount next =>
    simp [Contract.toJson, readContract, Forms.find?, contractForms, Fallback.get, lookup_cons, readParty_toJson,
      readPayee_toJson, readToken_toJson, readValue_toJson, readContract_toJson _ _ next]
  | branch condition yes no =>
    simp [Contract.toJson, readContract, Forms.find?, contractForms, Fallback.get, lookup_cons, readObservation_toJson,
      readContract_toJson _ _ yes, readContract_toJson _ _ no]
  | when cases timeout after =>
    simp [Contract.toJson, readContract, readCases, Forms.find?, contractForms, Fallback.get, lookup_cons,
      readCasesFrom_toJson _ _ _ cases, readInteger_int64, readContract_toJson _ _ after]
  | define name value next =>
    simp [Contract.toJson, readContract, Forms.find?, contractForms, Fallback.get, lookup_cons, readString,
      readValue_toJson, readContract_toJson _ _ next]
  | assert observation next =>
    simp [Contract.toJson, readContract, Forms.find?, contractForms, Fallback.get, lookup_cons, readObservation_toJson,
      readContract_toJson _ _ next]

theorem readCase_toJson (fallback : Fallback) (path : Path) (c : Case) : readCase fallback path c.toJson = .ok c := by
  cases c with
  | mk action next =>
    simp [Case.toJson, readCase, Fallback.get, lookup_cons, readAction_toJson, readContract_toJson _ _ next]

theorem readCasesFrom_toJson (fallback : Fallback) (path : Path) (place : Nat) (cases : List Case) :
    readCasesFrom fallback path place (Contract.casesToJson cases) = .ok cases := by
  cases cases with
  | nil => simp [Contract.casesToJson, readCasesFrom]
  | cons c cases =>
    simp [Contract.casesToJson, readCasesFrom, readCase_toJson _ _ c, readCasesFrom_toJson _ _ _ cases]

end

/-- A value is read as a contract exactly when it is the contract's document up to the order of keys. -/
theorem read_eq_ok_iff {json : Json} {contract : Contract} :
    read json = .ok contract ↔ Reordered json contract.toJson := by
  rw [read]
  constructor
  · intro hread
    have hagree := (readContract_reads_and_readCase_reads json).1 json (.refl json) .null .null []
    rw [hread] at hagree
    cases hagree with
    | ok h => exact h
  · intro hreordered
    have hagree := (readContract_reads_and_readCase_reads json).1 contract.toJson hreordered .null .null []
    rw [readContract_toJson] at hagree
    generalize readContract .null [] json = found at hagree ⊢
    cases hagree
    rfl

theorem leads_of_read_eq_error {json : Json} {fault : Unrecognized} (h : read json = .error fault) :
    Leads (.part .contract) json fault.path fault.expected fault.found ∧ ¬fault.expected.Writes fault.found.head := by
  have hagree := (readContract_reads_and_readCase_reads json).1 json (.refl json) .null .null []
  rw [read] at h
  rw [h] at hagree
  cases hagree with
  | error hleads _ _ hwrites => exact ⟨hleads, hwrites⟩

/-- What is taken for absent keys does not matter: no key is looked up that is not there. -/
theorem readContract_eq_read (fallback : Fallback) (json : Json) : readContract fallback [] json = read json := by
  have hagree := (readContract_reads_and_readCase_reads json).1 json (.refl json) fallback .null []
  rw [read]
  generalize readContract fallback [] json = found at hagree
  generalize readContract .null [] json = found' at hagree
  cases hagree with
  | ok => rfl
  | error hleads hother =>
    -- Both faults are found at one place of one value.
    rw [hleads.at?_eq_some] at hother
    cases hother
    rfl

theorem readText_of_wellFormed {text : String} {json : Json} (h : WellFormed text.toList json) :
    readText text = (read json).mapError .unrecognized := by
  rw [readText, Json.Outline.readText_eq_ok_iff.2 h]
  dsimp only
  cases read json <;> rfl

theorem readText_of_not_wellFormed {text : String} (h : ∀ json, ¬WellFormed text.toList json) :
    ∃ fault, readText text = .error (.json fault) := by
  rw [readText]
  cases hread : Json.Outline.readText Json.Outline.readJson text with
  | ok json => exact absurd (Json.Outline.readText_eq_ok_iff.1 hread) (h json)
  | error fault => exact ⟨fault, rfl⟩

/-- The text of a contract's document, over several lines or on one, is read back as that contract. -/
theorem readText_pretty_and_compact (contract : Contract) :
    readText contract.pretty = .ok contract ∧ readText contract.compact = .ok contract := by
  have hback : ∀ {layout : Json.Layout}, layout.IsBlank →
      readText (String.ofList (Json.writeOnto layout 0 contract.toJson [])) = .ok contract := by
    intro layout hlayout
    have hformed := contract.plain_toJson.wellFormed_writeOnto hlayout
    rw [← String.toList_ofList (l := Json.writeOnto layout 0 contract.toJson [])] at hformed
    rw [readText_of_wellFormed hformed, read_eq_ok_iff.2 (.refl _)]
    rfl
  exact ⟨hback Json.Layout.isBlank_pretty, hback Json.Layout.isBlank_compact⟩

/-- The texts that are read as a contract are exactly the JSON texts of its document, with the keys of
    objects in any order. Any other JSON text has a fault at a value that stands where the fault says,
    and any other text is no JSON text. Nothing is ever taken for a key that is absent. -/
theorem readText_eq_ok_iff_reordered (text : String) :
    (∀ contract, readText text = .ok contract ↔
      ∃ json, WellFormed text.toList json ∧ Reordered json contract.toJson) ∧
    (∀ json, WellFormed text.toList json → (∀ contract : Contract, ¬Reordered json contract.toJson) →
      ∃ fault, readText text = .error (.unrecognized fault) ∧ json.at? fault.path = some fault.found) ∧
    ((∀ json, ¬WellFormed text.toList json) → ∃ fault, readText text = .error (.json fault)) ∧
    ∀ fallback json, readContract fallback [] json = read json := by
  refine ⟨fun contract => ⟨fun htext => ?_, ?_⟩, fun json hformed hother => ?_, readText_of_not_wellFormed,
    readContract_eq_read⟩
  · by_cases hsome : ∃ json, WellFormed text.toList json
    · obtain ⟨json, hformed⟩ := hsome
      rw [readText_of_wellFormed hformed] at htext
      cases hread : read json with
      | ok found =>
        rw [hread] at htext
        cases htext
        exact ⟨json, hformed, read_eq_ok_iff.1 hread⟩
      | error fault =>
        rw [hread] at htext
        cases htext
    · obtain ⟨fault, hfault⟩ := readText_of_not_wellFormed (not_exists.1 hsome)
      rw [hfault] at htext
      cases htext
  · rintro ⟨json, hformed, hreordered⟩
    rw [readText_of_wellFormed hformed, read_eq_ok_iff.2 hreordered]
    rfl
  · cases hread : read json with
    | ok contract => exact absurd (read_eq_ok_iff.1 hread) (hother contract)
    | error fault =>
      refine ⟨fault, ?_, (leads_of_read_eq_error hread).1.at?_eq_some⟩
      rw [readText_of_wellFormed hformed, hread]
      rfl

theorem readText_misspelled_key : ∃ fault,
    readText "\x7b\"assert\":true,\"them\":\"close\"\x7d" = .error (.unrecognized fault) ∧
      (Json.object [("assert", .bool true), ("them", .string "close")]).at? fault.path = some fault.found := by
  refine (readText_eq_ok_iff_reordered _).2.1 _ ?_ fun contract hreordered => ?_
  · have hplain : (Json.object [("assert", .bool true), ("them", .string "close")]).Plain :=
      .object (by simp) (by simp [Json.Plain.bool, Json.Plain.string])
    exact hplain.wellFormed_writeOnto Json.Layout.isBlank_compact
  · have hlists := Expected.lists_of_writes ⟨_, .contract contract, hreordered.head_eq.symm⟩
    simp [Expected.Lists, Expected.layouts] at hlists

end ContractBlocks.Document
