import ContractBlocks.Proofs.Contract.Agree

namespace ContractBlocks.Document

open Json (Fallback Path Reordered shape)

theorem readString_reads (a : Json) : Reads (.part .string) .string (fun _ => readString) a := by
  refine reads_of_cases (by decide) (fun _ _ _ => rfl) (fun hscalar fallback other path => ?_)
    fun entries others _ hab fallback other path => ?_
  · cases a with
    | string s => exact .ok (.refl _)
    | list | object => cases hscalar
    | _ => exact .fail (.part .string) (.refl _) Expected.lists_of_writes
  · exact .fail (.part .string) hab fun hwrites => nomatch Expected.lists_of_writes hwrites

theorem eq_ofInt64_of_int64? {n : Json.Number} {value : Int64} (h : n.int64? = some value) :
    n = .ofInt64 value := by
  cases n with
  | whole z fits =>
    rw [Json.Number.int64?] at h
    split at h
    · next hlt =>
      cases h
      have hz : (Int64.ofInt z).toInt = z := Int64.toInt_ofInt_of_le fits.1 hlt
      simp only [Json.Number.ofInt64, hz]
    · cases h
  | float x => cases h

theorem readInteger_reads (a : Json) : Reads (.part .integer) .int64 (fun _ => readInteger) a := by
  refine reads_of_cases (by decide) (fun _ _ _ => rfl) (fun hscalar fallback other path => ?_)
    fun entries others _ hab fallback other path => ?_
  · cases a with
    | number n =>
      rw [readInteger]
      cases hvalue : n.int64? with
      | some value => exact .ok (congrArg Json.number (eq_ofInt64_of_int64? hvalue) ▸ .refl _)
      | none => exact .fail (.part .integer) (.refl _) (Expected.not_writes_integer hvalue)
    | list | object => cases hscalar
    | _ => exact .fail (.part .integer) (.refl _) Expected.lists_of_writes
  · exact .fail (.part .integer) hab fun hwrites => nomatch Expected.lists_of_writes hwrites

theorem readParty_reads : ∀ a, Reads (.part .party) Party.toJson readParty a := by
  refine reads_of_object (by decide) (fun _ => id) (fun _ _ json hother => ?_)
    fun entries others hab fallback other path => ?_
  · cases json with
    | object entries => exact (hother entries rfl).elim
    | _ => rfl
  rw [readParty, readParty, ← hab.shape_eq]
  cases hform : partyForms.find? (shape entries) with
  | none => exact .fail (.part .party) hab (Forms.not_writes_of_find?_eq_none rfl hform)
  | some kind =>
    have hmem := Forms.mem_of_find?_eq_some hform
    cases kind with
    | role =>
      have hshape : shape entries = ["role_token"] := by simpa [partyForms] using hmem
      have hopened : Opened .party _ entries others := .of_shape hshape hab rfl
      refine .map (hopened.entry rfl fun value _ => readString_reads value) fun name hname => ?_
      exact hopened.document (by simp [hshape]) (by simp [hname])
    | address =>
      have hshape : shape entries = ["address"] := by simpa [partyForms] using hmem
      have hopened : Opened .party _ entries others := .of_shape hshape hab rfl
      refine .map (hopened.entry rfl fun value _ => readString_reads value) fun text htext => ?_
      exact hopened.document (by simp [hshape]) (by simp [htext])

theorem readPayee_reads : ∀ a, Reads (.part .payee) Payee.toJson readPayee a := by
  refine reads_of_object (by decide) (fun _ => id) (fun _ _ json hother => ?_)
    fun entries others hab fallback other path => ?_
  · cases json with
    | object entries => exact (hother entries rfl).elim
    | _ => rfl
  rw [readPayee, readPayee, ← hab.shape_eq]
  cases hform : payeeForms.find? (shape entries) with
  | none => exact .fail (.part .payee) hab (Forms.not_writes_of_find?_eq_none rfl hform)
  | some kind =>
    have hmem := Forms.mem_of_find?_eq_some hform
    cases kind with
    | party =>
      have hshape : shape entries = ["party"] := by simpa [payeeForms] using hmem
      have hopened : Opened .payee _ entries others := .of_shape hshape hab rfl
      refine .map (hopened.entry rfl fun value _ => readParty_reads value) fun party hparty => ?_
      exact hopened.document (by simp [hshape]) (by simp [hparty])
    | account =>
      have hshape : shape entries = ["account"] := by simpa [payeeForms] using hmem
      have hopened : Opened .payee _ entries others := .of_shape hshape hab rfl
      refine .map (hopened.entry rfl fun value _ => readParty_reads value) fun party hparty => ?_
      exact hopened.document (by simp [hshape]) (by simp [hparty])

theorem readToken_reads : ∀ a, Reads (.part .token) Token.toJson readToken a := by
  refine reads_of_object (by decide) (fun _ => id) (fun _ _ json hother => ?_)
    fun entries others hab fallback other path => ?_
  · cases json with
    | object entries => exact (hother entries rfl).elim
    | _ => rfl
  rw [readToken, readToken, ← hab.shape_eq]
  split
  · next hshape =>
    have hopened : Opened .token _ entries others := .of_shape hshape hab rfl
    refine .bind (hopened.entry rfl fun value _ => readString_reads value) fun currency hcurrency => ?_
    refine .map (hopened.entry rfl fun value _ => readString_reads value) fun name hname => ?_
    exact hopened.document (by simp [hshape]) (by simp [hcurrency, hname])
  · next hshape =>
    exact .fail (.part .token) hab fun hwrites => hshape (List.mem_singleton.1 (Expected.lists_of_writes hwrites))

theorem readChoiceId_reads : ∀ a, Reads (.part .choiceId) ChoiceId.toJson readChoiceId a := by
  refine reads_of_object (by decide) (fun _ => id) (fun _ _ json hother => ?_)
    fun entries others hab fallback other path => ?_
  · cases json with
    | object entries => exact (hother entries rfl).elim
    | _ => rfl
  rw [readChoiceId, readChoiceId, ← hab.shape_eq]
  split
  · next hshape =>
    have hopened : Opened .choiceId _ entries others := .of_shape hshape hab rfl
    refine .bind (hopened.entry rfl fun value _ => readString_reads value) fun name hname => ?_
    refine .map (hopened.entry rfl fun value _ => readParty_reads value) fun owner howner => ?_
    exact hopened.document (by simp [hshape]) (by simp [hname, howner])
  · next hshape =>
    exact .fail (.part .choiceId) hab fun hwrites => hshape (List.mem_singleton.1 (Expected.lists_of_writes hwrites))

theorem readBound_reads : ∀ a, Reads (.part .bound) Bound.toJson readBound a := by
  refine reads_of_object (by decide) (fun _ => id) (fun _ _ json hother => ?_)
    fun entries others hab fallback other path => ?_
  · cases json with
    | object entries => exact (hother entries rfl).elim
    | _ => rfl
  rw [readBound, readBound, ← hab.shape_eq]
  split
  · next hshape =>
    have hopened : Opened .bound _ entries others := .of_shape hshape hab rfl
    refine .bind (hopened.entry rfl fun value _ => readInteger_reads value) fun low hlow => ?_
    refine .map (hopened.entry rfl fun value _ => readInteger_reads value) fun high hhigh => ?_
    exact hopened.document (by simp [hshape]) (by simp [hlow, hhigh])
  · next hshape =>
    exact .fail (.part .bound) hab fun hwrites => hshape (List.mem_singleton.1 (Expected.lists_of_writes hwrites))

section

variable {entries others : List (String × Json)} (hab : Reordered (.object entries) (.object others))
  (hvalue : ∀ key value, entries.lookup key = some value → Reads (.part .value) Value.toJson readValue value)
  (hobservation : ∀ key value, entries.lookup key = some value →
    Reads (.part .observation) Observation.toJson readObservation value)

include hab hvalue hobservation

/-- Objects are read as values, if what stands inside them is read. -/
theorem readValue_object (fallback other : Fallback) (path : Path) :
    Agree (.part .value) path (.object entries) (.object others)
      (fun x => Reordered (.object entries) x.toJson) (readValue fallback path (.object entries))
      (readValue other path (.object others)) := by
  rw [readValue, readValue, ← hab.shape_eq]
  cases hform : valueForms.find? (shape entries) with
  | none => exact .fail (.part .value) hab (Forms.not_writes_of_find?_eq_none rfl hform)
  | some kind =>
    have hmem := Forms.mem_of_find?_eq_some hform
    cases kind with
    | availableMoney =>
      have hshape : shape entries = ["amount_of_token", "in_account"] := by simpa [valueForms] using hmem
      have hopened : Opened .value _ entries others := .of_shape hshape hab rfl
      refine .bind (hopened.entry rfl fun value _ => readToken_reads value) fun token htoken => ?_
      refine .map (hopened.entry rfl fun value _ => readParty_reads value) fun account haccount => ?_
      rw [Value.toJson]
      exact hopened.document (by simp [hshape]) (by simp [htoken, haccount])
    | arithmetic op =>
      have hshape : shape entries = Json.insertKey op.keys.1 [op.keys.2] := by
        cases op <;> simpa [valueForms, Arithmetic.keys] using hmem
      obtain ⟨layout, hlayout, hfirst, hsecond⟩ : ∃ layout,
          Expected.layout? .value (Json.insertKey op.keys.1 [op.keys.2]) = some layout ∧
            layout.lookup op.keys.1 = some (.part .value) ∧ layout.lookup op.keys.2 = some (.part .value) := by
        cases op <;> exact ⟨_, rfl, rfl, rfl⟩
      have hopened := Opened.of_shape hshape hab hlayout
      refine .bind (hopened.entry hfirst (hvalue _)) fun lhs hlhs => ?_
      refine .map (hopened.entry hsecond (hvalue _)) fun rhs hrhs => ?_
      rw [Value.toJson]
      exact hopened.document (by simp [hshape]) (by simp [hlhs, hrhs])
    | negate =>
      have hshape : shape entries = ["negate"] := by simpa [valueForms] using hmem
      have hopened : Opened .value _ entries others := .of_shape hshape hab rfl
      refine .map (hopened.entry rfl (hvalue _)) fun value hinner => ?_
      rw [Value.toJson]
      exact hopened.document (by simp [hshape]) (by simp [hinner])
    | choiceValue =>
      have hshape : shape entries = ["value_of_choice"] := by simpa [valueForms] using hmem
      have hopened : Opened .value _ entries others := .of_shape hshape hab rfl
      refine .map (hopened.entry rfl fun value _ => readChoiceId_reads value) fun choice hchoice => ?_
      rw [Value.toJson]
      exact hopened.document (by simp [hshape]) (by simp [hchoice])
    | useValue =>
      have hshape : shape entries = ["use_value"] := by simpa [valueForms] using hmem
      have hopened : Opened .value _ entries others := .of_shape hshape hab rfl
      refine .map (hopened.entry rfl fun value _ => readString_reads value) fun name hname => ?_
      rw [Value.toJson]
      exact hopened.document (by simp [hshape]) (by simp [hname])
    | conditional =>
      have hshape : shape entries = ["else", "if", "then"] := by simpa [valueForms] using hmem
      have hopened : Opened .value _ entries others := .of_shape hshape hab rfl
      refine .bind (hopened.entry rfl (hobservation _)) fun condition hcondition => ?_
      refine .bind (hopened.entry rfl (hvalue _)) fun yes hyes => ?_
      refine .map (hopened.entry rfl (hvalue _)) fun no hno => ?_
      rw [Value.toJson]
      exact hopened.document (by simp [hshape]) (by simp [hcondition, hyes, hno])
    | constant | timeStart | timeEnd => simp [valueForms] at hmem

/-- Objects are read as observations, if what stands inside them is read. -/
theorem readObservation_object (fallback other : Fallback) (path : Path) :
    Agree (.part .observation) path (.object entries) (.object others)
      (fun x => Reordered (.object entries) x.toJson) (readObservation fallback path (.object entries))
      (readObservation other path (.object others)) := by
  rw [readObservation, readObservation, ← hab.shape_eq]
  cases hform : observationForm? (shape entries) with
  | none =>
    exact .fail (.part .observation) hab fun hwrites =>
      observationForm?_ne_none (Expected.lists_of_writes hwrites) hform
  | some kind =>
    have hmem := mem_of_observationForm? hform
    cases kind with
    | connective op =>
      have hshape : shape entries = Json.insertKey op.keys.1 [op.keys.2] := by
        cases op <;> simpa [observationForms, Connective.keys] using hmem
      obtain ⟨layout, hlayout, hfirst, hsecond⟩ : ∃ layout,
          Expected.layout? .observation (Json.insertKey op.keys.1 [op.keys.2]) = some layout ∧
            layout.lookup op.keys.1 = some (.part .observation) ∧
            layout.lookup op.keys.2 = some (.part .observation) := by
        cases op <;> exact ⟨_, rfl, rfl, rfl⟩
      have hopened := Opened.of_shape hshape hab hlayout
      refine .bind (hopened.entry hfirst (hobservation _)) fun lhs hlhs => ?_
      refine .map (hopened.entry hsecond (hobservation _)) fun rhs hrhs => ?_
      rw [Observation.toJson]
      exact hopened.document (by simp [hshape]) (by simp [hlhs, hrhs])
    | not =>
      have hshape : shape entries = ["not"] := by simpa [observationForms] using hmem
      have hopened : Opened .observation _ entries others := .of_shape hshape hab rfl
      refine .map (hopened.entry rfl (hobservation _)) fun observation hinner => ?_
      rw [Observation.toJson]
      exact hopened.document (by simp [hshape]) (by simp [hinner])
    | choseSomething =>
      have hshape : shape entries = ["chose_something_for"] := by simpa [observationForms] using hmem
      have hopened : Opened .observation _ entries others := .of_shape hshape hab rfl
      refine .map (hopened.entry rfl fun value _ => readChoiceId_reads value) fun choice hchoice => ?_
      rw [Observation.toJson]
      exact hopened.document (by simp [hshape]) (by simp [hchoice])
    | comparison op =>
      have hshape : shape entries = Json.insertKey "value" [op.key] := by
        cases op <;> simpa [observationForms, Comparison.key] using hmem
      obtain ⟨layout, hlayout, hfirst, hsecond⟩ : ∃ layout,
          Expected.layout? .observation (Json.insertKey "value" [op.key]) = some layout ∧
            layout.lookup "value" = some (.part .value) ∧ layout.lookup op.key = some (.part .value) := by
        cases op <;> exact ⟨_, rfl, rfl, rfl⟩
      have hopened := Opened.of_shape hshape hab hlayout
      refine .bind (hopened.entry hfirst (hvalue _)) fun lhs hlhs => ?_
      refine .map (hopened.entry hsecond (hvalue _)) fun rhs hrhs => ?_
      rw [Observation.toJson]
      exact hopened.document (by simp [hshape]) (by simp [hlhs, hrhs])
    | literal => simp [observationForms] at hmem

end

theorem readValue_reads_and_readObservation_reads (a : Json) :
    Reads (.part .value) Value.toJson readValue a ∧
      Reads (.part .observation) Observation.toJson readObservation a := by
  induction a using Json.induction_inside with
  | step a ih =>
    refine ⟨reads_of_cases (by decide) (fun _ _ _ => by rw [readValue.eq_def]) (fun hscalar fallback other path => ?_) ?_,
      reads_of_cases (by decide) (fun _ _ _ => by rw [readObservation.eq_def]) (fun hscalar fallback other path => ?_) ?_⟩
    · cases a with
      | number n =>
        rw [readValue, readValue, readInteger]
        cases hvalue : n.int64? with
        | some value => exact .ok (congrArg Json.number (eq_ofInt64_of_int64? hvalue) ▸ .refl _)
        | none =>
          -- A number is blamed for not being an integer, so the category changes where the path does not.
          exact .refuse (.number n) (.refl _) (Expected.not_writes_integer hvalue)
      | string s =>
        rw [readValue, readValue]
        split
        · next hstart => exact .ok (hstart ▸ .refl _)
        · next hstart =>
          split
          · next hend => exact .ok (hend ▸ .refl _)
          · next hend =>
            exact .fail (.part .value) (.refl _) fun hwrites =>
              (Expected.lists_of_writes hwrites).elim hstart hend
      | list | object => cases hscalar
      | _ =>
        rw [readValue.eq_def, readValue.eq_def]
        exact .fail (.part .value) (.refl _) Expected.lists_of_writes
    · rintro entries others rfl hab
      exact readValue_object hab (fun key value hlookup => (ih (.key key) value hlookup).1)
        fun key value hlookup => (ih (.key key) value hlookup).2
    · cases a with
      | bool b =>
        rw [readObservation, readObservation]
        exact .ok (.refl _)
      | list | object => cases hscalar
      | _ =>
        rw [readObservation.eq_def, readObservation.eq_def]
        exact .fail (.part .observation) (.refl _) Expected.lists_of_writes
    · rintro entries others rfl hab
      exact readObservation_object hab (fun key value hlookup => (ih (.key key) value hlookup).1)
        fun key value hlookup => (ih (.key key) value hlookup).2

theorem readValue_reads (a : Json) : Reads (.part .value) Value.toJson readValue a :=
  (readValue_reads_and_readObservation_reads a).1

theorem readObservation_reads (a : Json) : Reads (.part .observation) Observation.toJson readObservation a :=
  (readValue_reads_and_readObservation_reads a).2

section

variable {α : Type} {category : Expected} {write : α → Json} {read : Fallback → Path → Json → Except Unrecognized α}

/-- The items of two lists are read one by one. The lists are taken with the items before, so that the place
    of an item is an index. -/
theorem readItems_agree {items others : List Json} (hitems : List.Forall₂ Reordered items others)
    (hread : ∀ item ∈ items, Reads (.part category) write read item) (fallback other : Fallback) (path : Path)
    {place : Nat} {before before' : List Json} (hbefore : before.length = place) (hbefore' : before'.length = place) :
    Agree (.parts category) path (.list (before ++ items)) (.list (before' ++ others))
      (fun xs => List.Forall₂ Reordered items (xs.map write)) (readItems (read fallback) path place items)
      (readItems (read other) path place others) := by
  induction hitems generalizing place before before' with
  | nil => exact .ok .nil
  | @cons item item' items others hitem _ ih =>
    rw [List.forall_mem_cons] at hread
    have hchild : (Json.list (before ++ item :: items)).child? (.index place) = some item := by
      simp [Json.child?, ← hbefore]
    have hchild' : (Json.list (before' ++ item' :: others)).child? (.index place) = some item' := by
      simp [Json.child?, ← hbefore']
    have hrest := @ih hread.2 (place + 1) (before ++ [item]) (before' ++ [item']) (by simp [hbefore]) (by simp [hbefore'])
    simp only [List.append_assoc, List.singleton_append] at hrest
    refine .bind (.inside hchild' (.item hchild) (hread.1 item' hitem fallback other _)) fun x hx => ?_
    exact .map hrest fun xs hxs => .cons hx hxs

/-- A list is read if its items are. -/
theorem readList_reads {a : Json} (hread : ∀ place item, a.child? (.index place) = some item →
      Reads (.part category) write read item) :
    Reads (.parts category) (fun xs => .list (xs.map write)) (fun fallback => readList (read fallback)) a := by
  intro b hab fallback other path
  have hlist : (∀ items, a ≠ .list items) → ¬Expected.Writes .list a.head := Expected.not_writes_list
  cases a with
  | list items =>
    obtain ⟨others, rfl, hitems⟩ := hab.exists_items
    have hitem : ∀ item ∈ items, Reads (.part category) write read item := by
      intro item hmem
      obtain ⟨place, hplace⟩ := List.mem_iff_getElem?.1 hmem
      exact hread place item hplace
    have hagree := readItems_agree hitems hitem fallback other path List.length_nil List.length_nil
    exact hagree.imp fun xs hxs => .list_of_forall₂ hxs []
  | object entries =>
    obtain ⟨others, rfl, -⟩ := hab.exists_entries
    exact .fail (.parts category) hab (hlist nofun)
  | _ =>
    cases hab.eq_of_scalar rfl
    exact .fail (.parts category) hab (hlist nofun)

end

theorem readAction_reads : ∀ a, Reads (.part .action) Action.toJson readAction a := by
  refine reads_of_object (by decide) (fun _ => id) (fun _ _ json hother => ?_)
    fun entries others hab fallback other path => ?_
  · cases json with
    | object entries => exact (hother entries rfl).elim
    | _ => rfl
  rw [readAction, readAction, ← hab.shape_eq]
  cases hform : actionForms.find? (shape entries) with
  | none => exact .fail (.part .action) hab (Forms.not_writes_of_find?_eq_none rfl hform)
  | some kind =>
    have hmem := Forms.mem_of_find?_eq_some hform
    cases kind with
    | deposit =>
      have hshape : shape entries = ["deposits", "into_account", "of_token", "party"] := by
        simpa [actionForms] using hmem
      have hopened : Opened .action _ entries others := .of_shape hshape hab rfl
      refine .bind (hopened.entry rfl fun value _ => readParty_reads value) fun party hparty => ?_
      refine .bind (hopened.entry rfl fun value _ => readParty_reads value) fun into hinto => ?_
      refine .bind (hopened.entry rfl fun value _ => readToken_reads value) fun token htoken => ?_
      refine .map (hopened.entry rfl fun value _ => readValue_reads value) fun amount hamount => ?_
      exact hopened.document (by simp [hshape]) (by simp [hparty, hinto, htoken, hamount])
    | choice =>
      have hshape : shape entries = ["choose_between", "for_choice"] := by simpa [actionForms] using hmem
      have hopened : Opened .action _ entries others := .of_shape hshape hab rfl
      refine .bind (hopened.entry rfl fun value _ => readChoiceId_reads value) fun id hid => ?_
      refine .map (hopened.entry rfl fun value _ => readList_reads fun _ item _ => readBound_reads item)
        fun bounds hbounds => ?_
      exact hopened.document (by simp [hshape]) (by simp [hid, hbounds])
    | notify =>
      have hshape : shape entries = ["notify_if"] := by simpa [actionForms] using hmem
      have hopened : Opened .action _ entries others := .of_shape hshape hab rfl
      refine .map (hopened.entry rfl fun value _ => readObservation_reads value) fun observation hobservation => ?_
      exact hopened.document (by simp [hshape]) (by simp [hobservation])

theorem readCasesFrom_eq_readItems (fallback : Fallback) (path : Path) (place : Nat) (items : List Json) :
    readCasesFrom fallback path place items = readItems (readCase fallback) path place items := by
  induction items generalizing place with
  | nil => rw [readCasesFrom, readItems]
  | cons item items ih => rw [readCasesFrom, readItems, ih]

theorem readCases_eq_readList (fallback : Fallback) (path : Path) (json : Json) :
    readCases fallback path json = readList (readCase fallback) path json := by
  rw [readCases.eq_def]
  cases json with
  | list items => exact readCasesFrom_eq_readItems fallback path 0 items
  | _ => rfl

section

variable {entries others : List (String × Json)} (hab : Reordered (.object entries) (.object others))
  (hcontract : ∀ key value, entries.lookup key = some value →
    Reads (.part .contract) Contract.toJson readContract value)

include hab hcontract

/-- Objects are read as contracts, if what stands inside them is read. -/
theorem readContract_object (hcases : ∀ key value, entries.lookup key = some value →
      Reads (.parts .case) (fun cases => .list (Contract.casesToJson cases)) readCases value)
    (fallback other : Fallback) (path : Path) :
    Agree (.part .contract) path (.object entries) (.object others)
      (fun x => Reordered (.object entries) x.toJson) (readContract fallback path (.object entries))
      (readContract other path (.object others)) := by
  rw [readContract, readContract, ← hab.shape_eq]
  cases hform : contractForms.find? (shape entries) with
  | none => exact .fail (.part .contract) hab (Forms.not_writes_of_find?_eq_none rfl hform)
  | some kind =>
    have hmem := Forms.mem_of_find?_eq_some hform
    cases kind with
    | pay =>
      have hshape : shape entries = ["from_account", "pay", "then", "to", "token"] := by
        simpa [contractForms] using hmem
      have hopened : Opened .contract _ entries others := .of_shape hshape hab rfl
      refine .bind (hopened.entry rfl fun value _ => readParty_reads value) fun source hsource => ?_
      refine .bind (hopened.entry rfl fun value _ => readPayee_reads value) fun target htarget => ?_
      refine .bind (hopened.entry rfl fun value _ => readToken_reads value) fun token htoken => ?_
      refine .bind (hopened.entry rfl fun value _ => readValue_reads value) fun amount hamount => ?_
      refine .map (hopened.entry rfl (hcontract _)) fun next hnext => ?_
      rw [Contract.toJson]
      exact hopened.document (by simp [hshape]) (by simp [hsource, htarget, htoken, hamount, hnext])
    | branch =>
      have hshape : shape entries = ["else", "if", "then"] := by simpa [contractForms] using hmem
      have hopened : Opened .contract _ entries others := .of_shape hshape hab rfl
      refine .bind (hopened.entry rfl fun value _ => readObservation_reads value) fun condition hcondition => ?_
      refine .bind (hopened.entry rfl (hcontract _)) fun yes hyes => ?_
      refine .map (hopened.entry rfl (hcontract _)) fun no hno => ?_
      rw [Contract.toJson]
      exact hopened.document (by simp [hshape]) (by simp [hcondition, hyes, hno])
    | when =>
      have hshape : shape entries = ["timeout", "timeout_continuation", "when"] := by
        simpa [contractForms] using hmem
      have hopened : Opened .contract _ entries others := .of_shape hshape hab rfl
      refine .bind (hopened.entry rfl (hcases _)) fun cases hitems => ?_
      refine .bind (hopened.entry rfl fun value _ => readInteger_reads value) fun timeout htimeout => ?_
      refine .map (hopened.entry rfl (hcontract _)) fun after hafter => ?_
      rw [Contract.toJson]
      exact hopened.document (by simp [hshape]) (by simp [hitems, htimeout, hafter])
    | define =>
      have hshape : shape entries = ["be", "let", "then"] := by simpa [contractForms] using hmem
      have hopened : Opened .contract _ entries others := .of_shape hshape hab rfl
      refine .bind (hopened.entry rfl fun value _ => readString_reads value) fun name hname => ?_
      refine .bind (hopened.entry rfl fun value _ => readValue_reads value) fun value hvalue => ?_
      refine .map (hopened.entry rfl (hcontract _)) fun next hnext => ?_
      rw [Contract.toJson]
      exact hopened.document (by simp [hshape]) (by simp [hname, hvalue, hnext])
    | assert =>
      have hshape : shape entries = ["assert", "then"] := by simpa [contractForms] using hmem
      have hopened : Opened .contract _ entries others := .of_shape hshape hab rfl
      refine .bind (hopened.entry rfl fun value _ => readObservation_reads value) fun observation hobservation => ?_
      refine .map (hopened.entry rfl (hcontract _)) fun next hnext => ?_
      rw [Contract.toJson]
      exact hopened.document (by simp [hshape]) (by simp [hobservation, hnext])
    | close => simp [contractForms] at hmem

/-- Objects are read as cases, if what stands inside them is read. -/
theorem readCase_object (fallback other : Fallback) (path : Path) :
    Agree (.part .case) path (.object entries) (.object others) (fun x => Reordered (.object entries) x.toJson)
      (readCase fallback path (.object entries)) (readCase other path (.object others)) := by
  rw [readCase, readCase, ← hab.shape_eq]
  split
  · next hshape =>
    have hopened : Opened .case _ entries others := .of_shape hshape hab rfl
    refine .bind (hopened.entry rfl fun value _ => readAction_reads value) fun action haction => ?_
    refine .map (hopened.entry rfl (hcontract _)) fun next hnext => ?_
    rw [Case.toJson]
    exact hopened.document (by simp [hshape]) (by simp [haction, hnext])
  · next hshape =>
    exact .fail (.part .case) hab fun hwrites => hshape (List.mem_singleton.1 (Expected.lists_of_writes hwrites))

end

/-- Contracts, cases and lists of cases are read wherever they stand. -/
theorem readContract_reads_and_readCase_reads (a : Json) :
    Reads (.part .contract) Contract.toJson readContract a ∧ Reads (.part .case) Case.toJson readCase a ∧
      Reads (.parts .case) (fun cases => .list (Contract.casesToJson cases)) readCases a := by
  induction a using Json.induction_inside with
  | step a ih =>
    refine ⟨reads_of_cases (by decide) (fun _ _ _ => by rw [readContract.eq_def]) (fun hscalar fallback other path => ?_) ?_,
      reads_of_cases (by decide) (fun _ _ _ => by rw [readCase.eq_def]) (fun hscalar fallback other path => ?_) ?_, ?_⟩
    · cases a with
      | string s =>
        rw [readContract, readContract]
        split
        · next hclose => exact .ok (hclose ▸ .refl _)
        · next hclose =>
          exact .fail (.part .contract) (.refl _) fun hwrites => hclose (Expected.lists_of_writes hwrites)
      | list | object => cases hscalar
      | _ =>
        rw [readContract.eq_def, readContract.eq_def]
        exact .fail (.part .contract) (.refl _) Expected.lists_of_writes
    · rintro entries others rfl hab
      exact readContract_object hab (fun key value hlookup => (ih (.key key) value hlookup).1)
        fun key value hlookup => (ih (.key key) value hlookup).2.2
    · cases a with
      | list | object => cases hscalar
      | _ =>
        rw [readCase.eq_def, readCase.eq_def]
        exact .fail (.part .case) (.refl _) Expected.lists_of_writes
    · rintro entries others rfl hab
      exact readCase_object hab fun key value hlookup => (ih (.key key) value hlookup).1
    · have hlist := readList_reads fun place item hchild => (ih (.index place) item hchild).2.1
      simp only [Reads, readCases_eq_readList, Contract.casesToJson_eq_map]
      exact hlist

end ContractBlocks.Document
