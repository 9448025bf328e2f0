import ContractBlocks.Contract.Form
import ContractBlocks.Proofs.Contract.Documents
import ContractBlocks.Proofs.Json.Inside

namespace ContractBlocks

namespace Json

/-- What of a value can be seen without looking at what is inside it: all of a scalar, that a list is
    one, and the keys of an object in ascending order. -/
inductive Head
  | scalar (json : Json)
  | list
  | object (keys : List String)

/-- The head of a value. -/
@[simp] def head : Json → Head
  | .object entries => .object (shape entries)
  | .list _ => .list
  | scalar => .scalar scalar

/-- What a message says of a value: the keys of an object in ascending order, how long a list is, or
    the text of a scalar. -/
inductive DescribedAs : Json → String → Prop
  | object {entries : List (String × Json)} {keys : List String} (hkeys : keys.Perm (entries.map Prod.fst))
      (hascending : keys.Pairwise (· ≤ ·)) :
    DescribedAs (.object entries) ("object with keys \x7b" ++ ", ".intercalate keys ++ "\x7d")
  | list (items : List Json) : DescribedAs (.list items) ("list of " ++ Decimal.natText items.length)
  | scalar {json : Json} (hscalar : json.head = .scalar json) : DescribedAs json json.compact

theorem describedAs_describe (json : Json) : json.DescribedAs json.describe := by
  cases json with
  | object entries => exact .object (shape_perm entries) (pairwise_shape entries)
  | list items => exact .list items
  | _ => exact .scalar rfl

theorem describe_object (entries : List (String × Json)) :
    (Json.object entries).describe = "object with keys \x7b" ++ ", ".intercalate (shape entries) ++ "\x7d" :=
  rfl

theorem describe_list (items : List Json) :
    (Json.list items).describe = "list of " ++ Decimal.natText items.length :=
  rfl

theorem Reordered.head_eq {a b : Json} (h : Reordered a b) : a.head = b.head := by
  cases a with
  | object entries =>
    obtain ⟨others, rfl, hkeys, -⟩ := h.exists_entries
    rw [head, head, shape_eq_shape hkeys]
  | list items =>
    obtain ⟨others, rfl, -⟩ := h.exists_items
    rfl
  | _ => rw [h.eq_of_scalar rfl]

/-- What messages say of a value does not depend on the order of its keys. -/
theorem Reordered.describe_eq {a b : Json} (h : Reordered a b) : a.describe = b.describe := by
  cases a with
  | object entries =>
    obtain ⟨others, rfl, hkeys, -⟩ := h.exists_entries
    rw [describe_object, describe_object, shape_eq_shape hkeys]
  | list items =>
    obtain ⟨others, rfl, hitems⟩ := h.exists_items
    rw [describe_list, describe_list, hitems.length_eq]
  | _ => rw [h.eq_of_scalar rfl]

end Json

namespace Document

open Json (Head shape)

/-- What stands under a key: a part of some category, or a list of such parts. -/
inductive Content
  | part (category : Expected)
  | parts (category : Expected)

/-- What a message calls it. -/
def Content.expected : Content → Expected
  | .part category => category
  | .parts _ => .list

namespace Expected

/-- The objects that parts of a category are written as: their keys in ascending order, each with what
    stands under it. -/
def layouts : Expected → List (List (String × Content))
  | .contract =>
    [[("from_account", .part .party), ("pay", .part .value), ("then", .part .contract), ("to", .part .payee),
        ("token", .part .token)],
      [("else", .part .contract), ("if", .part .observation), ("then", .part .contract)],
      [("timeout", .part .integer), ("timeout_continuation", .part .contract), ("when", .parts .case)],
      [("be", .part .value), ("let", .part .string), ("then", .part .contract)],
      [("assert", .part .observation), ("then", .part .contract)]]
  | .case => [[("case", .part .action), ("then", .part .contract)]]
  | .action =>
    [[("deposits", .part .value), ("into_account", .part .party), ("of_token", .part .token),
        ("party", .part .party)],
      [("choose_between", .parts .bound), ("for_choice", .part .choiceId)],
      [("notify_if", .part .observation)]]
  | .bound => [[("from", .part .integer), ("to", .part .integer)]]
  | .choiceId => [[("choice_name", .part .string), ("choice_owner", .part .party)]]
  | .party => [[("role_token", .part .string)], [("address", .part .string)]]
  | .payee => [[("party", .part .party)], [("account", .part .party)]]
  | .token => [[("currency_symbol", .part .string), ("token_name", .part .string)]]
  | .value =>
    [[("amount_of_token", .part .token), ("in_account", .part .party)],
      [("add", .part .value), ("and", .part .value)],
      [("minus", .part .value), ("value", .part .value)],
      [("multiply", .part .value), ("times", .part .value)],
      [("by", .part .value), ("divide", .part .value)],
      [("negate", .part .value)],
      [("value_of_choice", .part .choiceId)],
      [("use_value", .part .string)],
      [("else", .part .value), ("if", .part .observation), ("then", .part .value)]]
  | .observation =>
    [[("and", .part .observation), ("both", .part .observation)],
      [("either", .part .observation), ("or", .part .observation)],
      [("not", .part .observation)],
      [("chose_something_for", .part .choiceId)],
      [("ge_than", .part .value), ("value", .part .value)],
      [("gt", .part .value), ("value", .part .value)],
      [("lt", .part .value), ("value", .part .value)],
      [("le_than", .part .value), ("value", .part .value)],
      [("equal_to", .part .value), ("value", .part .value)]]
  | .list | .string | .integer => []

/-- The layout with these keys. -/
def layout? (category : Expected) (keys : List String) : Option (List (String × Content)) :=
  category.layouts.find? fun layout => layout.map Prod.fst = keys

/-- What stands under a key of an object with that head. -/
def content? (category : Expected) : Head → String → Option Content
  | .object keys, key => (category.layout? keys).bind fun layout => layout.lookup key
  | _, _ => none

/-- The value is the document of a part of the category. -/
inductive IsDocument : Expected → Json → Prop
  | contract (contract : Contract) : IsDocument .contract contract.toJson
  | case (c : Case) : IsDocument .case c.toJson
  | action (action : Action) : IsDocument .action action.toJson
  | bound (bound : Bound) : IsDocument .bound bound.toJson
  | choiceId (choice : ChoiceId) : IsDocument .choiceId choice.toJson
  | party (party : Party) : IsDocument .party party.toJson
  | payee (payee : Payee) : IsDocument .payee payee.toJson
  | token (token : Token) : IsDocument .token token.toJson
  | value (value : Value) : IsDocument .value value.toJson
  | observation (observation : Observation) : IsDocument .observation observation.toJson
  | list (items : List Json) : IsDocument .list (.list items)
  | string (s : String) : IsDocument .string (.string s)
  | integer (n : Int64) : IsDocument .integer (.int64 n)

/-- Some part of the category is written as a value with that head. -/
def Writes (category : Expected) (head : Head) : Prop :=
  ∃ document, category.IsDocument document ∧ document.head = head

/-- The scalars that parts of a category are written as. -/
def WritesScalar : Expected → Json → Prop
  | .contract, .string s => s = "close"
  | .value, .string s => s = "time_interval_start" ∨ s = "time_interval_end"
  | .value, .number n => ∃ value, n = .ofInt64 value
  | .observation, .bool _ => True
  | .string, .string _ => True
  | .integer, .number n => ∃ value, n = .ofInt64 value
  | _, _ => False

/-- The heads of the documents of a category, listed. -/
def Lists (category : Expected) : Head → Prop
  | .scalar json => category.WritesScalar json
  | .list => category = .list
  | .object keys => keys ∈ category.layouts.map fun layout => layout.map Prod.fst

theorem lists_of_writes {category : Expected} {head : Head} (h : category.Writes head) : category.Lists head := by
  obtain ⟨document, hdocument, rfl⟩ := h
  cases hdocument with
  | contract contract =>
    cases contract <;> simp [Contract.toJson, Lists, WritesScalar, layouts]
  | case c =>
    obtain ⟨action, next⟩ := c
    simp [Case.toJson, Lists, layouts]
  | action action => cases action <;> simp [Action.toJson, Lists, layouts]
  | bound bound => simp [Bound.toJson, Lists, layouts]
  | choiceId choice => simp [ChoiceId.toJson, Lists, layouts]
  | party party => cases party <;> simp [Party.toJson, Lists, layouts]
  | payee payee => cases payee <;> simp [Payee.toJson, Lists, layouts]
  | token token => simp [Token.toJson, Lists, layouts]
  | value value =>
    cases value with
    | constant n => exact ⟨n, rfl⟩
    | arithmetic op lhs rhs =>
      cases op <;> simp [Value.toJson, Arithmetic.keys, Lists, layouts]
    | _ => simp [Value.toJson, Lists, WritesScalar, layouts]
  | observation observation =>
    cases observation with
    | connective op lhs rhs =>
      cases op <;> simp [Observation.toJson, Connective.keys, Lists, layouts]
    | comparison op lhs rhs =>
      cases op <;> simp [Observation.toJson, Comparison.key, Lists, layouts]
    | _ => simp [Observation.toJson, Lists, WritesScalar, layouts]
  | list items => rfl
  | string s => trivial
  | integer n => exact ⟨n, rfl⟩

/-- Every layout is that of some document. -/
theorem writes_of_mem_layouts {category : Expected} {layout : List (String × Content)}
    (h : layout ∈ category.layouts) : category.Writes (.object (layout.map Prod.fst)) := by
  let party : Party := .role ""
  let token : Token := ⟨"", ""⟩
  let choice : ChoiceId := ⟨"", party⟩
  let observation : Observation := .literal true
  cases category with
  | contract =>
    simp only [layouts, List.mem_cons, List.not_mem_nil, or_false] at h
    rcases h with rfl | rfl | rfl | rfl | rfl
    · exact ⟨_, .contract (.pay party (.party party) token .timeStart .close), by simp [Contract.toJson]⟩
    · exact ⟨_, .contract (.branch observation .close .close), by simp [Contract.toJson]⟩
    · exact ⟨_, .contract (.when [] 0 .close), by simp [Contract.toJson]⟩
    · exact ⟨_, .contract (.define "" .timeStart .close), by simp [Contract.toJson]⟩
    · exact ⟨_, .contract (.assert observation .close), by simp [Contract.toJson]⟩
  | case =>
    cases List.mem_singleton.1 h
    exact ⟨_, .case (.mk (.notify observation) .close), by simp [Case.toJson]⟩
  | action =>
    simp only [layouts, List.mem_cons, List.not_mem_nil, or_false] at h
    rcases h with rfl | rfl | rfl
    · exact ⟨_, .action (.deposit party party token .timeStart), by simp [Action.toJson]⟩
    · exact ⟨_, .action (.choice choice []), by simp [Action.toJson]⟩
    · exact ⟨_, .action (.notify observation), by simp [Action.toJson]⟩
  | bound =>
    cases List.mem_singleton.1 h
    exact ⟨_, .bound ⟨0, 0⟩, by simp [Bound.toJson]⟩
  | choiceId =>
    cases List.mem_singleton.1 h
    exact ⟨_, .choiceId choice, by simp [ChoiceId.toJson]⟩
  | party =>
    simp only [layouts, List.mem_cons, List.not_mem_nil, or_false] at h
    rcases h with rfl | rfl
    · exact ⟨_, .party (.role ""), by simp [Party.toJson]⟩
    · exact ⟨_, .party (.address ""), by simp [Party.toJson]⟩
  | payee =>
    simp only [layouts, List.mem_cons, List.not_mem_nil, or_false] at h
    rcases h with rfl | rfl
    · exact ⟨_, .payee (.party party), by simp [Payee.toJson]⟩
    · exact ⟨_, .payee (.account party), by simp [Payee.toJson]⟩
  | token =>
    cases List.mem_singleton.1 h
    exact ⟨_, .token token, by simp [Token.toJson]⟩
  | value =>
    have harithmetic (op : Arithmetic) : Writes .value (.object (Json.insertKey op.keys.1 [op.keys.2])) :=
      ⟨_, .value (.arithmetic op .timeStart .timeStart), by simp [Value.toJson]⟩
    simp only [layouts, List.mem_cons, List.not_mem_nil, or_false] at h
    rcases h with rfl | rfl | rfl | rfl | rfl | rfl | rfl | rfl | rfl
    · exact ⟨_, .value (.availableMoney token party), by simp [Value.toJson]⟩
    · simpa [Arithmetic.keys] using harithmetic .add
    · simpa [Arithmetic.keys] using harithmetic .sub
    · simpa [Arithmetic.keys] using harithmetic .mul
    · simpa [Arithmetic.keys] using harithmetic .div
    · exact ⟨_, .value (.negate .timeStart), by simp [Value.toJson]⟩
    · exact ⟨_, .value (.choiceValue choice), by simp [Value.toJson]⟩
    · exact ⟨_, .value (.useValue ""), by simp [Value.toJson]⟩
    · exact ⟨_, .value (.conditional observation .timeStart .timeStart), by simp [Value.toJson]⟩
  | observation =>
    have hconnective (op : Connective) : Writes .observation (.object (Json.insertKey op.keys.1 [op.keys.2])) :=
      ⟨_, .observation (.connective op observation observation), by simp [Observation.toJson]⟩
    have hcomparison (op : Comparison) : Writes .observation (.object (Json.insertKey "value" [op.key])) :=
      ⟨_, .observation (.comparison op .timeStart .timeStart), by simp [Observation.toJson]⟩
    simp only [layouts, List.mem_cons, List.not_mem_nil, or_false] at h
    rcases h with rfl | rfl | rfl | rfl | rfl | rfl | rfl | rfl | rfl
    · simpa [Connective.keys] using hconnective .and
    · simpa [Connective.keys] using hconnective .or
    · exact ⟨_, .observation (.not observation), by simp [Observation.toJson]⟩
    · exact ⟨_, .observation (.choseSomething choice), by simp [Observation.toJson]⟩
    · simpa [Comparison.key] using hcomparison .ge
    · simpa [Comparison.key] using hcomparison .gt
    · simpa [Comparison.key] using hcomparison .lt
    · simpa [Comparison.key] using hcomparison .le
    · simpa [Comparison.key] using hcomparison .eq
  | list | string | integer => cases h

variable {category : Expected} {json : Json} {keys : List String} {layout : List (String × Content)}

theorem map_fst_of_layout? (h : category.layout? keys = some layout) : layout.map Prod.fst = keys := by
  simpa using List.find?_some h

theorem writes_of_layout? (h : category.layout? keys = some layout) : category.Writes (.object keys) :=
  map_fst_of_layout? h ▸ writes_of_mem_layouts (List.mem_of_find?_eq_some h)

theorem nodup_of_layout? (h : category.layout? keys = some layout) : keys.Nodup := by
  have hlayouts : ∀ layout ∈ category.layouts, (layout.map Prod.fst).Nodup := by
    cases category <;> simp [layouts]
  exact map_fst_of_layout? h ▸ hlayouts layout (List.mem_of_find?_eq_some h)

/-- Where no part of a category is written as a scalar or a list, all are written as objects. -/
theorem not_writes_of_ne_object (hscalar : ∀ scalar, ¬category.WritesScalar scalar) (hlist : category ≠ .list)
    (h : ∀ entries, json ≠ .object entries) : ¬category.Writes json.head := by
  intro hwrites
  have hlists := lists_of_writes hwrites
  cases json with
  | object entries => exact h entries rfl
  | list items => exact hlist hlists
  | _ => exact hscalar _ hlists

theorem not_writes_integer {n : Json.Number} (h : n.int64? = none) : ¬Writes .integer (Json.number n).head := by
  intro hwrites
  obtain ⟨value, rfl⟩ := lists_of_writes hwrites
  have hlt : value.toInt < 0x8000000000000000 := value.toInt_lt
  simp [Json.Number.ofInt64, Json.Number.int64?, hlt] at h

theorem not_writes_list (h : ∀ items, json ≠ .list items) : ¬Writes .list json.head := by
  intro hwrites
  have hlists := lists_of_writes hwrites
  cases json with
  | list items => exact h items rfl
  | object entries => cases hlists
  | _ => exact hlists

end Expected

end Document

end ContractBlocks
