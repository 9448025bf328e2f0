import ContractBlocks.Proofs.Compile.Denotes
import ContractBlocks.Proofs.Compile.Violations
import Mathlib.Data.List.Forall2

namespace ContractBlocks

/-- What a place on a block contributes to the part that the block denotes. -/
inductive Content
  | text (text : String)
  | number (n : Int64)
  | part (part : Part)
  | parts (parts : List Part)

namespace Part

/-- The category of the blocks that denote a part. -/
def category : Part → Category
  | .contract _ => .contract
  | .case _ => .case
  | .action _ => .action
  | .bound _ => .bound
  | .choiceId _ => .choiceId
  | .party _ => .party
  | .payee _ => .payee
  | .token _ => .token
  | .value _ => .value
  | .observation _ => .observation

/-- The kind of the blocks that denote a part. -/
def kind : Part → Kind
  | .contract .close => .contract .close
  | .contract (.pay ..) => .contract .pay
  | .contract (.branch ..) => .contract .branch
  | .contract (.when ..) => .contract .when
  | .contract (.define ..) => .contract .define
  | .contract (.assert ..) => .contract .assert
  | .case _ => .case
  | .action (.deposit ..) => .action .deposit
  | .action (.choice ..) => .action .choice
  | .action (.notify _) => .action .notify
  | .bound _ => .bound
  | .choiceId _ => .choiceId
  | .party (.role _) => .party .role
  | .party (.address _) => .party .address
  | .payee (.party _) => .payee .party
  | .payee (.account _) => .payee .account
  | .token _ => .token
  | .value (.constant _) => .value .constant
  | .value (.availableMoney ..) => .value .availableMoney
  | .value (.arithmetic op ..) => .value (.arithmetic op)
  | .value (.negate _) => .value .negate
  | .value (.choiceValue _) => .value .choiceValue
  | .value .timeStart => .value .timeStart
  | .value .timeEnd => .value .timeEnd
  | .value (.useValue _) => .value .useValue
  | .value (.conditional ..) => .value .conditional
  | .observation (.literal b) => .observation (.literal b)
  | .observation (.connective op ..) => .observation (.connective op)
  | .observation (.not _) => .observation .not
  | .observation (.choseSomething _) => .observation .choseSomething
  | .observation (.comparison op ..) => .observation (.comparison op)

/-- The contents that a part is put together from, in the order of the places on its block. -/
def contents : Part → List Content
  | .contract .close => []
  | .contract (.pay p q t v c) =>
    [.part (.party p), .part (.payee q), .part (.token t), .part (.value v), .part (.contract c)]
  | .contract (.branch o c d) => [.part (.observation o), .part (.contract c), .part (.contract d)]
  | .contract (.when cases timeout c) =>
    [.parts (cases.map .case), .number timeout, .part (.contract c)]
  | .contract (.define name v c) => [.text name, .part (.value v), .part (.contract c)]
  | .contract (.assert o c) => [.part (.observation o), .part (.contract c)]
  | .case (.mk a c) => [.part (.action a), .part (.contract c)]
  | .action (.deposit p q t v) =>
    [.part (.party p), .part (.party q), .part (.token t), .part (.value v)]
  | .action (.choice i bounds) => [.part (.choiceId i), .parts (bounds.map .bound)]
  | .action (.notify o) => [.part (.observation o)]
  | .bound ⟨low, high⟩ => [.number low, .number high]
  | .choiceId ⟨name, p⟩ => [.text name, .part (.party p)]
  | .party (.role name) => [.text name]
  | .party (.address text) => [.text text]
  | .payee (.party p) => [.part (.party p)]
  | .payee (.account p) => [.part (.party p)]
  | .token ⟨currency, name⟩ => [.text currency, .text name]
  | .value (.constant n) => [.number n]
  | .value (.availableMoney t p) => [.part (.token t), .part (.party p)]
  | .value (.arithmetic _ v w) => [.part (.value v), .part (.value w)]
  | .value (.negate v) => [.part (.value v)]
  | .value (.choiceValue i) => [.part (.choiceId i)]
  | .value .timeStart => []
  | .value .timeEnd => []
  | .value (.useValue name) => [.text name]
  | .value (.conditional o v w) => [.part (.observation o), .part (.value v), .part (.value w)]
  | .observation (.literal _) => []
  | .observation (.connective _ o u) => [.part (.observation o), .part (.observation u)]
  | .observation (.not o) => [.part (.observation o)]
  | .observation (.choseSomething i) => [.part (.choiceId i)]
  | .observation (.comparison _ v w) => [.part (.value v), .part (.value w)]

theorem category_kind (part : Part) : part.kind.category = part.category := by
  unfold kind category
  split <;> rfl

theorem map_case_inj {cases others : List Case} : cases.map case = others.map case ↔ cases = others :=
  List.map_inj_right fun _ _ => Part.case.inj

theorem map_bound_inj {bounds others : List Bound} : bounds.map bound = others.map bound ↔ bounds = others :=
  List.map_inj_right fun _ _ => Part.bound.inj

/-- Nothing of a part is in neither its kind nor its contents. -/
theorem eq_of_contents {part other : Part} (hkind : part.kind = other.kind)
    (hcontents : part.contents = other.contents) : part = other := by
  have hcategory : part.category = other.category := by
    rw [← category_kind, hkind, category_kind]
  -- Parts of two categories or two kinds go first, so that only equal constructors are left.
  cases part <;> cases other <;> first | (cases hcategory; done) | rename_i a b
  all_goals cases a <;> cases b <;> first | (cases hkind; done) | skip
  all_goals simp_all [kind, contents, map_case_inj, map_bound_inj]

end Part

namespace Source

variable {S : Source}

/-- A place on a block has a content, where `R` says which parts the blocks inside denote. -/
def Holds (S : Source) (R : NodeId → Part → Prop) (node : NodeId) : Place → Content → Prop
  | .field ⟨name, .text⟩, .text text => S.text? node name = some text
  | .field ⟨name, .number⟩, .number n => S.integer? node name = some n
  | .child slot, .part part =>
    part.category = slot.category ∧ ∃ child, S.slot node slot.name = some child ∧ R child part
  | .chain slot inner, .parts parts =>
    (∀ part ∈ parts, part.category = inner) ∧
      ∃ nodes, S.ChainFrom (S.slot node slot) nodes ∧ List.Forall₂ R nodes parts
  | _, _ => False

namespace Holds

variable {R Q : NodeId → Part → Prop} {node : NodeId}

theorem child {slot : String} {category : Category} {inner : NodeId} {part : Part}
    (hslot : S.slot node slot = some inner) (hpart : R inner part) (hcategory : part.category = category) :
    S.Holds R node (.child (Grammar.slot slot category)) (.part part) :=
  ⟨hcategory, inner, hslot, hpart⟩

theorem chain {α : Type} {make : α → Part} {slot : String} {category : Category} {nodes : List NodeId}
    {results : List α} (hchain : S.ChainFrom (S.slot node slot) nodes)
    (hlength : nodes.length = results.length) (hpart : ∀ pair ∈ nodes.zip results, R pair.1 (make pair.2))
    (hcategory : ∀ a, (make a).category = category) :
    S.Holds R node (.chain slot category) (.parts (results.map make)) := by
  refine ⟨?_, nodes, hchain, ?_⟩
  · simpa using fun a _ => hcategory a
  · rw [List.forall₂_map_right_iff, List.forall₂_iff_zip]
    exact ⟨hlength, fun {a b} hpair => hpart (a, b) hpair⟩

end Holds

/-- Induction over a derivation without a case for each kind: a fact passes from the blocks inside to
    the block around them once this follows from the contents of its places. -/
theorem Denotes.induct_contents {motive : NodeId → Part → Prop}
    (step : ∀ {node : NodeId} {part : Part}, S.kind node = some part.kind →
      List.Forall₂ (S.Holds (fun inner part => S.Denotes inner part ∧ motive inner part) node)
        part.kind.places part.contents → motive node part)
    {node : NodeId} {part : Part} (h : S.Denotes node part) : motive node part := by
  induction h with
  | close hkind => exact step hkind .nil
  | pay hkind hsource hp htarget hq htoken ht hamount hv hnext hc ihp ihq iht ihv ihc =>
    exact step hkind (.cons (.child hsource ⟨hp, ihp⟩ rfl) <| .cons (.child htarget ⟨hq, ihq⟩ rfl) <|
      .cons (.child htoken ⟨ht, iht⟩ rfl) <| .cons (.child hamount ⟨hv, ihv⟩ rfl) <|
      .cons (.child hnext ⟨hc, ihc⟩ rfl) .nil)
  | branch hkind hcondition ho hyes hc hno hd iho ihc ihd =>
    exact step hkind (.cons (.child hcondition ⟨ho, iho⟩ rfl) <| .cons (.child hyes ⟨hc, ihc⟩ rfl) <|
      .cons (.child hno ⟨hd, ihd⟩ rfl) .nil)
  | when hkind hchain hlength hcases htimeout hafter hc ihcases ihc =>
    have hboth := fun pair hpair => And.intro (hcases pair hpair) (ihcases pair hpair)
    exact step hkind (.cons (.chain hchain hlength hboth fun _ => rfl) <| .cons htimeout <|
      .cons (.child hafter ⟨hc, ihc⟩ rfl) .nil)
  | define hkind hname hvalue hv hnext hc ihv ihc =>
    exact step hkind (.cons hname <| .cons (.child hvalue ⟨hv, ihv⟩ rfl) <|
      .cons (.child hnext ⟨hc, ihc⟩ rfl) .nil)
  | assert hkind hobservation ho hnext hc iho ihc =>
    exact step hkind (.cons (.child hobservation ⟨ho, iho⟩ rfl) <| .cons (.child hnext ⟨hc, ihc⟩ rfl) .nil)
  | case hkind haction ha hnext hc iha ihc =>
    exact step hkind (.cons (.child haction ⟨ha, iha⟩ rfl) <| .cons (.child hnext ⟨hc, ihc⟩ rfl) .nil)
  | deposit hkind hparty hp hinto hq htoken ht hamount hv ihp ihq iht ihv =>
    exact step hkind (.cons (.child hparty ⟨hp, ihp⟩ rfl) <| .cons (.child hinto ⟨hq, ihq⟩ rfl) <|
      .cons (.child htoken ⟨ht, iht⟩ rfl) <| .cons (.child hamount ⟨hv, ihv⟩ rfl) .nil)
  | choice hkind hchoice hi hchain hlength hbounds ihi ihbounds =>
    have hboth := fun pair hpair => And.intro (hbounds pair hpair) (ihbounds pair hpair)
    exact step hkind (.cons (.child hchoice ⟨hi, ihi⟩ rfl) <|
      .cons (.chain hchain hlength hboth fun _ => rfl) .nil)
  | notify hkind hobservation ho iho =>
    exact step hkind (.cons (.child hobservation ⟨ho, iho⟩ rfl) .nil)
  | bound hkind hlow hhigh => exact step hkind (.cons hlow <| .cons hhigh .nil)
  | choiceId hkind hname howner hp ihp =>
    exact step hkind (.cons hname <| .cons (.child howner ⟨hp, ihp⟩ rfl) .nil)
  | role hkind hname => exact step hkind (.cons hname .nil)
  | address hkind htext => exact step hkind (.cons htext .nil)
  | payeeParty hkind hparty hp ihp => exact step hkind (.cons (.child hparty ⟨hp, ihp⟩ rfl) .nil)
  | payeeAccount hkind hparty hp ihp => exact step hkind (.cons (.child hparty ⟨hp, ihp⟩ rfl) .nil)
  | token hkind hcurrency hname => exact step hkind (.cons hcurrency <| .cons hname .nil)
  | constant hkind hvalue => exact step hkind (.cons hvalue .nil)
  | availableMoney hkind htoken ht haccount hp iht ihp =>
    exact step hkind (.cons (.child htoken ⟨ht, iht⟩ rfl) <| .cons (.child haccount ⟨hp, ihp⟩ rfl) .nil)
  | arithmetic hkind hlhs hv hrhs hw ihv ihw =>
    exact step hkind (Kind.places_arithmetic _ ▸
      .cons (.child hlhs ⟨hv, ihv⟩ rfl) (.cons (.child hrhs ⟨hw, ihw⟩ rfl) .nil))
  | negate hkind hvalue hv ihv => exact step hkind (.cons (.child hvalue ⟨hv, ihv⟩ rfl) .nil)
  | choiceValue hkind hchoice hi ihi => exact step hkind (.cons (.child hchoice ⟨hi, ihi⟩ rfl) .nil)
  | timeStart hkind => exact step hkind .nil
  | timeEnd hkind => exact step hkind .nil
  | useValue hkind hname => exact step hkind (.cons hname .nil)
  | conditional hkind hcondition ho hyes hv hno hw iho ihv ihw =>
    exact step hkind (.cons (.child hcondition ⟨ho, iho⟩ rfl) <| .cons (.child hyes ⟨hv, ihv⟩ rfl) <|
      .cons (.child hno ⟨hw, ihw⟩ rfl) .nil)
  | literal hkind => exact step hkind (Kind.places_literal _ ▸ .nil)
  | connective hkind hlhs ho hrhs hu iho ihu =>
    exact step hkind (Kind.places_connective _ ▸
      .cons (.child hlhs ⟨ho, iho⟩ rfl) (.cons (.child hrhs ⟨hu, ihu⟩ rfl) .nil))
  | not hkind hobservation ho iho =>
    exact step hkind (.cons (.child hobservation ⟨ho, iho⟩ rfl) .nil)
  | choseSomething hkind hchoice hi ihi =>
    exact step hkind (.cons (.child hchoice ⟨hi, ihi⟩ rfl) .nil)
  | comparison hkind hlhs hv hrhs hw ihv ihw =>
    exact step hkind (Kind.places_comparison _ ▸
      .cons (.child hlhs ⟨hv, ihv⟩ rfl) (.cons (.child hrhs ⟨hw, ihw⟩ rfl) .nil))

theorem Holds.mono {R Q : NodeId → Part → Prop} {node : NodeId} {place : Place} {content : Content}
    (himp : ∀ inner part, R inner part → Q inner part) (h : S.Holds R node place content) :
    S.Holds Q node place content := by
  unfold Holds at h ⊢
  split at h
  · exact h
  · exact h
  · obtain ⟨hcategory, child, hslot, hpart⟩ := h
    exact ⟨hcategory, child, hslot, himp _ _ hpart⟩
  · obtain ⟨hcategory, nodes, hchain, hparts⟩ := h
    exact ⟨hcategory, nodes, hchain, hparts.imp himp⟩
  · exact h.elim

/-- The contents of the places on a block that denotes a part. -/
theorem Denotes.holds {node : NodeId} {part : Part} (h : S.Denotes node part) :
    S.kind node = some part.kind ∧
      List.Forall₂ (S.Holds S.Denotes node) part.kind.places part.contents :=
  h.induct_contents (motive := fun node part => S.kind node = some part.kind ∧
      List.Forall₂ (S.Holds S.Denotes node) part.kind.places part.contents) fun hkind hholds =>
    ⟨hkind, hholds.imp fun _ _ => Holds.mono fun _ _ => And.left⟩

/-- The elements of the chain in a place whose content is a list of results. -/
theorem Holds.exists_nodes {α : Type} {R : NodeId → Part → Prop} {make : α → Part} {node : NodeId}
    {slot : String} {category : Category} {results : List α}
    (hholds : S.Holds R node (.chain slot category) (.parts (results.map make))) :
    ∃ nodes, S.ChainFrom (S.slot node slot) nodes ∧ nodes.length = results.length ∧
      ∀ pair ∈ nodes.zip results, R pair.1 (make pair.2) := by
  obtain ⟨-, nodes, hchain, hparts⟩ := hholds
  rw [List.forall₂_map_right_iff, List.forall₂_iff_zip] at hparts
  exact ⟨nodes, hchain, hparts.1, fun pair hpair => hparts.2 hpair⟩

/-- A block of the kind of a part denotes the part once its places hold the contents of the part. -/
theorem denotes_of_holds {node : NodeId} {part : Part} (hkind : S.kind node = some part.kind)
    (hholds : List.Forall₂ (S.Holds S.Denotes node) part.kind.places part.contents) :
    S.Denotes node part := by
  match part with
  | .contract .close => exact .close hkind
  | .contract (.pay ..) =>
    obtain ⟨⟨-, _, hsource, hp⟩, hholds⟩ := List.forall₂_cons.1 hholds
    obtain ⟨⟨-, _, htarget, hq⟩, hholds⟩ := List.forall₂_cons.1 hholds
    obtain ⟨⟨-, _, htoken, ht⟩, hholds⟩ := List.forall₂_cons.1 hholds
    obtain ⟨⟨-, _, hamount, hv⟩, hholds⟩ := List.forall₂_cons.1 hholds
    obtain ⟨⟨-, _, hnext, hc⟩, -⟩ := List.forall₂_cons.1 hholds
    exact .pay hkind hsource hp htarget hq htoken ht hamount hv hnext hc
  | .contract (.branch ..) =>
    obtain ⟨⟨-, _, hcondition, ho⟩, hholds⟩ := List.forall₂_cons.1 hholds
    obtain ⟨⟨-, _, hyes, hc⟩, hholds⟩ := List.forall₂_cons.1 hholds
    obtain ⟨⟨-, _, hno, hd⟩, -⟩ := List.forall₂_cons.1 hholds
    exact .branch hkind hcondition ho hyes hc hno hd
  | .contract (.when ..) =>
    obtain ⟨hchain, hholds⟩ := List.forall₂_cons.1 hholds
    obtain ⟨nodes, hchain, hlength, hcases⟩ := hchain.exists_nodes
    obtain ⟨htimeout, hholds⟩ := List.forall₂_cons.1 hholds
    obtain ⟨⟨-, _, hafter, hc⟩, -⟩ := List.forall₂_cons.1 hholds
    exact .when hkind hchain hlength hcases htimeout hafter hc
  | .contract (.define ..) =>
    obtain ⟨hname, hholds⟩ := List.forall₂_cons.1 hholds
    obtain ⟨⟨-, _, hvalue, hv⟩, hholds⟩ := List.forall₂_cons.1 hholds
    obtain ⟨⟨-, _, hnext, hc⟩, -⟩ := List.forall₂_cons.1 hholds
    exact .define hkind hname hvalue hv hnext hc
  | .contract (.assert ..) =>
    obtain ⟨⟨-, _, hobservation, ho⟩, hholds⟩ := List.forall₂_cons.1 hholds
    obtain ⟨⟨-, _, hnext, hc⟩, -⟩ := List.forall₂_cons.1 hholds
    exact .assert hkind hobservation ho hnext hc
  | .case (.mk ..) =>
    obtain ⟨⟨-, _, haction, ha⟩, hholds⟩ := List.forall₂_cons.1 hholds
    obtain ⟨⟨-, _, hnext, hc⟩, -⟩ := List.forall₂_cons.1 hholds
    exact .case hkind haction ha hnext hc
  | .action (.deposit ..) =>
    obtain ⟨⟨-, _, hparty, hp⟩, hholds⟩ := List.forall₂_cons.1 hholds
    obtain ⟨⟨-, _, hinto, hq⟩, hholds⟩ := List.forall₂_cons.1 hholds
    obtain ⟨⟨-, _, htoken, ht⟩, hholds⟩ := List.forall₂_cons.1 hholds
    obtain ⟨⟨-, _, hamount, hv⟩, -⟩ := List.forall₂_cons.1 hholds
    exact .deposit hkind hparty hp hinto hq htoken ht hamount hv
  | .action (.choice ..) =>
    obtain ⟨⟨-, _, hchoice, hi⟩, hholds⟩ := List.forall₂_cons.1 hholds
    obtain ⟨hchain, -⟩ := List.forall₂_cons.1 hholds
    obtain ⟨nodes, hchain, hlength, hbounds⟩ := hchain.exists_nodes
    exact .choice hkind hchoice hi hchain hlength hbounds
  | .action (.notify _) =>
    obtain ⟨⟨-, _, hobservation, ho⟩, -⟩ := List.forall₂_cons.1 hholds
    exact .notify hkind hobservation ho
  | .bound ⟨_, _⟩ =>
    obtain ⟨hlow, hholds⟩ := List.forall₂_cons.1 hholds
    obtain ⟨hhigh, -⟩ := List.forall₂_cons.1 hholds
    exact .bound hkind hlow hhigh
  | .choiceId ⟨_, _⟩ =>
    obtain ⟨hname, hholds⟩ := List.forall₂_cons.1 hholds
    obtain ⟨⟨-, _, howner, hp⟩, -⟩ := List.forall₂_cons.1 hholds
    exact .choiceId hkind hname howner hp
  | .party (.role _) =>
    obtain ⟨hname, -⟩ := List.forall₂_cons.1 hholds
    exact .role hkind hname
  | .party (.address _) =>
    obtain ⟨htext, -⟩ := List.forall₂_cons.1 hholds
    exact .address hkind htext
  | .payee (.party _) =>
    obtain ⟨⟨-, _, hparty, hp⟩, -⟩ := List.forall₂_cons.1 hholds
    exact .payeeParty hkind hparty hp
  | .payee (.account _) =>
    obtain ⟨⟨-, _, hparty, hp⟩, -⟩ := List.forall₂_cons.1 hholds
    exact .payeeAccount hkind hparty hp
  | .token ⟨_, _⟩ =>
    obtain ⟨hcurrency, hholds⟩ := List.forall₂_cons.1 hholds
    obtain ⟨hname, -⟩ := List.forall₂_cons.1 hholds
    exact .token hkind hcurrency hname
  | .value (.constant _) =>
    obtain ⟨hvalue, -⟩ := List.forall₂_cons.1 hholds
    exact .constant hkind hvalue
  | .value (.availableMoney ..) =>
    obtain ⟨⟨-, _, htoken, ht⟩, hholds⟩ := List.forall₂_cons.1 hholds
    obtain ⟨⟨-, _, haccount, hp⟩, -⟩ := List.forall₂_cons.1 hholds
    exact .availableMoney hkind htoken ht haccount hp
  | .value (.arithmetic op ..) =>
    replace hholds := Kind.places_arithmetic op ▸ hholds
    obtain ⟨⟨-, _, hlhs, hv⟩, hholds⟩ := List.forall₂_cons.1 hholds
    obtain ⟨⟨-, _, hrhs, hw⟩, -⟩ := List.forall₂_cons.1 hholds
    exact .arithmetic hkind hlhs hv hrhs hw
  | .value (.negate _) =>
    obtain ⟨⟨-, _, hvalue, hv⟩, -⟩ := List.forall₂_cons.1 hholds
    exact .negate hkind hvalue hv
  | .value (.choiceValue _) =>
    obtain ⟨⟨-, _, hchoice, hi⟩, -⟩ := List.forall₂_cons.1 hholds
    exact .choiceValue hkind hchoice hi
  | .value .timeStart => exact .timeStart hkind
  | .value .timeEnd => exact .timeEnd hkind
  | .value (.useValue _) =>
    obtain ⟨hname, -⟩ := List.forall₂_cons.1 hholds
    exact .useValue hkind hname
  | .value (.conditional ..) =>
    obtain ⟨⟨-, _, hcondition, ho⟩, hholds⟩ := List.forall₂_cons.1 hholds
    obtain ⟨⟨-, _, hyes, hv⟩, hholds⟩ := List.forall₂_cons.1 hholds
    obtain ⟨⟨-, _, hno, hw⟩, -⟩ := List.forall₂_cons.1 hholds
    exact .conditional hkind hcondition ho hyes hv hno hw
  | .observation (.literal _) => exact .literal hkind
  | .observation (.connective op ..) =>
    replace hholds := Kind.places_connective op ▸ hholds
    obtain ⟨⟨-, _, hlhs, ho⟩, hholds⟩ := List.forall₂_cons.1 hholds
    obtain ⟨⟨-, _, hrhs, hu⟩, -⟩ := List.forall₂_cons.1 hholds
    exact .connective hkind hlhs ho hrhs hu
  | .observation (.not _) =>
    obtain ⟨⟨-, _, hobservation, ho⟩, -⟩ := List.forall₂_cons.1 hholds
    exact .not hkind hobservation ho
  | .observation (.choseSomething _) =>
    obtain ⟨⟨-, _, hchoice, hi⟩, -⟩ := List.forall₂_cons.1 hholds
    exact .choseSomething hkind hchoice hi
  | .observation (.comparison op ..) =>
    replace hholds := Kind.places_comparison op ▸ hholds
    obtain ⟨⟨-, _, hlhs, hv⟩, hholds⟩ := List.forall₂_cons.1 hholds
    obtain ⟨⟨-, _, hrhs, hw⟩, -⟩ := List.forall₂_cons.1 hholds
    exact .comparison hkind hlhs hv hrhs hw

theorem forall₂_right_unique {α β : Type} {R Q : α → β → Prop} {as : List α} {bs cs : List β}
    (honly : ∀ a b c, R a b → Q a c → b = c) (hbs : List.Forall₂ R as bs) (hcs : List.Forall₂ Q as cs) :
    bs = cs := by
  induction hbs generalizing cs with
  | nil => cases hcs; rfl
  | cons hb _ ih =>
    cases hcs with
    | cons hc htail => rw [honly _ _ _ hb hc, ih htail]

/-- A place has one content, if the blocks inside denote one part each. -/
theorem Holds.unique {R Q : NodeId → Part → Prop} {node : NodeId} {place : Place} {content other : Content}
    (honly : ∀ inner part part', R inner part → Q inner part' → part = part')
    (h : S.Holds R node place content) (hother : S.Holds Q node place other) : content = other := by
  unfold Holds at h
  split at h
  · cases other <;> first | exact hother.elim | skip
    rw [Option.some.inj (h.symm.trans hother)]
  · cases other <;> first | exact hother.elim | skip
    rw [Option.some.inj (h.symm.trans hother)]
  · cases other <;> first | exact hother.elim | skip
    obtain ⟨-, child, hslot, hpart⟩ := h
    obtain ⟨-, child', hslot', hpart'⟩ := hother
    cases hslot.symm.trans hslot'
    rw [honly _ _ _ hpart hpart']
  · cases other <;> first | exact hother.elim | skip
    obtain ⟨-, nodes, hchain, hparts⟩ := h
    obtain ⟨-, nodes', hchain', hparts'⟩ := hother
    cases hchain.unique hchain'
    rw [forall₂_right_unique honly hparts hparts']
  · exact h.elim

/-- A block denotes at most one part. -/
theorem Denotes.unique {node : NodeId} {part other : Part} (h : S.Denotes node part)
    (hother : S.Denotes node other) : part = other := by
  refine h.induct_contents (motive := fun node part => ∀ other, S.Denotes node other → part = other)
    (fun {node part} hkind hholds other hother => ?_) other hother
  obtain ⟨hkind', hholds'⟩ := hother.holds
  have hsame : part.kind = other.kind := Option.some.inj (hkind.symm.trans hkind')
  rw [← hsame] at hholds'
  have hcontents : part.contents = other.contents :=
    forall₂_right_unique (fun _ _ _ hleft hright =>
      hleft.unique (fun _ _ part' hpart hother => hpart.2 part' hother) hright) hholds hholds'
  exact Part.eq_of_contents hsame hcontents

end Source

end ContractBlocks
