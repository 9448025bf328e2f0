import ContractBlocks.Proofs.Compile.Places

namespace ContractBlocks

/-- Whether blocks of a category can have others inside them. -/
def Category.encloses : Category → Bool
  | .bound | .party | .token => false
  | _ => true

namespace Parts

open Source

/-- At `path`, each part finds the first violation at its block, or else makes what the block denotes. -/
structure Finds (S : Source) (parts : Parts) (path : List NodeId) : Prop where
  contract : ∀ node, (parts.contract node).Finds path (S.violationsAt .contract path node)
    fun c => S.Denotes node (.contract c)
  case : ∀ node, (parts.case node).Finds path (S.violationsAt .case path node)
    fun c => S.Denotes node (.case c)
  action : ∀ node, (parts.action node).Finds path (S.violationsAt .action path node)
    fun a => S.Denotes node (.action a)
  bound : ∀ node, (parts.bound node).Finds path (S.violationsAt .bound path node)
    fun b => S.Denotes node (.bound b)
  choiceId : ∀ node, (parts.choiceId node).Finds path (S.violationsAt .choiceId path node)
    fun i => S.Denotes node (.choiceId i)
  party : ∀ node, (parts.party node).Finds path (S.violationsAt .party path node)
    fun p => S.Denotes node (.party p)
  payee : ∀ node, (parts.payee node).Finds path (S.violationsAt .payee path node)
    fun p => S.Denotes node (.payee p)
  token : ∀ node, (parts.token node).Finds path (S.violationsAt .token path node)
    fun t => S.Denotes node (.token t)
  value : ∀ node, (parts.value node).Finds path (S.violationsAt .value path node)
    fun v => S.Denotes node (.value v)
  observation : ∀ node, (parts.observation node).Finds path (S.violationsAt .observation path node)
    fun o => S.Denotes node (.observation o)

section Step

variable {S : Source} {inner : Parts} {node : NodeId} {path : List NodeId}

section Enclosing

variable (hinner : ∀ kind, S.kind node = some kind → kind.category.encloses → node ∉ path →
  inner.Finds S (node :: path))

include hinner

theorem contractPart_finds :
    (contractPart S inner node).Finds path (S.violationsAt .contract path node)
      fun c => S.Denotes node (.contract c) := by
  refine kindOf_finds (fun kind hcategory => ?_) fun kind hkind hcategory => ?_
  · cases kind <;> first | rfl | exact absurd rfl hcategory
  · cases kind <;> try cases hcategory
    rename_i kind
    refine inside_finds hkind fun hpath => ?_
    have hinner := hinner _ hkind rfl hpath
    cases kind with
    | close => exact .pure (.close hkind)
    | pay =>
      refine childOf_finds hinner.party fun _ _ hsource hp => ?_
      refine childOf_finds hinner.payee fun _ _ htarget hq => ?_
      refine childOf_finds hinner.token fun _ _ htoken ht => ?_
      refine childOf_finds hinner.value fun _ _ hamount hv => ?_
      refine childOf_finds hinner.contract fun _ _ hnext hc => ?_
      exact .pure (.pay hkind hsource hp htarget hq htoken ht hamount hv hnext hc)
    | branch =>
      refine childOf_finds hinner.observation fun _ _ hcondition ho => ?_
      refine childOf_finds hinner.contract fun _ _ hyes hc => ?_
      refine childOf_finds hinner.contract fun _ _ hno hd => ?_
      exact .pure (.branch hkind hcondition ho hyes hc hno hd)
    | when =>
      refine chainOf_finds hinner.case fun _ _ hchain hlength hcases => ?_
      refine (integerOf_finds "TIMEOUT").bind fun _ htimeout => ?_
      refine childOf_finds hinner.contract fun _ _ hafter hc => ?_
      exact .pure (.when hkind hchain hlength hcases htimeout hafter hc)
    | define =>
      refine (textOf_finds "NAME").bind fun _ hname => ?_
      refine childOf_finds hinner.value fun _ _ hvalue hv => ?_
      refine childOf_finds hinner.contract fun _ _ hnext hc => ?_
      exact .pure (.define hkind hname hvalue hv hnext hc)
    | assert =>
      refine childOf_finds hinner.observation fun _ _ hobservation ho => ?_
      refine childOf_finds hinner.contract fun _ _ hnext hc => ?_
      exact .pure (.assert hkind hobservation ho hnext hc)

theorem casePart_finds :
    (casePart S inner node).Finds path (S.violationsAt .case path node)
      fun c => S.Denotes node (.case c) := by
  refine kindOf_finds (fun kind hcategory => ?_) fun kind hkind hcategory => ?_
  · cases kind <;> first | rfl | exact absurd rfl hcategory
  · cases kind <;> try cases hcategory
    refine inside_finds hkind fun hpath => ?_
    have hinner := hinner _ hkind rfl hpath
    refine childOf_finds hinner.action fun _ _ haction ha => ?_
    refine childOf_finds hinner.contract fun _ _ hnext hc => ?_
    exact .pure (.case hkind haction ha hnext hc)

theorem actionPart_finds :
    (actionPart S inner node).Finds path (S.violationsAt .action path node)
      fun a => S.Denotes node (.action a) := by
  refine kindOf_finds (fun kind hcategory => ?_) fun kind hkind hcategory => ?_
  · cases kind <;> first | rfl | exact absurd rfl hcategory
  · cases kind <;> try cases hcategory
    rename_i kind
    refine inside_finds hkind fun hpath => ?_
    have hinner := hinner _ hkind rfl hpath
    cases kind with
    | deposit =>
      refine childOf_finds hinner.party fun _ _ hparty hp => ?_
      refine childOf_finds hinner.party fun _ _ hinto hq => ?_
      refine childOf_finds hinner.token fun _ _ htoken ht => ?_
      refine childOf_finds hinner.value fun _ _ hamount hv => ?_
      exact .pure (.deposit hkind hparty hp hinto hq htoken ht hamount hv)
    | choice =>
      refine childOf_finds hinner.choiceId fun _ _ hchoice hi => ?_
      refine chainOf_finds hinner.bound fun _ _ hchain hlength hbounds => ?_
      exact .pure (.choice hkind hchoice hi hchain hlength hbounds)
    | notify =>
      refine childOf_finds hinner.observation fun _ _ hobservation ho => ?_
      exact .pure (.notify hkind hobservation ho)

theorem choiceIdPart_finds :
    (choiceIdPart S inner node).Finds path (S.violationsAt .choiceId path node)
      fun i => S.Denotes node (.choiceId i) := by
  refine kindOf_finds (fun kind hcategory => ?_) fun kind hkind hcategory => ?_
  · cases kind <;> first | rfl | exact absurd rfl hcategory
  · cases kind <;> try cases hcategory
    refine inside_finds hkind fun hpath => ?_
    have hinner := hinner _ hkind rfl hpath
    refine (textOf_finds "NAME").bind fun _ hname => ?_
    refine childOf_finds hinner.party fun _ _ howner hp => ?_
    exact .pure (.choiceId hkind hname howner hp)

theorem payeePart_finds :
    (payeePart S inner node).Finds path (S.violationsAt .payee path node)
      fun p => S.Denotes node (.payee p) := by
  refine kindOf_finds (fun kind hcategory => ?_) fun kind hkind hcategory => ?_
  · cases kind <;> first | rfl | exact absurd rfl hcategory
  · cases kind <;> try cases hcategory
    rename_i kind
    refine inside_finds hkind fun hpath => ?_
    have hinner := hinner _ hkind rfl hpath
    cases kind with
    | party =>
      refine childOf_finds hinner.party fun _ _ hparty hp => ?_
      exact .pure (.payeeParty hkind hparty hp)
    | account =>
      refine childOf_finds hinner.party fun _ _ hparty hp => ?_
      exact .pure (.payeeAccount hkind hparty hp)

theorem valuePart_finds :
    (valuePart S inner node).Finds path (S.violationsAt .value path node)
      fun v => S.Denotes node (.value v) := by
  refine kindOf_finds (fun kind hcategory => ?_) fun kind hkind hcategory => ?_
  · cases kind <;> first | rfl | exact absurd rfl hcategory
  · cases kind <;> try cases hcategory
    rename_i kind
    refine inside_finds hkind fun hpath => ?_
    have hinner := hinner _ hkind rfl hpath
    cases kind with
    | constant =>
      refine (integerOf_finds "VALUE").bind fun _ hvalue => ?_
      exact .pure (.constant hkind hvalue)
    | availableMoney =>
      refine childOf_finds hinner.token fun _ _ htoken ht => ?_
      refine childOf_finds hinner.party fun _ _ haccount hp => ?_
      exact .pure (.availableMoney hkind htoken ht haccount hp)
    | arithmetic op =>
      rw [Kind.places_arithmetic]
      refine childOf_finds hinner.value fun _ _ hlhs hv => ?_
      refine childOf_finds hinner.value fun _ _ hrhs hw => ?_
      exact .pure (.arithmetic hkind hlhs hv hrhs hw)
    | negate =>
      refine childOf_finds hinner.value fun _ _ hvalue hv => ?_
      exact .pure (.negate hkind hvalue hv)
    | choiceValue =>
      refine childOf_finds hinner.choiceId fun _ _ hchoice hi => ?_
      exact .pure (.choiceValue hkind hchoice hi)
    | timeStart => exact .pure (.timeStart hkind)
    | timeEnd => exact .pure (.timeEnd hkind)
    | useValue =>
      refine (textOf_finds "NAME").bind fun _ hname => ?_
      exact .pure (.useValue hkind hname)
    | conditional =>
      refine childOf_finds hinner.observation fun _ _ hcondition ho => ?_
      refine childOf_finds hinner.value fun _ _ hyes hv => ?_
      refine childOf_finds hinner.value fun _ _ hno hw => ?_
      exact .pure (.conditional hkind hcondition ho hyes hv hno hw)

theorem observationPart_finds :
    (observationPart S inner node).Finds path (S.violationsAt .observation path node)
      fun o => S.Denotes node (.observation o) := by
  refine kindOf_finds (fun kind hcategory => ?_) fun kind hkind hcategory => ?_
  · cases kind <;> first | rfl | exact absurd rfl hcategory
  · cases kind <;> try cases hcategory
    rename_i kind
    refine inside_finds hkind fun hpath => ?_
    have hinner := hinner _ hkind rfl hpath
    cases kind with
    | literal value =>
      rw [Kind.places_literal]
      exact .pure (.literal hkind)
    | connective op =>
      rw [Kind.places_connective]
      refine childOf_finds hinner.observation fun _ _ hlhs ho => ?_
      refine childOf_finds hinner.observation fun _ _ hrhs ho' => ?_
      exact .pure (.connective hkind hlhs ho hrhs ho')
    | not =>
      refine childOf_finds hinner.observation fun _ _ hobservation ho => ?_
      exact .pure (.not hkind hobservation ho)
    | choseSomething =>
      refine childOf_finds hinner.choiceId fun _ _ hchoice hi => ?_
      exact .pure (.choseSomething hkind hchoice hi)
    | comparison op =>
      rw [Kind.places_comparison]
      refine childOf_finds hinner.value fun _ _ hlhs hv => ?_
      refine childOf_finds hinner.value fun _ _ hrhs hw => ?_
      exact .pure (.comparison hkind hlhs hv hrhs hw)

end Enclosing

section Leaf

variable (hleaf : ∀ kind, S.kind node = some kind → ¬kind.category.encloses → node ∉ path)

include hleaf

theorem boundPart_finds :
    (boundPart S node).Finds path (S.violationsAt .bound path node)
      fun b => S.Denotes node (.bound b) := by
  refine kindOf_finds (fun kind hcategory => ?_) fun kind hkind hcategory => ?_
  · cases kind <;> first | rfl | exact absurd rfl hcategory
  · cases kind <;> try cases hcategory
    refine outside_finds hkind (hleaf _ hkind nofun) ?_
    refine (integerOf_finds "FROM").bind fun _ hlow => ?_
    refine (integerOf_finds "TO").bind fun _ hhigh => ?_
    exact .pure (.bound hkind hlow hhigh)

theorem partyPart_finds :
    (partyPart S node).Finds path (S.violationsAt .party path node)
      fun p => S.Denotes node (.party p) := by
  refine kindOf_finds (fun kind hcategory => ?_) fun kind hkind hcategory => ?_
  · cases kind <;> first | rfl | exact absurd rfl hcategory
  · cases kind <;> try cases hcategory
    rename_i kind
    refine outside_finds hkind (hleaf _ hkind nofun) ?_
    cases kind with
    | role =>
      refine (textOf_finds "ROLE").bind fun _ hname => ?_
      exact .pure (.role hkind hname)
    | address =>
      refine (textOf_finds "ADDRESS").bind fun _ htext => ?_
      exact .pure (.address hkind htext)

theorem tokenPart_finds :
    (tokenPart S node).Finds path (S.violationsAt .token path node)
      fun t => S.Denotes node (.token t) := by
  refine kindOf_finds (fun kind hcategory => ?_) fun kind hkind hcategory => ?_
  · cases kind <;> first | rfl | exact absurd rfl hcategory
  · cases kind <;> try cases hcategory
    refine outside_finds hkind (hleaf _ hkind nofun) ?_
    refine (textOf_finds "CURRENCY").bind fun _ hcurrency => ?_
    refine (textOf_finds "NAME").bind fun _ hname => ?_
    exact .pure (.token hkind hcurrency hname)

end Leaf

end Step

/-- Every block of a path is of a category whose blocks can have others inside them. -/
def Enclosing (S : Source) (path : List NodeId) : Prop :=
  ∀ node ∈ path, ∀ kind, S.kind node = some kind → kind.category.encloses

theorem around_finds {S : Source} {inner : Parts} {path : List NodeId} (hpath : Enclosing S path)
    (hinner : ∀ node kind, S.kind node = some kind → kind.category.encloses → node ∉ path →
      inner.Finds S (node :: path)) :
    (around S inner).Finds S path where
  contract node := contractPart_finds (hinner node)
  case node := casePart_finds (hinner node)
  action node := actionPart_finds (hinner node)
  bound node := boundPart_finds fun kind hkind hleaf hmem => hleaf (hpath node hmem kind hkind)
  choiceId node := choiceIdPart_finds (hinner node)
  party node := partyPart_finds fun kind hkind hleaf hmem => hleaf (hpath node hmem kind hkind)
  payee node := payeePart_finds (hinner node)
  token node := tokenPart_finds fun kind hkind hleaf hmem => hleaf (hpath node hmem kind hkind)
  value node := valuePart_finds (hinner node)
  observation node := observationPart_finds (hinner node)

/-- The parts of all depths that blocks outside the path can have find the first violation. The bound
    on the depth is never what stops them: each level takes a block that is not in the path yet. -/
theorem upTo_finds {S : Source} {depth : Nat} {path : List NodeId} (hpath : Enclosing S path)
    (hdepth : S.outside path < depth) : (upTo S depth).Finds S path := by
  induction depth generalizing path with
  | zero => omega
  | succ depth ih =>
    refine around_finds hpath fun node kind hkind hencloses hnew => ih ?_ ?_
    · intro other hother
      rcases List.mem_cons.1 hother with rfl | hmem
      · intro found hfound
        rw [hkind] at hfound
        cases hfound
        exact hencloses
      · exact hpath other hmem
    · have hless := S.outside_cons_lt (S.mem_ids_of_kind_eq hkind) hnew
      omega

/-- From the outside, the parts of a source find the first violation. -/
theorem parts_finds (S : Source) : S.parts.Finds S [] :=
  upTo_finds (fun _ hmem => absurd hmem (by simp)) (by simp)

end Parts

end ContractBlocks
