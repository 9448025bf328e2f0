import ContractBlocks.Compile.Basic
import ContractBlocks.Compile.Call
import ContractBlocks.Proofs.Compile.Chain

namespace ContractBlocks

namespace Source

/-- A field as text, where it is set. -/
def text? (S : Source) (node : NodeId) (field : String) : Option String :=
  (S.field node field).map FieldValue.asText

/-- A field as an integer, where it is set to one. -/
def integer? (S : Source) (node : NodeId) (field : String) : Option Int64 :=
  (S.field node field).bind FieldValue.asInteger?

/-- The part that a block stands for. The relation is read off the blocks alone: it knows of no path,
    no guard against cycles and no order in which the slots are looked at. -/
inductive Denotes (S : Source) : NodeId → Part → Prop
  | close {node : NodeId} (hkind : S.kind node = some (.contract .close)) :
    Denotes S node (.contract .close)
  | pay {node source target token amount next : NodeId} {p : Party} {q : Payee} {t : Token}
      {v : Value} {c : Contract} (hkind : S.kind node = some (.contract .pay))
      (hsource : S.slot node "FROM" = some source) (hp : Denotes S source (.party p))
      (htarget : S.slot node "TO" = some target) (hq : Denotes S target (.payee q))
      (htoken : S.slot node "TOKEN" = some token) (ht : Denotes S token (.token t))
      (hamount : S.slot node "VALUE" = some amount) (hv : Denotes S amount (.value v))
      (hnext : S.slot node "THEN" = some next) (hc : Denotes S next (.contract c)) :
    Denotes S node (.contract (.pay p q t v c))
  | branch {node condition yes no : NodeId} {o : Observation} {c d : Contract}
      (hkind : S.kind node = some (.contract .branch))
      (hcondition : S.slot node "COND" = some condition) (ho : Denotes S condition (.observation o))
      (hyes : S.slot node "THEN" = some yes) (hc : Denotes S yes (.contract c))
      (hno : S.slot node "ELSE" = some no) (hd : Denotes S no (.contract d)) :
    Denotes S node (.contract (.branch o c d))
  | when {node after : NodeId} {nodes : List NodeId} {cases : List Case} {timeout : Int64}
      {c : Contract} (hkind : S.kind node = some (.contract .when))
      (hchain : S.ChainFrom (S.slot node "CASES") nodes) (hlength : nodes.length = cases.length)
      (hcases : ∀ pair ∈ nodes.zip cases, Denotes S pair.1 (.case pair.2))
      (htimeout : S.integer? node "TIMEOUT" = some timeout)
      (hafter : S.slot node "TIMEOUT_CONT" = some after) (hc : Denotes S after (.contract c)) :
    Denotes S node (.contract (.when cases timeout c))
  | define {node value next : NodeId} {name : String} {v : Value} {c : Contract}
      (hkind : S.kind node = some (.contract .define)) (hname : S.text? node "NAME" = some name)
      (hvalue : S.slot node "VALUE" = some value) (hv : Denotes S value (.value v))
      (hnext : S.slot node "THEN" = some next) (hc : Denotes S next (.contract c)) :
    Denotes S node (.contract (.define name v c))
  | assert {node observation next : NodeId} {o : Observation} {c : Contract}
      (hkind : S.kind node = some (.contract .assert))
      (hobservation : S.slot node "OBS" = some observation)
      (ho : Denotes S observation (.observation o))
      (hnext : S.slot node "THEN" = some next) (hc : Denotes S next (.contract c)) :
    Denotes S node (.contract (.assert o c))
  | case {node action next : NodeId} {a : Action} {c : Contract} (hkind : S.kind node = some .case)
      (haction : S.slot node "ACTION" = some action) (ha : Denotes S action (.action a))
      (hnext : S.slot node "THEN" = some next) (hc : Denotes S next (.contract c)) :
    Denotes S node (.case (.mk a c))
  | deposit {node party into token amount : NodeId} {p q : Party} {t : Token} {v : Value}
      (hkind : S.kind node = some (.action .deposit))
      (hparty : S.slot node "PARTY" = some party) (hp : Denotes S party (.party p))
      (hinto : S.slot node "INTO" = some into) (hq : Denotes S into (.party q))
      (htoken : S.slot node "TOKEN" = some token) (ht : Denotes S token (.token t))
      (hamount : S.slot node "AMOUNT" = some amount) (hv : Denotes S amount (.value v)) :
    Denotes S node (.action (.deposit p q t v))
  | choice {node choice : NodeId} {nodes : List NodeId} {i : ChoiceId} {bounds : List Bound}
      (hkind : S.kind node = some (.action .choice))
      (hchoice : S.slot node "CHOICE" = some choice) (hi : Denotes S choice (.choiceId i))
      (hchain : S.ChainFrom (S.slot node "BOUNDS") nodes) (hlength : nodes.length = bounds.length)
      (hbounds : ∀ pair ∈ nodes.zip bounds, Denotes S pair.1 (.bound pair.2)) :
    Denotes S node (.action (.choice i bounds))
  | notify {node observation : NodeId} {o : Observation}
      (hkind : S.kind node = some (.action .notify))
      (hobservation : S.slot node "OBS" = some observation)
      (ho : Denotes S observation (.observation o)) :
    Denotes S node (.action (.notify o))
  | bound {node : NodeId} {low high : Int64} (hkind : S.kind node = some .bound)
      (hlow : S.integer? node "FROM" = some low) (hhigh : S.integer? node "TO" = some high) :
    Denotes S node (.bound ⟨low, high⟩)
  | choiceId {node owner : NodeId} {name : String} {p : Party} (hkind : S.kind node = some .choiceId)
      (hname : S.text? node "NAME" = some name)
      (howner : S.slot node "OWNER" = some owner) (hp : Denotes S owner (.party p)) :
    Denotes S node (.choiceId ⟨name, p⟩)
  | role {node : NodeId} {name : String} (hkind : S.kind node = some (.party .role))
      (hname : S.text? node "ROLE" = some name) :
    Denotes S node (.party (.role name))
  | address {node : NodeId} {text : String} (hkind : S.kind node = some (.party .address))
      (htext : S.text? node "ADDRESS" = some text) :
    Denotes S node (.party (.address text))
  | payeeParty {node party : NodeId} {p : Party} (hkind : S.kind node = some (.payee .party))
      (hparty : S.slot node "PARTY" = some party) (hp : Denotes S party (.party p)) :
    Denotes S node (.payee (.party p))
  | payeeAccount {node party : NodeId} {p : Party} (hkind : S.kind node = some (.payee .account))
      (hparty : S.slot node "ACCOUNT" = some party) (hp : Denotes S party (.party p)) :
    Denotes S node (.payee (.account p))
  | token {node : NodeId} {currency name : String} (hkind : S.kind node = some .token)
      (hcurrency : S.text? node "CURRENCY" = some currency)
      (hname : S.text? node "NAME" = some name) :
    Denotes S node (.token ⟨currency, name⟩)
  | constant {node : NodeId} {n : Int64} (hkind : S.kind node = some (.value .constant))
      (hvalue : S.integer? node "VALUE" = some n) :
    Denotes S node (.value (.constant n))
  | availableMoney {node token account : NodeId} {t : Token} {p : Party}
      (hkind : S.kind node = some (.value .availableMoney))
      (htoken : S.slot node "TOKEN" = some token) (ht : Denotes S token (.token t))
      (haccount : S.slot node "PARTY" = some account) (hp : Denotes S account (.party p)) :
    Denotes S node (.value (.availableMoney t p))
  | arithmetic {node lhs rhs : NodeId} {op : Arithmetic} {v w : Value}
      (hkind : S.kind node = some (.value (.arithmetic op)))
      (hlhs : S.slot node "LHS" = some lhs) (hv : Denotes S lhs (.value v))
      (hrhs : S.slot node "RHS" = some rhs) (hw : Denotes S rhs (.value w)) :
    Denotes S node (.value (.arithmetic op v w))
  | negate {node value : NodeId} {v : Value} (hkind : S.kind node = some (.value .negate))
      (hvalue : S.slot node "VALUE" = some value) (hv : Denotes S value (.value v)) :
    Denotes S node (.value (.negate v))
  | choiceValue {node choice : NodeId} {i : ChoiceId}
      (hkind : S.kind node = some (.value .choiceValue))
      (hchoice : S.slot node "CHOICE" = some choice) (hi : Denotes S choice (.choiceId i)) :
    Denotes S node (.value (.choiceValue i))
  | timeStart {node : NodeId} (hkind : S.kind node = some (.value .timeStart)) :
    Denotes S node (.value .timeStart)
  | timeEnd {node : NodeId} (hkind : S.kind node = some (.value .timeEnd)) :
    Denotes S node (.value .timeEnd)
  | useValue {node : NodeId} {name : String} (hkind : S.kind node = some (.value .useValue))
      (hname : S.text? node "NAME" = some name) :
    Denotes S node (.value (.useValue name))
  | conditional {node condition yes no : NodeId} {o : Observation} {v w : Value}
      (hkind : S.kind node = some (.value .conditional))
      (hcondition : S.slot node "OBS" = some condition) (ho : Denotes S condition (.observation o))
      (hyes : S.slot node "THEN" = some yes) (hv : Denotes S yes (.value v))
      (hno : S.slot node "ELSE" = some no) (hw : Denotes S no (.value w)) :
    Denotes S node (.value (.conditional o v w))
  | literal {node : NodeId} {value : Bool} (hkind : S.kind node = some (.observation (.literal value))) :
    Denotes S node (.observation (.literal value))
  | connective {node lhs rhs : NodeId} {op : Connective} {o o' : Observation}
      (hkind : S.kind node = some (.observation (.connective op)))
      (hlhs : S.slot node "LHS" = some lhs) (ho : Denotes S lhs (.observation o))
      (hrhs : S.slot node "RHS" = some rhs) (ho' : Denotes S rhs (.observation o')) :
    Denotes S node (.observation (.connective op o o'))
  | not {node observation : NodeId} {o : Observation} (hkind : S.kind node = some (.observation .not))
      (hobservation : S.slot node "OBS" = some observation)
      (ho : Denotes S observation (.observation o)) :
    Denotes S node (.observation (.not o))
  | choseSomething {node choice : NodeId} {i : ChoiceId}
      (hkind : S.kind node = some (.observation .choseSomething))
      (hchoice : S.slot node "CHOICE" = some choice) (hi : Denotes S choice (.choiceId i)) :
    Denotes S node (.observation (.choseSomething i))
  | comparison {node lhs rhs : NodeId} {op : Comparison} {v w : Value}
      (hkind : S.kind node = some (.observation (.comparison op)))
      (hlhs : S.slot node "LHS" = some lhs) (hv : Denotes S lhs (.value v))
      (hrhs : S.slot node "RHS" = some rhs) (hw : Denotes S rhs (.value w)) :
    Denotes S node (.observation (.comparison op v w))

end Source

end ContractBlocks
