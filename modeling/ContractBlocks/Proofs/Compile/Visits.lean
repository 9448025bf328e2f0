import ContractBlocks.Proofs.Compile.Denotation

namespace ContractBlocks

open Relation

/-- The category of the blocks that a place takes, where it takes any. -/
def Place.category? : Place → Option Category
  | .field _ => none
  | .child slot => some slot.category
  | .chain _ inner => some inner

/-- A slot is a place for one child, or else the first place of the chain that the rule names. -/
theorem Rule.placeOf_eq (rule : Rule) (slot : Slot) :
    rule.placeOf slot = .child slot ∨
      ∃ inner, rule.chain = .holder slot.name inner ∧ rule.placeOf slot = .chain slot.name inner := by
  unfold placeOf
  split
  · next name inner hchain =>
    by_cases hname : slot.name = name
    · subst hname
      exact .inr ⟨inner, hchain, if_pos rfl⟩
    · exact .inl (if_neg hname)
  · exact .inl rfl

namespace Kind

variable {kind : Kind}

/-- The places of a kind are its fields and its slots, whatever their order. -/
theorem mem_places {place : Place} :
    place ∈ kind.places ↔ (∃ field ∈ kind.rule.fields, .field field = place) ∨
      ∃ slot ∈ kind.rule.slots, kind.rule.placeOf slot = place := by
  rw [← List.mem_map, ← List.mem_map, ← List.mem_append]
  unfold places
  split
  · -- Only the first slot changes its place.
    conv => rhs; rw [← List.take_append_drop 1 (kind.rule.slots.map kind.rule.placeOf)]
    simp only [List.mem_append]
    tauto
  · exact Iff.rfl

theorem mem_fields_of_mem_places {field : FieldSlot} (hplace : .field field ∈ kind.places) :
    field ∈ kind.rule.fields := by
  rcases mem_places.1 hplace with ⟨declared, hdeclared, heq⟩ | ⟨slot, -, heq⟩
  · cases heq
    exact hdeclared
  · rcases kind.rule.placeOf_eq slot with hchild | ⟨inner, -, hchain⟩
    · cases hchild.symm.trans heq
    · cases hchain.symm.trans heq

theorem mem_slots_of_mem_places {slot : Slot} (hplace : .child slot ∈ kind.places) :
    slot ∈ kind.rule.slots := by
  rcases mem_places.1 hplace with ⟨_, -, heq⟩ | ⟨declared, hdeclared, heq⟩
  · cases heq
  · rcases kind.rule.placeOf_eq declared with hchild | ⟨inner, -, hchain⟩
    · cases hchild.symm.trans heq
      exact hdeclared
    · cases hchain.symm.trans heq

theorem chain_eq_holder_of_mem_places {slot : String} {inner : Category}
    (hplace : .chain slot inner ∈ kind.places) : kind.rule.chain = .holder slot inner := by
  rcases mem_places.1 hplace with ⟨_, -, heq⟩ | ⟨declared, -, heq⟩
  · cases heq
  · rcases kind.rule.placeOf_eq declared with hchild | ⟨inner, hholder, hchain⟩
    · cases hchild.symm.trans heq
    · cases hchain.symm.trans heq
      exact hholder

end Kind

namespace Source

variable {S : Source} {root : NodeId} {expected : Category} {path : List NodeId} {node : NodeId}

/-- A block's successor is the other. -/
def FollowedBy (S : Source) (node other : NodeId) : Prop :=
  S.next node = some other

/-- A block has the other in one of its slots or as its successor. -/
def RefersTo (S : Source) (node other : NodeId) : Prop :=
  (∃ slot, S.slot node slot = some other) ∨ S.FollowedBy node other

theorem refersTo_of_followedBy {first last : NodeId} (h : ReflTransGen S.FollowedBy first last) :
    ReflTransGen S.RefersTo first last :=
  ReflTransGen.mono (fun _ _ => .inr) first last h

theorem ChainFrom.reaches {first element : NodeId} {nodes : List NodeId}
    (hchain : S.ChainFrom (some first) nodes) (hmem : element ∈ nodes) :
    ReflTransGen S.FollowedBy first element := by
  induction nodes generalizing first with
  | nil => cases hmem
  | cons head rest ih =>
    cases hchain with
    | cons hrest =>
      rcases List.mem_cons.1 hmem with rfl | htail
      · exact .refl
      · cases hnext : S.next head with
        | none =>
          rw [hnext] at hrest
          cases hrest
          cases htail
        | some next =>
          rw [hnext] at hrest
          exact .head hnext (ih hrest htail)

/-- A block that stands in a place is reached through a slot, and from there through successors. -/
theorem StandsIn.reaches {place : Place} {inner : NodeId} (hinner : S.StandsIn node place inner) :
    ∃ slot first, S.slot node slot = some first ∧ ReflTransGen S.FollowedBy first inner := by
  match place, hinner with
  | .child slot, hslot => exact ⟨slot.name, inner, hslot, .refl⟩
  | .chain slot _, ⟨nodes, hchain, hmem⟩ =>
    cases hslot : S.slot node slot with
    | none =>
      rw [hslot] at hchain
      cases hchain
      cases hmem
    | some first => exact ⟨slot, first, hslot, (hslot ▸ hchain).reaches hmem⟩

theorem StandsIn.refersTo {place : Place} {inner : NodeId} (hinner : S.StandsIn node place inner) :
    ReflTransGen S.RefersTo node inner := by
  obtain ⟨slot, first, hslot, hfirst⟩ := hinner.reaches
  exact .head (.inl ⟨slot, hslot⟩) (refersTo_of_followedBy hfirst)

/-- A walk along successors that comes back to a block has found one that follows itself. -/
theorem successors_eq_error {met : List NodeId} {again : NodeId}
    (herror : S.successors met node = .error again)
    (hmet : ∀ before ∈ met, TransGen S.FollowedBy before node) :
    ReflTransGen S.FollowedBy node again ∧ TransGen S.FollowedBy again again := by
  fun_induction successors S met node with
  | case1 met node hmem =>
    cases herror
    exact ⟨.refl, hmet _ hmem⟩
  | case2 met node hnew hnext => cases herror
  | case3 met node hnew next hnext hless ih =>
    cases hrest : S.successors (node :: met) next with
    | ok rest => rw [hrest] at herror; cases herror
    | error found =>
      rw [hrest] at herror
      cases herror
      obtain ⟨hreach, hcycle⟩ := ih hrest fun before hbefore => by
        rcases List.mem_cons.1 hbefore with rfl | hold
        · exact .single hnext
        · exact (hmet before hold).tail hnext
      exact ⟨.head hnext hreach, hcycle⟩

/-- On the way down from a root, a block is looked at for a category, inside the blocks of a path. -/
inductive Visit (S : Source) (root : NodeId) : Category → List NodeId → NodeId → Prop
  | start {node : NodeId} (hslot : S.slot root "CONTRACT" = some node) :
    Visit S root .contract [] node
  | inner {node inner : NodeId} {kind : Kind} {path : List NodeId} {place : Place} {category : Category}
      (houter : Visit S root kind.category path node) (hkind : S.kind node = some kind)
      (hplace : place ∈ kind.places) (hcategory : place.category? = some category)
      (hinner : S.StandsIn node place inner) :
    Visit S root category (node :: path) inner

/-- What is wrong at a block that is looked at, the blocks inside it left aside. -/
inductive Fault (S : Source) (expected : Category) (path : List NodeId) (node : NodeId) :
    Violation → Prop
  | dangling (hkind : S.kind node = none) : Fault S expected path node (.dangling node)
  | wrongCategory {kind : Kind} (hkind : S.kind node = some kind) (hcategory : kind.category ≠ expected) :
    Fault S expected path node (.wrongCategory node expected kind)
  | cyclicSlot (hpath : node ∈ path) : Fault S expected path node (.cyclicSlot node)
  | missingField {kind : Kind} {field : FieldSlot} (hkind : S.kind node = some kind)
      (hfield : field ∈ kind.rule.fields) (hunset : S.field node field.name = none) :
    Fault S expected path node (.missingField node kind field.name)
  | notInteger {kind : Kind} {field : FieldSlot} {value : FieldValue} (hkind : S.kind node = some kind)
      (hfield : field ∈ kind.rule.fields) (hnumber : field.type = .number)
      (hset : S.field node field.name = some value) (hvalue : value.asInteger? = none) :
    Fault S expected path node (.notInteger node kind field.name value.asText)
  | missingInput {kind : Kind} {slot : Slot} (hkind : S.kind node = some kind)
      (hslot : slot ∈ kind.rule.slots) (hrequired : slot.required) (hempty : S.slot node slot.name = none) :
    Fault S expected path node (.missingInput node kind slot.name)
  | cyclicChain {slot : String} {first again : NodeId} (hslot : S.slot node slot = some first)
      (hagain : S.successors [] first = .error again) :
    Fault S expected path node (.cyclicChain again)

theorem fault_of_mem_fieldViolations {kind : Kind} {field : FieldSlot} {violation : Violation}
    (hkind : S.kind node = some kind) (hfield : field ∈ kind.rule.fields)
    (hmem : violation ∈ S.fieldViolations node kind field) : S.Fault expected path node violation := by
  unfold fieldViolations at hmem
  split at hmem
  · next hunset =>
    cases List.mem_singleton.1 hmem
    exact .missingField hkind hfield hunset
  · next value hset =>
    split at hmem
    · next hwrong =>
      cases List.mem_singleton.1 hmem
      exact .notInteger hkind hfield hwrong.1 hset hwrong.2
    · cases hmem

/-- What is wrong with a place is wrong with the block itself or with one that stands in the place. -/
theorem fault_of_mem_placeViolations {kind : Kind} {place : Place} {violation : Violation}
    {below : Category → NodeId → List Violation} (hkind : S.kind node = some kind)
    (hplace : place ∈ kind.places) (hmem : violation ∈ S.placeViolations below node kind place) :
    S.Fault expected path node violation ∨
      ∃ category inner, place.category? = some category ∧ S.StandsIn node place inner ∧
        violation ∈ below category inner := by
  unfold placeViolations at hmem
  split at hmem
  · exact .inl (fault_of_mem_fieldViolations hkind (Kind.mem_fields_of_mem_places hplace) hmem)
  · split at hmem
    · next child hslot => exact .inr ⟨_, child, rfl, hslot, hmem⟩
    · next hempty =>
      split at hmem
      · next hrequired =>
        cases List.mem_singleton.1 hmem
        exact .inl (.missingInput hkind (Kind.mem_slots_of_mem_places hplace) hrequired hempty)
      · cases hmem
  · split at hmem
    · cases hmem
    · next first hslot =>
      split at hmem
      · next elements helements =>
        obtain ⟨element, helement, hbelow⟩ := List.mem_flatMap.1 hmem
        exact .inr ⟨_, element, rfl, ⟨elements, hslot ▸ S.chainFrom_of_successors helements, helement⟩, hbelow⟩
      · next again hagain =>
        cases List.mem_singleton.1 hmem
        exact .inl (.cyclicChain hslot hagain)

/-- Each violation is a fault of a block that is looked at on the way down. -/
theorem exists_visit_of_mem_violationsAt {violation : Violation} (hvisit : S.Visit root expected path node)
    (hmem : violation ∈ S.violationsAt expected path node) :
    ∃ category outer block, S.Visit root category outer block ∧ S.Fault category outer block violation := by
  fun_induction violationsAt S expected path node with
  | case1 expected path node hkind =>
    cases List.mem_singleton.1 hmem
    exact ⟨_, _, _, hvisit, .dangling hkind⟩
  | case2 expected path node kind hkind hcategory =>
    cases List.mem_singleton.1 hmem
    exact ⟨_, _, _, hvisit, .wrongCategory hkind hcategory⟩
  | case3 expected path node kind hkind hcategory hpath =>
    cases List.mem_singleton.1 hmem
    exact ⟨_, _, _, hvisit, .cyclicSlot hpath⟩
  | case4 expected path node kind hkind hcategory hpath hless ih =>
    obtain ⟨place, hplace, hviolation⟩ := List.mem_flatMap.1 hmem
    rcases fault_of_mem_placeViolations hkind hplace hviolation with
      hfault | ⟨category, inner, htakes, hinner, hbelow⟩
    · exact ⟨_, _, _, hvisit, hfault⟩
    · have houter : S.Visit root kind.category path node := Decidable.of_not_not hcategory ▸ hvisit
      exact ih category inner (.inner houter hkind hplace htakes hinner) hbelow

namespace Visit

theorem refersTo (hvisit : S.Visit root expected path node) : ReflTransGen S.RefersTo root node := by
  induction hvisit with
  | start hslot => exact .single (.inl ⟨_, hslot⟩)
  | inner _ _ _ _ hinner ih => exact ih.trans hinner.refersTo

/-- The block that is looked at stands inside every block of the path. -/
theorem inside_of_mem_path (hvisit : S.Visit root expected path node) {outer : NodeId}
    (hmem : outer ∈ path) : TransGen S.Inside node outer := by
  induction hvisit with
  | start _ => cases hmem
  | inner _ hkind hplace _ hinner ih =>
    have hinside : S.Inside _ _ := ⟨_, hkind, _, hplace, hinner⟩
    rcases List.mem_cons.1 hmem with rfl | houter
    · exact .single hinside
    · exact .head hinside (ih houter)

end Visit

end Source

end ContractBlocks
