import ContractBlocks.Proofs.Compile.Visits
import ContractBlocks.Proofs.Contract.Components
import ContractBlocks.Proofs.Grammar

namespace ContractBlocks

namespace Kind

variable {kind other : Kind}

/-- The places of a kind are its fields and its slots, each once. -/
theorem places_perm (kind : Kind) :
    kind.places.Perm (kind.rule.fields.map Place.field ++ kind.rule.slots.map kind.rule.placeOf) := by
  unfold places
  split
  · -- Only the first slot changes its place.
    have hmoved := List.perm_append_comm_assoc ((kind.rule.slots.map kind.rule.placeOf).take 1)
      (kind.rule.fields.map Place.field) ((kind.rule.slots.map kind.rule.placeOf).drop 1)
    rw [List.take_append_drop] at hmoved
    rw [List.append_assoc]
    exact hmoved
  · rfl

theorem category_mem_of_isLink (hlink : kind.isLink) : kind.category ∈ [Category.case, .bound] := by
  have htable : ∀ kind ∈ all, kind.isLink → kind.category ∈ [Category.case, .bound] := by decide
  exact htable kind kind.mem_all hlink

/-- Blocks that can have a successor stand in chains only: no slot for a single child takes them. -/
theorem isLink_eq_false_of_child {slot : Slot} (hplace : .child slot ∈ kind.places)
    (hcategory : other.category = slot.category) : other.isLink = false := by
  have htable : ∀ kind ∈ all, ∀ slot ∈ kind.rule.slots, kind.rule.placeOf slot = .child slot →
      slot.category ∉ [Category.case, .bound] := by
    decide
  have hslot : kind.rule.placeOf slot = .child slot := by
    rcases mem_places.1 hplace with ⟨_, -, hfield⟩ | ⟨declared, -, hdeclared⟩
    · cases hfield
    · rcases kind.rule.placeOf_eq declared with hchild | ⟨inner, -, hchain⟩
      · cases hchild.symm.trans hdeclared
        exact hchild
      · cases hchain.symm.trans hdeclared
  refine Bool.eq_false_iff.2 fun hlink => htable kind kind.mem_all slot (mem_slots_of_mem_places hplace) hslot ?_
  rw [← hcategory]
  exact category_mem_of_isLink hlink

end Kind

namespace Source

variable {S : Source} {category : Category} {weight : NodeId → Nat} {node : NodeId} {part : Part}

/-- The weight of the block that a reference leads to, if it leads to one. -/
def weightAt (weight : NodeId → Nat) (reference : Option NodeId) : Nat :=
  reference.elim 0 weight

/-- Every block weighs as much as the blocks in its slots and its successor, and one more if it is of
    the category. -/
def Weighs (S : Source) (category : Category) (weight : NodeId → Nat) : Prop :=
  ∀ node kind, S.kind node = some kind →
    weight node = (if kind.category = category then 1 else 0) +
      (kind.rule.slots.map fun slot => weightAt weight (S.slot node slot.name)).sum +
        weightAt weight (S.next node)

/-- Only the links of chains have successors. -/
def LinksOnly (S : Source) : Prop :=
  ∀ node kind, S.kind node = some kind → kind.isLink = false → S.next node = none

/-- The weight of the first block in a place. -/
def placeWeight (S : Source) (weight : NodeId → Nat) (node : NodeId) : Place → Nat
  | .field _ => 0
  | .child slot => weightAt weight (S.slot node slot.name)
  | .chain slot _ => weightAt weight (S.slot node slot)

theorem placeWeight_placeOf (rule : Rule) (slot : Slot) :
    S.placeWeight weight node (rule.placeOf slot) = weightAt weight (S.slot node slot.name) := by
  rcases rule.placeOf_eq slot with hchild | ⟨inner, -, hchain⟩
  · rw [hchild, placeWeight]
  · rw [hchain, placeWeight]

theorem sum_placeWeight (kind : Kind) :
    (kind.places.map (S.placeWeight weight node)).sum =
      (kind.rule.slots.map fun slot => weightAt weight (S.slot node slot.name)).sum := by
  have hfields : ((kind.rule.fields.map Place.field).map (S.placeWeight weight node)).sum = 0 := by
    simp [placeWeight, Function.comp_def]
  have hslots : (kind.rule.slots.map kind.rule.placeOf).map (S.placeWeight weight node) =
      kind.rule.slots.map fun slot => weightAt weight (S.slot node slot.name) := by
    rw [List.map_map]
    exact List.map_congr_left fun slot _ => placeWeight_placeOf kind.rule slot
  rw [(kind.places_perm.map _).sum_nat, List.map_append, List.sum_append_nat, hfields, hslots, Nat.zero_add]

/-- Beside what comes after it, a block weighs as much as the part has parts of the category. -/
def WeighsAs (S : Source) (category : Category) (weight : NodeId → Nat) (node : NodeId) (part : Part) : Prop :=
  weight node = part.tally category + weightAt weight (S.next node)

theorem ChainFrom.weight_eq {start : Option NodeId} {nodes : List NodeId} {parts : List Part}
    (hchain : S.ChainFrom start nodes) (hparts : List.Forall₂ (S.WeighsAs category weight) nodes parts) :
    weightAt weight start = (parts.map (Part.tally category)).sum := by
  induction hchain generalizing parts with
  | nil =>
    cases hparts
    rfl
  | cons _ ih =>
    cases hparts with
    | cons hpart hrest =>
      rw [List.map_cons, List.sum_cons, ← ih hrest]
      exact hpart

/-- The first block in a place weighs as much as the content of the place has parts of the category:
    after a single child nothing comes, and a chain weighs as much as its elements. -/
theorem Holds.placeWeight_eq {kind : Kind} {place : Place} {content : Content} (hlinks : S.LinksOnly)
    (hplace : place ∈ kind.places)
    (hholds : S.Holds (fun inner part => S.Denotes inner part ∧ S.WeighsAs category weight inner part)
      node place content) :
    S.placeWeight weight node place = (content.inner.map (Part.tally category)).sum := by
  unfold Holds at hholds
  split at hholds
  · rfl
  · rfl
  · obtain ⟨hcategory, child, hslot, hdenotes, hweight⟩ := hholds
    have hkind := hdenotes.holds.1
    have hnext := hlinks child _ hkind
      (Kind.isLink_eq_false_of_child hplace ((Part.category_kind _).trans hcategory))
    rw [WeighsAs, hnext] at hweight
    simpa [placeWeight, hslot, weightAt, Content.inner] using hweight
  · obtain ⟨-, nodes, hchain, hparts⟩ := hholds
    exact hchain.weight_eq (hparts.imp fun _ _ => And.right)
  · exact hholds.elim

/-- A block weighs as much as the part that it denotes has parts of the category, and as what comes
    after it. -/
theorem Denotes.weighsAs (hdenotes : S.Denotes node part) (hweighs : S.Weighs category weight)
    (hlinks : S.LinksOnly) : S.WeighsAs category weight node part := by
  refine hdenotes.induct_contents fun {node part} hkind hholds => ?_
  have hplaces := (List.forall₂_and_left _ _).2 ⟨fun place hplace => hplace, hholds⟩
  have hsame : part.kind.places.map (S.placeWeight weight node) =
      part.contents.map fun content => (content.inner.map (Part.tally category)).sum := by
    rw [← List.forall₂_eq_eq_eq, List.forall₂_map_left_iff, List.forall₂_map_right_iff]
    exact hplaces.imp fun place content hboth => hboth.2.placeWeight_eq hlinks hboth.1
  have hinner : (part.inner.map (Part.tally category)).sum =
      (part.contents.map fun content => (content.inner.map (Part.tally category)).sum).sum := by
    rw [Part.inner, List.map_flatMap, List.flatMap_def, List.sum_flatten, List.map_map]
    rfl
  rw [WeighsAs, hweighs node part.kind hkind, ← sum_placeWeight, hsame, ← hinner, Part.category_kind,
    ← Part.tally_eq]

/-- The root of a contract weighs as much as the contract has parts of the category. -/
theorem Denotes.weight_root {root : NodeId} {contract : Contract} (hdenotes : S.Denotes node (.contract contract))
    (hroot : S.kind root = some .root) (hslot : S.slot root "CONTRACT" = some node)
    (hcategory : category ≠ .root) (hweighs : S.Weighs category weight) (hlinks : S.LinksOnly) :
    weight root = (Part.contract contract).tally category := by
  have hweight := hdenotes.weighsAs hweighs hlinks
  have hdeclared : .child (Grammar.slot "CONTRACT" .contract) ∈ Kind.root.places := List.mem_singleton.2 rfl
  have hnode : S.next node = none := hlinks node _ hdenotes.holds.1
    (Kind.isLink_eq_false_of_child hdeclared (Part.category_kind _))
  have hnext : S.next root = none := hlinks root .root hroot rfl
  have hslots : (Kind.root.rule.slots.map fun slot => weightAt weight (S.slot root slot.name)).sum =
      weight node := by
    simp [Kind.rule, Grammar.plain, Grammar.slot, hslot, weightAt]
  rw [WeighsAs, hnode] at hweight
  rw [hweighs root .root hroot, hslots, hnext, hweight]
  simp [weightAt, Kind.category, hcategory.symm]

end Source

end ContractBlocks
