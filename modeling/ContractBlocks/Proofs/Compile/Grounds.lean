import ContractBlocks.Proofs.Compile.Visits
import ContractBlocks.Source.Table

namespace ContractBlocks.Source

open Relation

variable {S : Source} {root node : NodeId} {expected : Category} {path : List NodeId}
  {violation : Violation}

/-- The block `node` stands in `holder` where a block of the category is due: in a slot of that
    category, or in the chain whose elements are of that category. -/
def DueIn (S : Source) (holder : NodeId) (expected : Category) (node : NodeId) : Prop :=
  ∃ kind, S.kind holder = some kind ∧
    ((∃ slot ∈ kind.rule.slots, slot.category = expected ∧ S.slot holder slot.name = some node) ∨
      ∃ slot elements, kind.rule.chain = .holder slot expected ∧
        S.ChainFrom (S.slot holder slot) elements ∧ node ∈ elements)

/-- What a violation below a root says of the blocks, read off the blocks and the grammar alone. -/
def Shows (S : Source) (root : NodeId) : Violation → Prop
  | .missingRoot => False
  | .missingInput node kind slot =>
    S.kind node = some kind ∧ (∃ declared ∈ kind.rule.slots, declared.name = slot ∧ declared.required) ∧
      S.slot node slot = none
  | .wrongCategory node expected found =>
    S.kind node = some found ∧ found.category ≠ expected ∧
      ∃ holder, ReflTransGen S.RefersTo root holder ∧ S.DueIn holder expected node
  | .cyclicChain node => TransGen S.FollowedBy node node
  | .cyclicSlot node => TransGen S.Inside node node
  | .notInteger node kind field raw =>
    S.kind node = some kind ∧ (∃ declared ∈ kind.rule.fields, declared.name = field ∧ declared.type = .number) ∧
      ∃ value, S.field node field = some value ∧ value.asInteger? = none ∧ value.asText = raw
  | .missingField node kind field =>
    S.kind node = some kind ∧ (∃ declared ∈ kind.rule.fields, declared.name = field) ∧
      S.field node field = none
  | .dangling node => S.kind node = none

theorem dueIn_of_standsIn {kind : Kind} {place : Place} {inner : NodeId} (hkind : S.kind node = some kind)
    (hplace : place ∈ kind.places) (hcategory : place.category? = some expected)
    (hinner : S.StandsIn node place inner) : S.DueIn node expected inner := by
  refine ⟨kind, hkind, ?_⟩
  match place, hcategory, hinner with
  | .child slot, rfl, hslot => exact .inl ⟨slot, Kind.mem_slots_of_mem_places hplace, rfl, hslot⟩
  | .chain slot _, rfl, ⟨elements, hchain, hmem⟩ =>
    exact .inr ⟨slot, elements, Kind.chain_eq_holder_of_mem_places hplace, hchain, hmem⟩

theorem Visit.dueIn (hroot : S.kind root = some .root) (hvisit : S.Visit root expected path node) :
    ∃ holder, ReflTransGen S.RefersTo root holder ∧ S.DueIn holder expected node := by
  cases hvisit with
  | start hslot =>
    have hdeclared : Grammar.slot "CONTRACT" .contract ∈ Kind.root.rule.slots := List.mem_singleton.2 rfl
    exact ⟨root, .refl, .root, hroot, .inl ⟨_, hdeclared, rfl, hslot⟩⟩
  | inner houter hkind hplace hcategory hinner =>
    exact ⟨_, houter.refersTo, dueIn_of_standsIn hkind hplace hcategory hinner⟩

/-- A fault of a block that is looked at is as the violation says. -/
theorem Fault.shows (hroot : S.kind root = some .root) (hvisit : S.Visit root expected path node)
    (hfault : S.Fault expected path node violation) : S.Shows root violation := by
  cases hfault with
  | dangling hkind => exact hkind
  | wrongCategory hkind hcategory => exact ⟨hkind, hcategory, hvisit.dueIn hroot⟩
  | cyclicSlot hpath => exact hvisit.inside_of_mem_path hpath
  | missingField hkind hfield hunset => exact ⟨hkind, ⟨_, hfield, rfl⟩, hunset⟩
  | notInteger hkind hfield hnumber hset hvalue =>
    exact ⟨hkind, ⟨_, hfield, rfl, hnumber⟩, _, hset, hvalue, rfl⟩
  | missingInput hkind hslot hrequired hempty => exact ⟨hkind, ⟨_, hslot, rfl, hrequired⟩, hempty⟩
  | cyclicChain hslot hagain => exact (successors_eq_error hagain (by simp)).2

/-- A fault names the block that is looked at, or one of a chain that starts in it. -/
theorem Fault.exists_node (hvisit : S.Visit root expected path node)
    (hfault : S.Fault expected path node violation) :
    ∃ named, violation.node? = some named ∧ ReflTransGen S.RefersTo root named := by
  cases hfault with
  | cyclicChain hslot hagain =>
    have hreach := (successors_eq_error hagain (by simp)).1
    exact ⟨_, rfl, (hvisit.refersTo.tail (.inl ⟨_, hslot⟩)).trans (refersTo_of_followedBy hreach)⟩
  | _ => exact ⟨node, rfl, hvisit.refersTo⟩

/-- Where compiling fails, no root was found, or nothing hangs below the least one, or a block that is
    looked at below it is at fault. -/
theorem exists_fault_of_compile_eq_error (herror : S.compile = .error violation) :
    (violation = .missingRoot ∧ S.leastRoot? = none) ∨
      ∃ root, S.IsLeastRoot root ∧
        ((violation = .missingInput root .root "CONTRACT" ∧ S.slot root "CONTRACT" = none) ∨
          ∃ category outer block, S.Visit root category outer block ∧
            S.Fault category outer block violation) := by
  rw [compile_eq] at herror
  split at herror
  · next root hroot =>
    refine .inr ⟨root, (S.leastRoot?_eq_some_iff root).1 hroot, ?_⟩
    unfold compileBelow at herror
    split at herror
    · next node hslot =>
      have hfirst := (((Parts.parts_finds S).contract node).error_iff violation).1 herror
      exact .inr (exists_visit_of_mem_violationsAt (.start hslot) (List.mem_of_head? hfirst))
    · next hslot =>
      cases herror
      exact .inl ⟨rfl, hslot⟩
  · next hroot =>
    cases herror
    exact .inl ⟨rfl, hroot⟩

/-- Every violation that compiling reports is true of the blocks: there is no root at all, or the
    block that it names is reached from the least root and is at fault in the way it says. -/
theorem compile_error_shows (S : Source) (violation : Violation) (herror : S.compile = .error violation) :
    (violation = .missingRoot ∧ ∀ node ∈ S.topLevel, S.kind node ≠ some .root) ∨
      ∃ root node, S.IsLeastRoot root ∧ violation.node? = some node ∧
        ReflTransGen S.RefersTo root node ∧ S.Shows root violation := by
  rcases exists_fault_of_compile_eq_error herror with ⟨rfl, hnone⟩ | ⟨root, hroot, hbelow⟩
  · refine .inl ⟨rfl, fun node htop hkind => ?_⟩
    rw [leastRoot?, List.min?_eq_none_iff, List.filter_eq_nil_iff] at hnone
    exact hnone node htop (by simpa using hkind)
  · refine .inr ⟨root, ?_⟩
    rcases hbelow with ⟨rfl, hslot⟩ | ⟨category, outer, block, hvisit, hfault⟩
    · have hdeclared : Grammar.slot "CONTRACT" .contract ∈ Kind.root.rule.slots := List.mem_singleton.2 rfl
      exact ⟨root, hroot, rfl, .refl, hroot.kind, ⟨_, hdeclared, rfl, rfl⟩, hslot⟩
    · obtain ⟨node, hnode, hreach⟩ := hfault.exists_node hvisit
      exact ⟨node, hroot, hnode, hreach, hfault.shows hroot.kind hvisit⟩

theorem compile_error_shows_sum_in_its_own_operand :
    let S := BlockTable.source ⟨[0],
      [⟨0, .root, [("CONTRACT", 1)], [], none⟩,
        ⟨1, .contract .define, [("VALUE", 2), ("THEN", 3)], [("NAME", .text "x")], none⟩,
        ⟨2, .value (.arithmetic .add), [("LHS", 3), ("RHS", 4)], [], none⟩,
        ⟨3, .value .timeStart, [], [], none⟩,
        ⟨4, .value .negate, [("VALUE", 2)], [], none⟩]⟩
    S.compile = .error (.cyclicSlot 2) ∧
      ∃ root, S.IsLeastRoot root ∧ ReflTransGen S.RefersTo root 2 ∧ TransGen S.Inside 2 2 := by
  intro S
  have herror : S.compile = .error (.cyclicSlot 2) := by decide +kernel
  refine ⟨herror, ?_⟩
  rcases compile_error_shows S _ herror with ⟨hmissing, -⟩ | ⟨root, node, hroot, hnode, hreach, hshows⟩
  · cases hmissing
  · cases hnode
    exact ⟨root, hroot, hreach, hshows⟩

end ContractBlocks.Source
