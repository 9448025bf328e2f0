import ContractBlocks.Proofs.Compile.Contents
import ContractBlocks.Proofs.Compile.Parts
import ContractBlocks.Proofs.Compile.Root
import Mathlib.Logic.Relation

namespace ContractBlocks.Source

open Relation

variable {S : Source}

/-- A block stands in a place of another. -/
def StandsIn (S : Source) (node : NodeId) : Place → NodeId → Prop
  | .field _, _ => False
  | .child slot, inner => S.slot node slot.name = some inner
  | .chain slot _, inner => ∃ nodes, S.ChainFrom (S.slot node slot) nodes ∧ inner ∈ nodes

/-- The block `inner` stands directly inside `outer`, in a place that the kind of `outer` has. -/
def Inside (S : Source) (inner outer : NodeId) : Prop :=
  ∃ kind, S.kind outer = some kind ∧ ∃ place ∈ kind.places, S.StandsIn outer place inner

theorem exists_of_forall₂_of_mem {α β : Type} {R : α → β → Prop} {as : List α} {bs : List β} {a : α}
    (hall : List.Forall₂ R as bs) (hmem : a ∈ as) : ∃ b ∈ bs, R a b := by
  induction hall with
  | nil => cases hmem
  | cons hab _ ih =>
    rcases List.mem_cons.1 hmem with rfl | htail
    · exact ⟨_, by simp, hab⟩
    · obtain ⟨b, hb, hR⟩ := ih htail
      exact ⟨b, by simp [hb], hR⟩

theorem Holds.of_standsIn {R : NodeId → Part → Prop} {node inner : NodeId} {place : Place}
    {content : Content} (hholds : S.Holds R node place content) (hinner : S.StandsIn node place inner) :
    ∃ part, R inner part := by
  unfold Holds at hholds
  split at hholds
  · exact hinner.elim
  · exact hinner.elim
  · obtain ⟨-, child, hslot, hpart⟩ := hholds
    cases hslot.symm.trans hinner
    exact ⟨_, hpart⟩
  · obtain ⟨-, nodes, hchain, hparts⟩ := hholds
    obtain ⟨others, hothers, hmem⟩ := hinner
    rw [← hchain.unique hothers] at hmem
    obtain ⟨part, -, hpart⟩ := exists_of_forall₂_of_mem hparts hmem
    exact ⟨part, hpart⟩
  · exact hholds.elim

/-- Going further and further inside a block that denotes something comes to an end. -/
theorem Denotes.acc {node : NodeId} {part : Part} (h : S.Denotes node part) : Acc S.Inside node := by
  refine h.induct_contents (motive := fun node _ => Acc S.Inside node) fun {outer _} hkind hholds => ?_
  refine Acc.intro outer fun inner ⟨kind, hfound, place, hplace, hinner⟩ => ?_
  rw [hkind] at hfound
  cases hfound
  obtain ⟨content, -, hcontent⟩ := exists_of_forall₂_of_mem hholds hplace
  obtain ⟨_, _, hacc⟩ := hcontent.of_standsIn hinner
  exact hacc

theorem not_transGen_self_of_acc {node : NodeId} (hacc : Acc S.Inside node) :
    ¬TransGen S.Inside node node := by
  have htrans := hacc.transGen
  clear hacc
  induction htrans with
  | intro node _ ih => exact fun hself => ih node hself hself

/-- No block of the path is the block or stands anywhere inside it. -/
def Clear (S : Source) (path : List NodeId) (node : NodeId) : Prop :=
  ∀ other ∈ path, ¬ReflTransGen S.Inside other node

theorem Clear.not_mem {path : List NodeId} {node : NodeId} (hclear : S.Clear path node) : node ∉ path :=
  fun hmem => hclear node hmem .refl

theorem Clear.inside {path : List NodeId} {inner outer : NodeId} (hclear : S.Clear path outer)
    (hacc : Acc S.Inside outer) (hinside : S.Inside inner outer) : S.Clear (outer :: path) inner := by
  intro other hother hreach
  rcases List.mem_cons.1 hother with rfl | hmem
  · -- A block inside its own child would be inside itself.
    exact not_transGen_self_of_acc hacc (TransGen.tail' hreach hinside)
  · exact hclear other hmem (hreach.tail hinside)

theorem Holds.placeViolations_eq_nil {R : NodeId → Part → Prop} {node : NodeId} {kind : Kind}
    {place : Place} {content : Content} {below : Category → NodeId → List Violation}
    (hholds : S.Holds R node place content)
    (hbelow : ∀ inner part, S.StandsIn node place inner → R inner part → below part.category inner = []) :
    S.placeViolations below node kind place = [] := by
  unfold Holds at hholds
  split at hholds
  · obtain ⟨value, hvalue, -⟩ := Option.map_eq_some_iff.1 hholds
    simp [placeViolations, fieldViolations, hvalue]
  · obtain ⟨value, hvalue, hn⟩ := Option.bind_eq_some_iff.1 hholds
    simp [placeViolations, fieldViolations, hvalue, hn]
  · obtain ⟨hcategory, child, hslot, hpart⟩ := hholds
    simp only [placeViolations, hslot, ← hcategory]
    exact hbelow child _ hslot hpart
  · next slot inner parts =>
    obtain ⟨hcategory, nodes, hchain, hparts⟩ := hholds
    simp only [placeViolations]
    cases hslot : S.slot node slot with
    | none => rfl
    | some first =>
      simp only [(hslot ▸ hchain).successors_eq [] (by simp), List.flatMap_eq_nil_iff]
      intro element hmem
      obtain ⟨part, hpart, hR⟩ := exists_of_forall₂_of_mem hparts hmem
      rw [← hcategory part hpart]
      exact hbelow element part ⟨nodes, hchain, hmem⟩ hR
  · exact hholds.elim

/-- No violation is found at a block that denotes something. A block of the path cannot come up
    again, since nothing that denotes a part has itself inside it. -/
theorem Denotes.violationsAt_eq_nil {node : NodeId} {part : Part} (h : S.Denotes node part)
    {path : List NodeId} (hclear : S.Clear path node) : S.violationsAt part.category path node = [] := by
  refine h.induct_contents (motive := fun node part => S.Denotes node part → ∀ path,
    S.Clear path node → S.violationsAt part.category path node = []) ?_ h path hclear
  intro outer part hkind hholds hdenotes path hclear
  rw [← part.category_kind, S.violationsAt_of_not_mem_path hkind hclear.not_mem, List.flatMap_eq_nil_iff]
  intro place hplace
  obtain ⟨content, -, hcontent⟩ := exists_of_forall₂_of_mem hholds hplace
  refine hcontent.placeViolations_eq_nil fun inner part hinner hpart => ?_
  exact hpart.2 hpart.1 _ (hclear.inside hdenotes.acc ⟨_, hkind, place, hplace, hinner⟩)

/-- Compiling makes exactly the contract that the block below the least top-level root denotes. It
    fails on no source that denotes one, whatever blocks are shared, and on every other. -/
theorem compile_eq_ok_iff_denotes (S : Source) (contract : Contract) :
    S.compile = .ok contract ↔
      ∃ root node, S.IsLeastRoot root ∧ S.slot root "CONTRACT" = some node ∧
        S.Denotes node (.contract contract) := by
  rw [compile_eq]
  constructor
  · intro hok
    split at hok
    · next root hroot =>
      simp only [compileBelow] at hok
      split at hok
      · next node hslot =>
        exact ⟨root, node, (S.leastRoot?_eq_some_iff root).1 hroot, hslot,
          ((Parts.parts_finds S).contract node).post_of_ok hok⟩
      · cases hok
    · cases hok
  · rintro ⟨root, node, hroot, hslot, hdenotes⟩
    rw [(S.leastRoot?_eq_some_iff root).2 hroot]
    simp only [compileBelow, hslot]
    have hfinds := (Parts.parts_finds S).contract node
    have hnone : S.violationsAt .contract [] node = [] :=
      hdenotes.violationsAt_eq_nil fun _ hmem => absurd hmem List.not_mem_nil
    obtain ⟨made, hmade⟩ := hfinds.ok_iff.2 hnone
    cases hdenotes.unique (hfinds.post_of_ok hmade)
    exact hmade

end ContractBlocks.Source
