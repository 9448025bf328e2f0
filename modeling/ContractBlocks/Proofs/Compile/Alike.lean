import ContractBlocks.Proofs.Compile.Visits
import ContractBlocks.Source.Table

namespace ContractBlocks

open Relation

namespace Source

variable {S T : Source} {h : NodeId → NodeId} {node inner : NodeId} {part : Part}

/-- In `T` the block `h node` is as `node` is in `S`: it has the same kind and fields, and it refers to
    the images of the blocks that `node` refers to. -/
structure Alike (S T : Source) (h : NodeId → NodeId) (node : NodeId) : Prop where
  kind : T.kind (h node) = S.kind node
  field : ∀ name, T.field (h node) name = S.field node name
  slot : ∀ name, T.slot (h node) name = (S.slot node name).map h
  next : T.next (h node) = (S.next node).map h

/-- A block and all blocks that are reached from it are alike. No more is asked of `h`: it may send
    several blocks to one. -/
def AlikeFrom (S T : Source) (h : NodeId → NodeId) (node : NodeId) : Prop :=
  ∀ inner, ReflTransGen S.RefersTo node inner → S.Alike T h inner

theorem Alike.text? (halike : S.Alike T h node) (name : String) : T.text? (h node) name = S.text? node name := by
  rw [Source.text?, Source.text?, halike.field]

theorem Alike.integer? (halike : S.Alike T h node) (name : String) :
    T.integer? (h node) name = S.integer? node name := by
  rw [Source.integer?, Source.integer?, halike.field]

namespace AlikeFrom

theorem self (halike : S.AlikeFrom T h node) : S.Alike T h node :=
  halike node .refl

theorem of_reaches (halike : S.AlikeFrom T h node) (hreach : ReflTransGen S.RefersTo node inner) :
    S.AlikeFrom T h inner :=
  fun other hother => halike other (hreach.trans hother)

theorem of_slot {slot : String} (halike : S.AlikeFrom T h node) (hslot : S.slot node slot = some inner) :
    S.AlikeFrom T h inner :=
  halike.of_reaches (.single (.inl ⟨slot, hslot⟩))

theorem of_next (halike : S.AlikeFrom T h node) (hnext : S.next node = some inner) :
    S.AlikeFrom T h inner :=
  halike.of_reaches (.single (.inr hnext))

end AlikeFrom

/-- The image of a chain is a chain. -/
theorem ChainFrom.image {start : Option NodeId} {nodes : List NodeId} (hchain : S.ChainFrom start nodes)
    (halike : ∀ first ∈ start, S.AlikeFrom T h first) : T.ChainFrom (start.map h) (nodes.map h) := by
  induction hchain with
  | nil => exact .nil
  | @cons node rest _ ih =>
    have hnode := halike node rfl
    have hrest := ih fun next hnext => hnode.of_next hnext
    rw [← hnode.self.next] at hrest
    exact .cons hrest

/-- A chain that starts at an image is the image of a chain. -/
theorem ChainFrom.of_image {start : Option NodeId} {images : List NodeId}
    (hchain : T.ChainFrom (start.map h) images) (halike : ∀ first ∈ start, S.AlikeFrom T h first) :
    ∃ nodes, S.ChainFrom start nodes ∧ nodes.map h = images := by
  induction images generalizing start with
  | nil =>
    cases start with
    | none => exact ⟨[], .nil, rfl⟩
    | some node => cases hchain
  | cons image images ih =>
    cases start with
    | none => cases hchain
    | some node =>
      cases hchain with
      | cons hrest =>
        have hnode := halike node rfl
        rw [hnode.self.next] at hrest
        obtain ⟨nodes, hnodes, rfl⟩ := ih hrest fun next hnext => hnode.of_next hnext
        exact ⟨node :: nodes, .cons hnodes, rfl⟩

/-- The elements of a chain that starts in a slot of a block are reached from the block. -/
theorem ChainFrom.refersTo {slot : String} {nodes : List NodeId} (hchain : S.ChainFrom (S.slot node slot) nodes)
    (hmem : inner ∈ nodes) : ReflTransGen S.RefersTo node inner := by
  cases hslot : S.slot node slot with
  | none =>
    rw [hslot] at hchain
    cases hchain
    cases hmem
  | some first =>
    rw [hslot] at hchain
    exact .head (.inl ⟨slot, hslot⟩) (refersTo_of_followedBy (hchain.reaches hmem))

section Holds

variable {R Q : NodeId → Part → Prop} {place : Place} {content : Content}

/-- What a place holds, its image holds. -/
theorem Holds.image (hholds : S.Holds R node place content) (halike : S.AlikeFrom T h node)
    (himage : ∀ inner part, ReflTransGen S.RefersTo node inner → R inner part → Q (h inner) part) :
    T.Holds Q (h node) place content := by
  unfold Holds at hholds
  split at hholds
  · exact (halike.self.text? _).trans hholds
  · exact (halike.self.integer? _).trans hholds
  · obtain ⟨hcategory, child, hslot, hpart⟩ := hholds
    refine ⟨hcategory, h child, ?_, himage child _ (.single (.inl ⟨_, hslot⟩)) hpart⟩
    rw [halike.self.slot, hslot, Option.map_some]
  · next slot category parts =>
    obtain ⟨hcategory, nodes, hchain, hparts⟩ := hholds
    refine ⟨hcategory, nodes.map h, ?_, ?_⟩
    · rw [halike.self.slot]
      exact hchain.image fun first hfirst => halike.of_slot hfirst
    · have hreached := (List.forall₂_and_left _ _).2 ⟨fun inner hmem => hchain.refersTo hmem, hparts⟩
      rw [List.forall₂_map_left_iff]
      exact hreached.imp fun inner part hboth => himage inner part hboth.1 hboth.2
  · exact hholds.elim

/-- What the image of a place holds, the place itself holds. -/
theorem Holds.of_image (hholds : T.Holds R (h node) place content) (halike : S.AlikeFrom T h node)
    (himage : ∀ inner part, ReflTransGen S.RefersTo node inner → R (h inner) part → Q inner part) :
    S.Holds Q node place content := by
  unfold Holds at hholds
  split at hholds
  · exact (halike.self.text? _).symm.trans hholds
  · exact (halike.self.integer? _).symm.trans hholds
  · obtain ⟨hcategory, image, himageSlot, hpart⟩ := hholds
    rw [halike.self.slot] at himageSlot
    obtain ⟨child, hslot, rfl⟩ := Option.map_eq_some_iff.1 himageSlot
    exact ⟨hcategory, child, hslot, himage child _ (.single (.inl ⟨_, hslot⟩)) hpart⟩
  · next slot category parts =>
    obtain ⟨hcategory, images, himages, hparts⟩ := hholds
    rw [halike.self.slot] at himages
    obtain ⟨nodes, hchain, rfl⟩ := himages.of_image fun first hfirst => halike.of_slot hfirst
    rw [List.forall₂_map_left_iff] at hparts
    have hreached := (List.forall₂_and_left _ _).2 ⟨fun inner hmem => hchain.refersTo hmem, hparts⟩
    exact ⟨hcategory, nodes, hchain, hreached.imp fun inner part hboth => himage inner part hboth.1 hboth.2⟩
  · exact hholds.elim

end Holds

theorem Denotes.image (hdenotes : S.Denotes node part) (halike : S.AlikeFrom T h node) :
    T.Denotes (h node) part := by
  refine hdenotes.induct_contents (motive := fun node part => S.AlikeFrom T h node → T.Denotes (h node) part)
    (fun {node part} hkind hholds halike => ?_) halike
  refine denotes_of_holds (halike.self.kind.trans hkind) (hholds.imp fun place content hcontent => ?_)
  exact hcontent.image halike fun inner part hreach hpart => hpart.2 (halike.of_reaches hreach)

theorem Denotes.of_image (hdenotes : T.Denotes (h node) part) (halike : S.AlikeFrom T h node) :
    S.Denotes node part := by
  -- The induction is on the derivation in `T`. Several blocks may have the image that it is about, so
  -- what is shown holds of all of them.
  refine hdenotes.induct_contents
    (motive := fun image part => ∀ node, h node = image → S.AlikeFrom T h node → S.Denotes node part)
    (fun {image part} hkind hholds node hnode halike => ?_) node rfl halike
  subst hnode
  refine denotes_of_holds (halike.self.kind.symm.trans hkind) (hholds.imp fun place content hcontent => ?_)
  exact hcontent.of_image halike fun inner part hreach hpart => hpart.2 inner rfl (halike.of_reaches hreach)

/-- What a block denotes does not depend on which of the blocks that are reached from it are one and
    the same, nor on their ids. -/
theorem AlikeFrom.denotes_iff (halike : S.AlikeFrom T h node) : S.Denotes node part ↔ T.Denotes (h node) part :=
  ⟨fun hdenotes => hdenotes.image halike, fun hdenotes => hdenotes.of_image halike⟩

/-- A contract is made exactly where a block denotes one. -/
theorem contract_eq_ok_iff (S : Source) (node : NodeId) (contract : Contract) :
    (S.parts.contract node []).1 = .ok contract ↔ S.Denotes node (.contract contract) := by
  have hfinds := (Parts.parts_finds S).contract node
  refine ⟨hfinds.post_of_ok, fun hdenotes => ?_⟩
  have hnone : S.violationsAt .contract [] node = [] :=
    hdenotes.violationsAt_eq_nil fun _ hmem => absurd hmem List.not_mem_nil
  obtain ⟨made, hmade⟩ := hfinds.ok_iff.2 hnone
  cases hdenotes.unique (hfinds.post_of_ok hmade)
  exact hmade

theorem compileBelow_eq_ok_iff (S : Source) (root : NodeId) (contract : Contract) :
    S.compileBelow root = .ok contract ↔
      ∃ node, S.slot root "CONTRACT" = some node ∧ S.Denotes node (.contract contract) := by
  unfold compileBelow
  cases S.slot root "CONTRACT" with
  | none => simp
  | some node => simp [contract_eq_ok_iff]

theorem IsLeastRoot.compile_eq {root : NodeId} (hroot : S.IsLeastRoot root) : S.compile = S.compileBelow root := by
  rw [Source.compile_eq, (S.leastRoot?_eq_some_iff root).2 hroot]

theorem AlikeFrom.compileBelow_eq_ok_iff {root : NodeId} (halike : S.AlikeFrom T h root) (contract : Contract) :
    S.compileBelow root = .ok contract ↔ T.compileBelow (h root) = .ok contract := by
  rw [Source.compileBelow_eq_ok_iff, Source.compileBelow_eq_ok_iff, halike.self.slot]
  cases hslot : S.slot root "CONTRACT" with
  | none => simp
  | some node =>
    have hbelow := halike.of_slot hslot
    simp [hbelow.denotes_iff]

/-- A block and its image give the same contract, or both give none, if all blocks that are reached
    from it are like their images. Where several blocks have one image, as the copies of a shared block
    do in the tree that a graph unfolds to, nothing changes; nor does it where only the ids differ. So
    sources whose least roots correspond compile to the same contract, or both to none. -/
theorem same_contract_of_alikeFrom (S T : Source) (h : NodeId → NodeId) :
    (∀ node, S.AlikeFrom T h node → ∀ contract,
      (S.parts.contract node []).1 = .ok contract ↔ (T.parts.contract (h node) []).1 = .ok contract) ∧
    ∀ root, S.IsLeastRoot root → T.IsLeastRoot (h root) → S.AlikeFrom T h root → ∀ contract,
      S.compile = .ok contract ↔ T.compile = .ok contract := by
  constructor
  · intro node halike contract
    rw [contract_eq_ok_iff, contract_eq_ok_iff, halike.denotes_iff]
  · intro root hroot himage halike contract
    rw [hroot.compile_eq, himage.compile_eq, halike.compileBelow_eq_ok_iff]

end Source

/-- An entry of a table with other ids. -/
def TableEntry.rename (h : NodeId → NodeId) (entry : TableEntry) : TableEntry where
  id := h entry.id
  kind := entry.kind
  slots := entry.slots.map fun slot => (slot.1, h slot.2)
  fields := entry.fields
  next := entry.next.map h

namespace BlockTable

theorem last?_map {α β : Type} (f : α → β) (name : String) (values : List (String × α)) :
    last? name (values.map fun value => (value.1, f value.2)) = (last? name values).map f := by
  unfold last?
  rw [← List.map_reverse]
  induction values.reverse with
  | nil => rfl
  | cons value values ih =>
    rw [List.map_cons, List.lookup_cons, List.lookup_cons, ih]
    split <;> rfl

/-- An entry and its image with other ids are of blocks that are alike. -/
theorem alike_of_entry? {s t : BlockTable} {h : NodeId → NodeId} {node : NodeId}
    (hentry : t.entry? (h node) = (s.entry? node).map (.rename h)) : s.source.Alike t.source h node := by
  constructor
  · simp only [source, hentry, Option.map_map]
    rfl
  · intro name
    simp only [source, hentry, Option.bind_map]
    rfl
  · intro name
    simp only [source, hentry]
    cases s.entry? node with
    | none => rfl
    | some entry => exact last?_map h name entry.slots
  · simp only [source, hentry]
    cases s.entry? node <;> rfl

end BlockTable

/-- Both branches of a contract are the same block, with a chain of two cases; in the unfolded source
    the second branch, with the id 8, is a copy with copies of the cases. -/
theorem Source.same_contract_of_alikeFrom_shared_branch :
    let waiting (id cases : NodeId) : TableEntry :=
      ⟨id, .contract .when, [("CASES", cases), ("TIMEOUT_CONT", 6)], [("TIMEOUT", .text "9")], none⟩
    let case (id : NodeId) (next : Option NodeId) : TableEntry :=
      ⟨id, .case, [("ACTION", 5), ("THEN", 6)], [], next⟩
    let branch (id : NodeId) : TableEntry :=
      ⟨1, .contract .branch, [("COND", 2), ("THEN", 3), ("ELSE", id)], [], none⟩
    let common : List TableEntry :=
      [⟨0, .root, [("CONTRACT", 1)], [], none⟩, ⟨2, .observation (.literal true), [], [], none⟩,
        waiting 3 4, case 4 (some 7), ⟨5, .action .notify, [("OBS", 2)], [], none⟩,
        ⟨6, .contract .close, [], [], none⟩, case 7 none]
    let shared := BlockTable.source ⟨[0], branch 3 :: common⟩
    let unfolded := BlockTable.source
      ⟨[0], branch 8 :: waiting 8 9 :: case 9 (some 10) :: case 10 none :: common⟩
    let h : NodeId → NodeId
      | 8 => 3
      | 9 => 4
      | 10 => 7
      | node => node
    let made : Case := .mk (.notify (.literal true)) .close
    let after : Contract := .when [made, made] 9 .close
    unfolded.AlikeFrom shared h 0 ∧ unfolded.AlikeFrom shared h 8 ∧
      (shared.parts.contract 3 []).1 = .ok after ∧ (unfolded.parts.contract 8 []).1 = .ok after ∧
      shared.compile = .ok (.branch (.literal true) after after) ∧
      unfolded.compile = .ok (.branch (.literal true) after after) := by
  intro waiting case branch common shared unfolded h made after
  have halike : ∀ node, unfolded.Alike shared h node := by
    intro node
    refine BlockTable.alike_of_entry? ?_
    match node with
    | 0 | 1 | 2 | 3 | 4 | 5 | 6 | 7 | 8 | 9 | 10 => rfl
    | node + 11 =>
      have hself : h (node + 11) = node + 11 := rfl
      rw [hself]
      simp [BlockTable.entry?, waiting, case, branch, common]
  have hfrom : ∀ node, unfolded.AlikeFrom shared h node := fun _ inner _ => halike inner
  have hroot : unfolded.IsLeastRoot 0 := (unfolded.leastRoot?_eq_some_iff 0).1 (by decide +kernel)
  have himage : shared.IsLeastRoot 0 := (shared.leastRoot?_eq_some_iff 0).1 (by decide +kernel)
  have hafter : (shared.parts.contract 3 []).1 = .ok after := by decide +kernel
  have hshared : shared.compile = .ok (.branch (.literal true) after after) := by decide +kernel
  obtain ⟨hcontract, hcompile⟩ := same_contract_of_alikeFrom unfolded shared h
  exact ⟨hfrom 0, hfrom 8, hafter, (hcontract 8 (hfrom 8) _).2 hafter, hshared,
    (hcompile 0 hroot himage (hfrom 0) _).2 hshared⟩

end ContractBlocks
