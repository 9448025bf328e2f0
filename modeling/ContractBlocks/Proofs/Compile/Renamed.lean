import ContractBlocks.Proofs.Compile.Alike

namespace ContractBlocks

open Relation

namespace Violation

/-- A violation that names other blocks. -/
def rename (h : NodeId → NodeId) : Violation → Violation
  | .missingRoot => .missingRoot
  | .missingInput node kind slot => .missingInput (h node) kind slot
  | .wrongCategory node expected found => .wrongCategory (h node) expected found
  | .cyclicChain node => .cyclicChain (h node)
  | .cyclicSlot node => .cyclicSlot (h node)
  | .notInteger node kind field raw => .notInteger (h node) kind field raw
  | .missingField node kind field => .missingField (h node) kind field
  | .dangling node => .dangling (h node)

@[simp] theorem rename_id (violation : Violation) : violation.rename id = violation := by
  cases violation <;> rfl

end Violation

theorem Walk.Finds.eq_mapError {α : Type} {w v : Walk α} {path images : List NodeId}
    {faults : List Violation} {P Q : α → Prop} {f : Violation → Violation} (hw : w.Finds path faults P)
    (hv : v.Finds images (faults.map f) Q) (hsame : ∀ a b, P a → Q b → a = b) :
    (v images).1 = (w path).1.mapError f := by
  cases faults with
  | nil =>
    obtain ⟨a, ha, hpost⟩ := hw
    obtain ⟨b, hb, hother⟩ := hv
    rw [ha, hb, hsame a b hpost hother]
    rfl
  | cons fault _ =>
    have hfault : w path = (.error fault, path) := hw
    have himage : v images = (.error (f fault), images) := hv
    rw [hfault, himage]
    rfl

namespace Source

variable {S T : Source} {h : NodeId → NodeId} {root node : NodeId}

/-- What is reached from a block in `S` is in `T` under other ids, a different one for each block. -/
structure RenamedFrom (S T : Source) (h : NodeId → NodeId) (root : NodeId) : Prop where
  alike : S.AlikeFrom T h root
  injective : ∀ a b, ReflTransGen S.RefersTo root a → ReflTransGen S.RefersTo root b → h a = h b → a = b

namespace RenamedFrom

variable (hrenamed : S.RenamedFrom T h root)

include hrenamed

theorem alike_of_reaches (hreach : ReflTransGen S.RefersTo root node) : S.Alike T h node :=
  hrenamed.alike node hreach

/-- A block is in a path exactly where its image is in the image of the path. -/
theorem mem_map_iff {path : List NodeId} (hreach : ReflTransGen S.RefersTo root node)
    (hpath : ∀ other ∈ path, ReflTransGen S.RefersTo root other) : h node ∈ path.map h ↔ node ∈ path := by
  constructor
  · intro hmem
    obtain ⟨other, hother, hsame⟩ := List.mem_map.1 hmem
    rw [← hrenamed.injective other node (hpath other hother) hreach hsame]
    exact hother
  · exact List.mem_map_of_mem

/-- Following successors gives the images of the blocks, and comes back to a block exactly where it does
    in `S`. -/
theorem successors_eq (met : List NodeId) (hreach : ReflTransGen S.RefersTo root node)
    (hmet : ∀ other ∈ met, ReflTransGen S.RefersTo root other) :
    T.successors (met.map h) (h node) =
      match S.successors met node with
      | .ok nodes => .ok (nodes.map h)
      | .error again => .error (h again) := by
  have hmem := hrenamed.mem_map_iff hreach hmet
  fun_induction successors S met node with
  | case1 met node hold => exact T.successors_of_mem (hmem.2 hold)
  | case2 met node hnew hnext =>
    have himage : T.next (h node) = none := by
      rw [(hrenamed.alike_of_reaches hreach).next, hnext, Option.map_none]
    exact T.successors_of_last (hmem.not.2 hnew) himage
  | case3 met node hnew next hnext hless ih =>
    have himage : T.next (h node) = some (h next) := by
      rw [(hrenamed.alike_of_reaches hreach).next, hnext, Option.map_some]
    have hreachNext := hreach.tail (.inr hnext)
    have hmet : ∀ other ∈ node :: met, ReflTransGen S.RefersTo root other :=
      List.forall_mem_cons.2 ⟨hreach, hmet⟩
    have hrest := ih hreachNext hmet (hrenamed.mem_map_iff hreachNext hmet)
    rw [List.map_cons] at hrest
    rw [T.successors_of_next (hmem.not.2 hnew) himage, hrest]
    cases S.successors (node :: met) next <;> rfl

theorem fieldViolations_eq (hreach : ReflTransGen S.RefersTo root node) (kind : Kind) (field : FieldSlot) :
    T.fieldViolations (h node) kind field = (S.fieldViolations node kind field).map (.rename h) := by
  unfold fieldViolations
  rw [(hrenamed.alike_of_reaches hreach).field]
  cases S.field node field.name with
  | none => rfl
  | some value =>
    simp only
    split <;> rfl

/-- The image of a place has the violations of the place, if this is so of the blocks in it. -/
theorem placeViolations_eq {below images : Category → NodeId → List Violation}
    (hreach : ReflTransGen S.RefersTo root node)
    (hbelow : ∀ category inner, ReflTransGen S.RefersTo root inner →
      images category (h inner) = (below category inner).map (.rename h)) (kind : Kind) (place : Place) :
    T.placeViolations images (h node) kind place =
      (S.placeViolations below node kind place).map (.rename h) := by
  have halike := hrenamed.alike_of_reaches hreach
  cases place with
  | field field => exact hrenamed.fieldViolations_eq hreach kind field
  | child slot =>
    simp only [placeViolations, halike.slot]
    cases hslot : S.slot node slot.name with
    | none =>
      simp only [Option.map_none]
      split <;> rfl
    | some child => exact hbelow slot.category child (hreach.tail (.inl ⟨_, hslot⟩))
  | chain slot inner =>
    simp only [placeViolations, halike.slot]
    cases hslot : S.slot node slot with
    | none => rfl
    | some first =>
      have hfirst := hreach.tail (.inl ⟨_, hslot⟩)
      have hsuccessors := hrenamed.successors_eq [] hfirst (by simp)
      rw [List.map_nil] at hsuccessors
      simp only [Option.map_some, hsuccessors]
      cases helements : S.successors [] first with
      | error again => rfl
      | ok elements =>
        have hchain := S.chainFrom_of_successors helements
        simp only [List.map_flatMap, List.flatMap_map]
        refine List.flatMap_congr fun element hmem => hbelow inner element ?_
        exact hfirst.trans (refersTo_of_followedBy (hchain.reaches hmem))

/-- The violations at the image of a block are those at the block, in the same order, with the images
    of the blocks that they name. -/
theorem violationsAt_eq (expected : Category) (path : List NodeId)
    (hreach : ReflTransGen S.RefersTo root node) (hpath : ∀ other ∈ path, ReflTransGen S.RefersTo root other) :
    T.violationsAt expected (path.map h) (h node) = (S.violationsAt expected path node).map (.rename h) := by
  have hmem := hrenamed.mem_map_iff hreach hpath
  have hkind := (hrenamed.alike_of_reaches hreach).kind
  fun_induction violationsAt S expected path node with
  | case1 expected path node hnone => exact T.violationsAt_of_dangling (hkind.trans hnone)
  | case2 expected path node kind hsome hcategory =>
    exact T.violationsAt_of_category_ne (hkind.trans hsome) hcategory
  | case3 expected path node kind hsome hcategory hold =>
    rw [← Decidable.of_not_not hcategory]
    exact T.violationsAt_of_mem_path (hkind.trans hsome) (hmem.2 hold)
  | case4 expected path node kind hsome hcategory hnew hless ih =>
    have hpath : ∀ other ∈ node :: path, ReflTransGen S.RefersTo root other :=
      List.forall_mem_cons.2 ⟨hreach, hpath⟩
    have hbelow : ∀ category inner, ReflTransGen S.RefersTo root inner →
        T.violationsAt category (h node :: path.map h) (h inner) =
          (S.violationsAt category (node :: path) inner).map (.rename h) := by
      intro category inner hinner
      exact ih category inner hinner hpath (hrenamed.mem_map_iff hinner hpath)
        (hrenamed.alike_of_reaches hinner).kind
    rw [← Decidable.of_not_not hcategory, T.violationsAt_of_not_mem_path (hkind.trans hsome) (hmem.not.2 hnew),
      List.map_flatMap]
    exact List.flatMap_congr fun place _ => hrenamed.placeViolations_eq hreach hbelow kind place

/-- Compiling below the image of a root gives the same contract, or the same violation at the image of
    the block at fault. -/
theorem compileBelow_eq : T.compileBelow (h root) = (S.compileBelow root).mapError (.rename h) := by
  unfold compileBelow
  rw [hrenamed.alike.self.slot]
  cases hslot : S.slot root "CONTRACT" with
  | none => rfl
  | some node =>
    have hreach : ReflTransGen S.RefersTo root node := .single (.inl ⟨_, hslot⟩)
    have hfinds := (Parts.parts_finds S).contract node
    have himage := (Parts.parts_finds T).contract (h node)
    have hviolations := hrenamed.violationsAt_eq .contract [] hreach (by simp)
    rw [List.map_nil] at hviolations
    rw [hviolations] at himage
    refine hfinds.eq_mapError himage fun made other hmade hother => ?_
    have hsame := (hmade.image (hrenamed.alike.of_reaches hreach)).unique hother
    exact Part.contract.inj hsame

end RenamedFrom

/-- Two sources say the same of a block. -/
structure AgreesAt (S T : Source) (node : NodeId) : Prop where
  kind : S.kind node = T.kind node
  field : S.field node = T.field node
  slot : S.slot node = T.slot node
  next : S.next node = T.next node

theorem AgreesAt.alike (hagrees : S.AgreesAt T node) : S.Alike T id node where
  kind := hagrees.kind.symm
  field name := by rw [id, hagrees.field]
  slot name := by rw [id, hagrees.slot, Option.map_id_fun, id]
  next := by rw [id, hagrees.next, Option.map_id_fun, id]

/-- Compiling depends only on which top-level root is the least and on the blocks that are reached from
    it through slots and successors, whether it succeeds or fails. -/
theorem compile_eq_of_agree_below_root (S T : Source)
    (hroots : ∀ root, S.IsLeastRoot root ↔ T.IsLeastRoot root)
    (hagree : ∀ root node, S.IsLeastRoot root → ReflTransGen S.RefersTo root node → S.AgreesAt T node) :
    S.compile = T.compile := by
  have hleast : S.leastRoot? = T.leastRoot? := by
    refine Option.ext fun root => ?_
    rw [leastRoot?_eq_some_iff, leastRoot?_eq_some_iff, hroots]
  rw [compile_eq, compile_eq, ← hleast]
  cases hroot : S.leastRoot? with
  | none => rfl
  | some root =>
    have hroot := (S.leastRoot?_eq_some_iff root).1 hroot
    have hrenamed : S.RenamedFrom T id root :=
      ⟨fun node hreach => (hagree root node hroot hreach).alike, fun _ _ _ _ hsame => hsame⟩
    have hbelow := hrenamed.compileBelow_eq
    change S.compileBelow root = T.compileBelow root
    rw [id] at hbelow
    rw [hbelow]
    cases S.compileBelow root with
    | ok contract => rfl
    | error violation => simp [Except.mapError]

end Source

namespace BlockTable

variable {table other : BlockTable} {node target : NodeId}

theorem agreesAt_of_entry? (hentry : table.entry? node = other.entry? node) :
    table.source.AgreesAt other.source node := by
  constructor <;> simp [source, hentry]

theorem mem_map_snd_of_last? {α : Type} {name : String} {values : List (String × α)} {value : α}
    (hvalue : last? name values = some value) : value ∈ values.map Prod.snd := by
  obtain ⟨before, after, hvalues, -⟩ := List.lookup_eq_some_iff.1 hvalue
  have hmem : (name, value) ∈ values := by
    rw [← List.mem_reverse, hvalues]
    simp
  exact List.mem_map_of_mem hmem

theorem mem_entries_of_entry? {entry : TableEntry} (hentry : table.entry? node = some entry) :
    entry ∈ table.entries :=
  List.mem_reverse.1 (List.mem_of_find?_eq_some hentry)

/-- All that the blocks of a table refer to is written in its entries. -/
theorem exists_entry_of_refersTo (hrefers : table.source.RefersTo node target) :
    ∃ entry ∈ table.entries, target ∈ entry.slots.map Prod.snd ++ entry.next.toList := by
  rcases hrefers with ⟨slot, hslot⟩ | hnext
  · obtain ⟨entry, hentry, hslot⟩ := Option.bind_eq_some_iff.1 hslot
    exact ⟨entry, mem_entries_of_entry? hentry, List.mem_append_left _ (mem_map_snd_of_last? hslot)⟩
  · obtain ⟨entry, hentry, hnext⟩ := Option.bind_eq_some_iff.1 hnext
    exact ⟨entry, mem_entries_of_entry? hentry, by simp [hnext]⟩

end BlockTable

/-- A negation without operand stands below the root 2. Around it are a root that refers to no block, a
    chain that goes round, and ids that are listed twice and out of order. -/
theorem Source.compile_eq_of_agree_below_root_broken_neighbours :
    let entries : List TableEntry :=
      [⟨2, .root, [("CONTRACT", 4)], [], none⟩, ⟨4, .contract .assert, [("OBS", 5), ("THEN", 6)], [], none⟩,
        ⟨5, .observation .not, [], [], none⟩, ⟨6, .contract .close, [], [], none⟩]
    let S := BlockTable.source ⟨[2], entries⟩
    let T := BlockTable.source ⟨[9, 7, 2, 7, 2], entries ++ [⟨7, .root, [("CONTRACT", 99)], [], none⟩,
      ⟨9, .contract .when, [("CASES", 8)], [], none⟩, ⟨8, .case, [("ACTION", 9)], [], some 8⟩]⟩
    S.IsLeastRoot 2 ∧ T.IsLeastRoot 2 ∧
      (∀ node, ReflTransGen S.RefersTo 2 node → S.AgreesAt T node) ∧
      S.compile = .error (.missingInput 5 (.observation .not) "OBS") ∧
      T.compile = .error (.missingInput 5 (.observation .not) "OBS") := by
  intro entries S T
  have hleast : ∀ root, S.IsLeastRoot root ↔ root = 2 := by
    intro root
    have hfound : S.leastRoot? = some 2 := by decide +kernel
    rw [← leastRoot?_eq_some_iff, hfound, Option.some.injEq, eq_comm]
  have himage : ∀ root, T.IsLeastRoot root ↔ root = 2 := by
    intro root
    have hfound : T.leastRoot? = some 2 := by decide +kernel
    rw [← leastRoot?_eq_some_iff, hfound, Option.some.injEq, eq_comm]
  have hreached : ∀ node, ReflTransGen S.RefersTo 2 node → node ∈ entries.map TableEntry.id := by
    intro node hreach
    cases hreach with
    | refl => simp [entries]
    | tail _ hrefers =>
      obtain ⟨entry, hentry, htarget⟩ := BlockTable.exists_entry_of_refersTo hrefers
      have hlisted : ∀ entry ∈ entries, ∀ target ∈ entry.slots.map Prod.snd ++ entry.next.toList,
          target ∈ entries.map TableEntry.id := by
        decide +kernel
      exact hlisted entry hentry node htarget
  have hagree : ∀ node, ReflTransGen S.RefersTo 2 node → S.AgreesAt T node := by
    intro node hreach
    refine BlockTable.agreesAt_of_entry? ?_
    have hmem : node = 2 ∨ node = 4 ∨ node = 5 ∨ node = 6 := by simpa [entries] using hreached node hreach
    rcases hmem with rfl | rfl | rfl | rfl <;> rfl
  have herror : S.compile = .error (.missingInput 5 (.observation .not) "OBS") := by decide +kernel
  have hsame := compile_eq_of_agree_below_root S T (fun root => (hleast root).trans (himage root).symm)
    fun root node hroot hreach => hagree node ((hleast root).1 hroot ▸ hreach)
  exact ⟨(hleast 2).2 rfl, (himage 2).2 rfl, hagree, herror, hsame.symm.trans herror⟩

end ContractBlocks
