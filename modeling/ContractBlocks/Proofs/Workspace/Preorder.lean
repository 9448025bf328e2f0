import ContractBlocks.Proofs.Json.Named
import ContractBlocks.Proofs.Workspace.Plugged
import Mathlib.Data.List.Range

namespace ContractBlocks.PlacedBlock

variable {block inner : PlacedBlock} {label : Label} {id first source target : Nat}
  {blocks : List PlacedBlock} {plugs : List (Label × PlacedBlock)}

theorem sizeOf_lt_of_target? {connection : Connection PlacedBlock}
    (htarget : connection.target? = some inner) : sizeOf inner < sizeOf connection := by
  obtain ⟨block, shadow⟩ := connection
  cases block with
  | some block =>
    cases htarget
    simp
    omega
  | none =>
    cases htarget
    simp
    omega

theorem sizeOf_lt_of_mem_plugs (hplug : (label, inner) ∈ block.plugs) : sizeOf inner < sizeOf block := by
  obtain ⟨tag, editorId, fields, inputs, next⟩ := block
  rcases List.mem_append.1 hplug with hinput | hfollows
  · obtain ⟨⟨name, connection⟩, hmem, htarget, -⟩ := mem_inputPlugs.1 hinput
    have hinner := sizeOf_lt_of_target? htarget
    have hinputs := List.sizeOf_lt_of_mem hmem
    simp at hinner hinputs ⊢
    omega
  · obtain ⟨connection, hmem, htarget⟩ := Option.bind_eq_some_iff.1 (mem_nextPlug.1 hfollows).2
    have hinner := sizeOf_lt_of_target? htarget
    cases hmem
    simp
    omega

/-- A block and all blocks inside it: the block, then what is plugged into it, one after the other. -/
def preorder (block : PlacedBlock) : List PlacedBlock :=
  block :: block.plugs.attach.flatMap fun plug => preorder plug.1.2
termination_by sizeOf block
decreasing_by exact sizeOf_lt_of_mem_plugs plug.2

/-- The blocks that are plugged in and all blocks inside them. -/
def inside (plugs : List (Label × PlacedBlock)) : List PlacedBlock :=
  (plugs.map Prod.snd).flatMap preorder

theorem preorder_eq (block : PlacedBlock) : block.preorder = block :: inside block.plugs := by
  have hinside : inside block.plugs = block.plugs.attach.flatMap fun plug => preorder plug.1.2 := by
    conv => lhs; rw [inside, ← block.plugs.attach_map_subtype_val]
    simp [List.flatMap_map]
  rw [preorder, hinside]

/-- The ids of blocks that are added one after the other, each with all that is inside it. -/
def starts (first : Nat) : List PlacedBlock → List NodeId
  | [] => []
  | block :: blocks => first :: starts (first + block.preorder.length) blocks

/-- The links from a block to what is plugged into it, which is added from the id `first` on. Each
    is given by its source, its label and its target. -/
def plugWires (id first : Nat) : List (Label × PlacedBlock) → List (NodeId × Label × NodeId)
  | [] => []
  | (label, inner) :: plugs => (id, label, first) :: plugWires id (first + inner.preorder.length) plugs

/-- The links from blocks in preorder, which have the ids from `first` on. -/
def wires (first : Nat) : List PlacedBlock → List (NodeId × Label × NodeId)
  | [] => []
  | block :: blocks => plugWires first (first + 1) block.plugs ++ wires (first + 1) blocks

@[simp] theorem inside_nil : inside [] = [] :=
  rfl

@[simp] theorem inside_cons : inside ((label, inner) :: plugs) = inner.preorder ++ inside plugs := by
  simp [inside]

theorem wires_append (first : Nat) (blocks others : List PlacedBlock) :
    wires first (blocks ++ others) = wires first blocks ++ wires (first + blocks.length) others := by
  induction blocks generalizing first with
  | nil => simp [wires]
  | cons block blocks ih =>
    have hfirst : first + 1 + blocks.length = first + (blocks.length + 1) := by omega
    simp [wires, ih, hfirst]

theorem map_target_plugWires (id first : Nat) (plugs : List (Label × PlacedBlock)) :
    (plugWires id first plugs).map (fun wire => wire.2.2) = starts first (plugs.map Prod.snd) := by
  induction plugs generalizing first with
  | nil => rfl
  | cons plug plugs ih => simp [plugWires, starts, ih]

/-- Induction over a forest: what holds of the blocks inside the first block and of the other blocks
    holds of all. -/
@[elab_as_elim]
theorem forest_induction {motive : List PlacedBlock → Prop} (nil : motive [])
    (cons : ∀ block blocks, motive (block.plugs.map Prod.snd) → motive blocks → motive (block :: blocks))
    (blocks : List PlacedBlock) : motive blocks := by
  match blocks with
  | [] => exact nil
  | block :: blocks =>
    exact cons block blocks (forest_induction nil cons _) (forest_induction nil cons blocks)
termination_by (blocks.flatMap preorder).length
decreasing_by
  · rw [List.flatMap_cons, preorder_eq, inside, List.length_append, List.length_cons]
    omega
  · rw [List.flatMap_cons, preorder_eq, List.length_append, List.length_cons]
    omega

theorem length_preorder (block : PlacedBlock) : block.preorder.length = 1 + (inside block.plugs).length := by
  rw [preorder_eq, List.length_cons, Nat.add_comm]

theorem wires_preorder (first : Nat) (block : PlacedBlock) :
    wires first block.preorder =
      plugWires first (first + 1) block.plugs ++ wires (first + 1) (inside block.plugs) := by
  rw [preorder_eq, wires]

/-- In a forest every block is once the start of a tree or the target of a link. -/
theorem starts_append_targets_perm (first : Nat) (blocks : List PlacedBlock) :
    (starts first blocks ++ (wires first (blocks.flatMap preorder)).map fun wire => wire.2.2).Perm
      (List.range' first (blocks.flatMap preorder).length) := by
  induction blocks using forest_induction generalizing first with
  | nil => rfl
  | cons block blocks hinside hblocks =>
    have hinside := hinside (first + 1)
    have hblocks := hblocks (first + 1 + (inside block.plugs).length)
    rw [List.flatMap_cons, wires_append, wires_preorder, List.length_append, length_preorder, starts,
      length_preorder, ← Nat.add_assoc, Nat.add_assoc 1, Nat.add_comm 1, List.range'_succ,
      ← List.range'_append_1, List.map_append, List.map_append, map_target_plugWires, List.cons_append]
    exact (List.perm_append_comm_assoc _ _ _).trans (hinside.append hblocks) |>.cons first

theorem mem_plugWires_source (hmem : (source, label, target) ∈ plugWires id first plugs) : source = id := by
  induction plugs generalizing first with
  | nil => cases hmem
  | cons plug plugs ih =>
    rcases List.mem_cons.1 hmem with heq | hrest
    · exact congrArg Prod.fst heq
    · exact ih hrest

theorem le_of_mem_wires (hmem : (source, label, target) ∈ wires first blocks) : first ≤ source := by
  induction blocks generalizing first with
  | nil => cases hmem
  | cons block blocks ih =>
    rcases List.mem_append.1 hmem with hblock | hrest
    · exact (mem_plugWires_source hblock).ge
    · exact Nat.le_of_succ_le (ih hrest)

/-- The links that leave a block of a forest are those to what is plugged into it. -/
theorem mem_wires_iff :
    (first + id, label, target) ∈ wires first blocks ↔
      ∃ block, blocks[id]? = some block ∧
        (first + id, label, target) ∈ plugWires (first + id) (first + id + 1) block.plugs := by
  induction blocks generalizing first id with
  | nil => simp [wires]
  | cons block blocks ih =>
    rw [wires, List.mem_append]
    cases id with
    | zero =>
      have hother : (first, label, target) ∉ wires (first + 1) blocks :=
        fun hmem => Nat.not_succ_le_self first (le_of_mem_wires hmem)
      simp [hother]
    | succ id =>
      have hshift : first + (id + 1) = first + 1 + id := by omega
      have hother : (first + 1 + id, label, target) ∉ plugWires first (first + 1) block.plugs := by
        intro hmem
        have hsource := mem_plugWires_source hmem
        omega
      simp only [hshift, hother, false_or, ih, List.getElem?_cons_succ]

/-- What is plugged in under a label. -/
def plug? (block : PlacedBlock) : Label → Option PlacedBlock
  | .slot name => (block.inputs.lookup name).bind Connection.target?
  | .next => block.next.bind Connection.target?

/-- The blocks inside a block that come before what is plugged in under a label. -/
def before (block : PlacedBlock) (label : Label) : List PlacedBlock :=
  inside (block.plugs.takeWhile fun plug => plug.1 ≠ label)

theorem lookup_inputPlugs {inputs : List (String × Connection PlacedBlock)} (name : String)
    (hnames : (inputs.map Prod.fst).Nodup) :
    (inputPlugs inputs).lookup (.slot name) = (inputs.lookup name).bind Connection.target? := by
  induction inputs with
  | nil => rfl
  | cons input inputs ih =>
    obtain ⟨hnew, hnames⟩ := List.nodup_cons.1 hnames
    have hih := ih hnames
    rw [lookup_cons]
    cases htarget : input.2.target? with
    | none =>
      have hskip : inputPlugs (input :: inputs) = inputPlugs inputs := by simp [inputPlugs, htarget]
      rw [hskip, hih]
      split
      · next hname => simp [hname, lookup_eq_none_of_notMem hnew, htarget]
      · rfl
    | some inner =>
      have hplug : inputPlugs (input :: inputs) = (.slot input.1, inner) :: inputPlugs inputs := by
        simp [inputPlugs, htarget]
      rw [hplug, lookup_cons, hih]
      by_cases hname : name = input.1 <;> simp [hname, htarget]

theorem lookup_plugs (label : Label) (hnames : (block.inputs.map Prod.fst).Nodup) :
    block.plugs.lookup label = block.plug? label := by
  rw [plugs, List.lookup_append]
  cases label with
  | slot name =>
    have hnext : (nextPlug block.next).lookup (.slot name) = none := by
      unfold nextPlug
      split <;> rfl
    rw [lookup_inputPlugs name hnames, hnext, Option.or_none, plug?]
  | next =>
    have hinputs : (inputPlugs block.inputs).lookup .next = none := by
      rw [List.lookup_eq_none_iff]
      rintro ⟨other, inner⟩ hplug
      obtain ⟨input, -, -, rfl⟩ := mem_inputPlugs.1 hplug
      rfl
    rw [hinputs, Option.none_or, nextPlug, plug?]
    split
    · next hblock => simp [hblock]
    · next hnone => simp [hnone]

/-- The link under a label leads to where what is plugged in there starts. -/
theorem mem_plugWires_iff (hlabels : (plugs.map Prod.fst).Nodup) :
    (id, label, target) ∈ plugWires id first plugs ↔
      (plugs.lookup label).isSome ∧
        target = first + (inside (plugs.takeWhile fun plug => plug.1 ≠ label)).length := by
  induction plugs generalizing first with
  | nil => simp [plugWires]
  | cons plug plugs ih =>
    obtain ⟨other, inner⟩ := plug
    obtain ⟨hnew, hrest⟩ := List.nodup_cons.1 hlabels
    by_cases hlabel : label = other
    · subst hlabel
      rw [plugWires, List.mem_cons, ih hrest, lookup_eq_none_of_notMem hnew, lookup_cons]
      simp
    · have hbefore : (((other, inner) :: plugs).takeWhile fun plug => plug.1 ≠ label) =
          (other, inner) :: plugs.takeWhile fun plug => plug.1 ≠ label := by
        simp [Ne.symm hlabel]
      rw [plugWires, List.mem_cons, ih hrest, hbefore, inside_cons, List.length_append, Nat.add_assoc,
        lookup_cons, if_neg hlabel]
      simp [hlabel]

theorem inside_isPrefix (hinner : plugs.lookup label = some inner) :
    inside (plugs.takeWhile fun plug => plug.1 ≠ label) ++ inner.preorder <+: inside plugs := by
  induction plugs with
  | nil => cases hinner
  | cons plug plugs ih =>
    obtain ⟨other, first⟩ := plug
    rw [lookup_cons] at hinner
    by_cases hlabel : label = other
    · rw [if_pos hlabel] at hinner
      cases hinner
      simp [hlabel]
    · rw [if_neg hlabel] at hinner
      have hbefore : (((other, first) :: plugs).takeWhile fun plug => plug.1 ≠ label) =
          (other, first) :: plugs.takeWhile fun plug => plug.1 ≠ label := by
        simp [Ne.symm hlabel]
      rw [hbefore, inside_cons, inside_cons, List.append_assoc]
      exact (List.prefix_append_right_inj _).2 (ih hinner)

/-- A block of a forest and all blocks inside it stand together. -/
theorem preorder_isPrefix (hblock : (blocks.flatMap preorder)[id]? = some block) :
    block.preorder <+: (blocks.flatMap preorder).drop id := by
  induction blocks using forest_induction generalizing id with
  | nil => simp at hblock
  | cons head blocks hinside hblocks =>
    rw [List.flatMap_cons] at hblock ⊢
    by_cases hhead : id < head.preorder.length
    · rw [List.getElem?_append_left hhead] at hblock
      rw [List.drop_append_of_le_length (Nat.le_of_lt hhead)]
      refine List.IsPrefix.trans ?_ (List.prefix_append _ _)
      rw [preorder_eq head] at hblock ⊢
      cases id with
      | zero =>
        cases hblock
        rw [← preorder_eq]
        exact List.prefix_rfl
      | succ id => exact hinside hblock
    · have hpast := Nat.le_of_not_lt hhead
      rw [List.getElem?_append_right hpast] at hblock
      rw [List.drop_append, List.drop_eq_nil_of_le hpast, List.nil_append]
      exact hblocks hblock

end ContractBlocks.PlacedBlock
