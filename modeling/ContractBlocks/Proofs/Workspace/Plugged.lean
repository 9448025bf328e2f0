import ContractBlocks.Proofs.Graph.Edits
import ContractBlocks.Proofs.Outcome
import ContractBlocks.Workspace.Import

namespace ContractBlocks

open Relation

namespace PlacedBlock

/-- The blocks in the inputs of a block, each with the slot that it is plugged into. -/
def inputPlugs (inputs : List (String × Connection PlacedBlock)) : List (Label × PlacedBlock) :=
  inputs.filterMap fun input => input.2.target?.map fun block => (.slot input.1, block)

/-- The block that follows a block, if any. -/
def nextPlug (next : Option (Connection PlacedBlock)) : List (Label × PlacedBlock) :=
  match next.bind Connection.target? with
  | some block => [(.next, block)]
  | none => []

/-- All that is plugged into a block, in the order in which it is added to a graph. -/
def plugs (block : PlacedBlock) : List (Label × PlacedBlock) :=
  inputPlugs block.inputs ++ nextPlug block.next

variable {label : Label} {inner : PlacedBlock}

theorem mem_inputPlugs {inputs : List (String × Connection PlacedBlock)} :
    (label, inner) ∈ inputPlugs inputs ↔
      ∃ input ∈ inputs, input.2.target? = some inner ∧ .slot input.1 = label := by
  simp [inputPlugs]

theorem mem_nextPlug {next : Option (Connection PlacedBlock)} :
    (label, inner) ∈ nextPlug next ↔ label = .next ∧ next.bind Connection.target? = some inner := by
  unfold nextPlug
  cases next.bind Connection.target? <;> simp [eq_comm]

end PlacedBlock

namespace BlockGraph

open Outcome PlacedBlock

/-- Makes a link of either sort. -/
def plug (g : BlockGraph) (id : NodeId) (label : Label) (target : NodeId) : Except GraphFault BlockGraph :=
  match label with
  | .slot name => g.connect id name target
  | .next => g.setNext id target

/-- `h` is `g` with a new block `id` that has its fields, and nothing plugged into it so far. -/
def Begun (g : BlockGraph) (block : PlacedBlock) (id : NodeId) (h : BlockGraph) : Prop :=
  ∃ kind, Kind.ofTag? block.tag = some kind ∧ (g.add kind block.editorId).1 = id ∧
    (g.add kind block.editorId).2.setFields id block.fields = .ok h

/-- `h` is `g` with all that is plugged into the block `id`: each block begun, filled in the same way,
    and linked. -/
inductive Plugged : NodeId → BlockGraph → List (Label × PlacedBlock) → BlockGraph → Prop
  | nil (id : NodeId) (g : BlockGraph) : Plugged id g [] g
  | cons {id inner : NodeId} {g begun filled linked h : BlockGraph} {label : Label} {block : PlacedBlock}
      {plugs : List (Label × PlacedBlock)} (hbegun : g.Begun block inner begun)
      (hfilled : Plugged inner begun block.plugs filled)
      (hlinked : filled.plug id label inner = .ok linked)
      (hrest : Plugged id linked plugs h) : Plugged id g ((label, block) :: plugs) h

/-- `h` is `g` with a block `id` and all that is plugged into it. -/
def Placed (g : BlockGraph) (block : PlacedBlock) (id : NodeId) (h : BlockGraph) : Prop :=
  ∃ begun, g.Begun block id begun ∧ Plugged id begun block.plugs h

theorem Plugged.append {id : NodeId} {g filled h : BlockGraph} {plugs others : List (Label × PlacedBlock)}
    (hplugs : Plugged id g plugs filled) (hothers : Plugged id filled others h) :
    Plugged id g (plugs ++ others) h := by
  induction hplugs with
  | nil => exact hothers
  | cons hbegun hfilled hlinked _ _ ih => exact .cons hbegun hfilled hlinked (ih hothers)

theorem Placed.plugged {id inner : NodeId} {g filled h : BlockGraph} {label : Label} {block : PlacedBlock}
    (hplaced : g.Placed block inner filled) (hlinked : filled.plug id label inner = .ok h) :
    Plugged id g [(label, block)] h := by
  obtain ⟨begun, hbegun, hfilled⟩ := hplaced
  exact .cons hbegun hfilled hlinked (.nil id h)

mutual

theorem placed_of_place {g h : BlockGraph} {id : NodeId} :
    (block : PlacedBlock) → g.place block = .ok (id, h) → g.Placed block id h
  | ⟨tag, editorId, fields, inputs, next⟩, hok => by
    rw [place] at hok
    split at hok
    · cases hok
    · next kind hkind =>
      obtain ⟨begun, hbegun, hok⟩ := bind_eq_ok_iff.1 hok
      obtain ⟨filled, hinputs, hok⟩ := bind_eq_ok_iff.1 hok
      obtain ⟨followed, hnext, hok⟩ := bind_eq_ok_iff.1 hok
      cases hok
      exact ⟨begun, ⟨kind, hkind, rfl, hbegun⟩,
        (plugged_of_placeInputs inputs hinputs).append (plugged_of_placeNext next hnext)⟩

theorem plugged_of_placeInputs {g h : BlockGraph} {id : NodeId} {kind : Kind} :
    (inputs : List (String × Connection PlacedBlock)) → g.placeInputs id kind inputs = .ok h →
      Plugged id g (inputPlugs inputs) h
  | [], hok => by
    cases hok
    exact .nil id g
  | (slot, connection) :: inputs, hok => by
    rw [placeInputs] at hok
    split at hok
    · cases hok
    · obtain ⟨⟨child?, filled⟩, htarget, hok⟩ := bind_eq_ok_iff.1 hok
      have hplaced := placed_of_placeTarget connection htarget
      cases child? with
      | none =>
        have hrest := plugged_of_placeInputs inputs hok
        obtain ⟨hempty, rfl⟩ := hplaced
        simpa [inputPlugs, hempty] using hrest
      | some child =>
        obtain ⟨linked, hlinked, hok⟩ := bind_eq_ok_iff.1 hok
        have hrest := plugged_of_placeInputs inputs hok
        obtain ⟨block, hblock, hplaced⟩ := hplaced
        have hfirst : Plugged id g [(.slot slot, block)] linked := hplaced.plugged hlinked
        simpa [inputPlugs, hblock] using hfirst.append hrest

theorem plugged_of_placeNext {g h : BlockGraph} {id : NodeId} :
    (next : Option (Connection PlacedBlock)) → g.placeNext id next = .ok h →
      Plugged id g (nextPlug next) h
  | none, hok => by
    cases hok
    exact .nil id g
  | some connection, hok => by
    rw [placeNext] at hok
    obtain ⟨⟨next?, filled⟩, htarget, hok⟩ := bind_eq_ok_iff.1 hok
    have hplaced := placed_of_placeTarget connection htarget
    cases next? with
    | none =>
      cases hok
      obtain ⟨hempty, rfl⟩ := hplaced
      simpa [nextPlug, hempty] using Plugged.nil id _
    | some next =>
      obtain ⟨block, hblock, hplaced⟩ := hplaced
      have hnext : Plugged id g [(.next, block)] h := hplaced.plugged hok
      simpa [nextPlug, hblock] using hnext

theorem placed_of_placeTarget {g h : BlockGraph} {id? : Option NodeId} :
    (connection : Connection PlacedBlock) → g.placeTarget connection = .ok (id?, h) →
      match id? with
      | some id => ∃ block, connection.target? = some block ∧ g.Placed block id h
      | none => connection.target? = none ∧ h = g
  | ⟨some block, shadow⟩, hok => by
    rw [placeTarget] at hok
    obtain ⟨⟨id, filled⟩, hplace, hok⟩ := bind_eq_ok_iff.1 hok
    cases hok
    exact ⟨block, rfl, placed_of_place block hplace⟩
  | ⟨none, some block⟩, hok => by
    rw [placeTarget] at hok
    obtain ⟨⟨id, filled⟩, hplace, hok⟩ := bind_eq_ok_iff.1 hok
    cases hok
    exact ⟨block, rfl, placed_of_place block hplace⟩
  | ⟨none, none⟩, hok => by
    cases hok
    exact ⟨rfl, rfl⟩

end

section Changes

variable {g h : BlockGraph} {id : NodeId}

theorem changes_of_setFields {fields : List (String × FieldValue)} (hok : g.setFields id fields = .ok h) :
    ReflTransGen Change g h := by
  induction fields generalizing g with
  | nil =>
    cases hok
    exact .refl
  | cons field fields ih =>
    obtain ⟨set, hset, hok⟩ := bind_eq_ok_iff.1 hok
    exact .head (change_of_setField hset) (ih hok)

theorem Begun.changes {block : PlacedBlock} (hbegun : g.Begun block id h) : ReflTransGen Change g h := by
  obtain ⟨kind, -, rfl, hfields⟩ := hbegun
  exact .head (.add g kind block.editorId) (changes_of_setFields hfields)

theorem relinked_of_plug {label : Label} {target : NodeId} (hok : g.plug id label target = .ok h) :
    g.Relinked id label target h := by
  cases label with
  | slot name => exact relinked_of_connect hok
  | next => exact relinked_of_setNext hok

theorem Plugged.changes {plugs : List (Label × PlacedBlock)} (hplugged : Plugged id g plugs h) :
    ReflTransGen Change g h := by
  induction hplugged with
  | nil => exact .refl
  | cons hbegun _ hlinked _ ihfilled ihrest =>
    exact hbegun.changes.trans (ihfilled.trans (.head (relinked_of_plug hlinked).change ihrest))

theorem Placed.changes {block : PlacedBlock} (hplaced : g.Placed block id h) : ReflTransGen Change g h := by
  obtain ⟨begun, hbegun, hplugged⟩ := hplaced
  exact hbegun.changes.trans hplugged.changes

theorem changes_of_placeAll {blocks : List PlacedBlock} (hok : g.placeAll blocks = .ok h) :
    ReflTransGen Change g h := by
  induction blocks generalizing g with
  | nil =>
    cases hok
    exact .refl
  | cons block blocks ih =>
    obtain ⟨⟨id, placed⟩, hplace, hok⟩ := bind_eq_ok_iff.1 hok
    exact (placed_of_place block hplace).changes.trans (ih hok)

end Changes

end BlockGraph

namespace Workspace

theorem importText_eq_ok_iff {text : String} {g : BlockGraph} :
    importText text = .ok g ↔ ∃ workspace, readText text = .ok workspace ∧ workspace.graph = .ok g := by
  unfold importText
  split
  · next hread => simp [hread]
  · next workspace hread =>
    split
    · next hgraph => simp [hread, hgraph]
    · next hgraph => simp [hread, hgraph]

end Workspace

end ContractBlocks
