import ContractBlocks.Proofs.Workspace.Faults
import ContractBlocks.Proofs.Workspace.Preorder
import Mathlib.Data.List.Perm.Basic

namespace ContractBlocks

mutual

/-- Decides whether two blocks are equal with all that is plugged into them. -/
def PlacedBlock.decEq : (a b : PlacedBlock) → Decidable (a = b)
  | ⟨tag, editorId, fields, inputs, next⟩, ⟨tag', editorId', fields', inputs', next'⟩ =>
    have := PlacedBlock.decEqInputs inputs inputs'
    have := PlacedBlock.decEqNext next next'
    decidable_of_iff (tag = tag' ∧ editorId = editorId' ∧ fields = fields' ∧ inputs = inputs' ∧ next = next')
      (by simp)

/-- Decides whether two lists of inputs are equal. -/
def PlacedBlock.decEqInputs : (a b : List (String × Connection PlacedBlock)) → Decidable (a = b)
  | [], [] => isTrue rfl
  | (name, connection) :: inputs, (name', connection') :: inputs' =>
    have := PlacedBlock.decEqConnection connection connection'
    have := PlacedBlock.decEqInputs inputs inputs'
    decidable_of_iff ((name = name' ∧ connection = connection') ∧ inputs = inputs') (by simp)
  | [], _ :: _ | _ :: _, [] => isFalse nofun

/-- Decides whether two connections to a successor are equal, or both missing. -/
def PlacedBlock.decEqNext : (a b : Option (Connection PlacedBlock)) → Decidable (a = b)
  | none, none => isTrue rfl
  | some connection, some connection' =>
    have := PlacedBlock.decEqConnection connection connection'
    decidable_of_iff (connection = connection') (by simp)
  | none, some _ | some _, none => isFalse nofun

/-- Decides whether two connections are equal. -/
def PlacedBlock.decEqConnection : (a b : Connection PlacedBlock) → Decidable (a = b)
  | ⟨block, shadow⟩, ⟨block', shadow'⟩ =>
    have := PlacedBlock.decEqTarget block block'
    have := PlacedBlock.decEqTarget shadow shadow'
    decidable_of_iff (block = block' ∧ shadow = shadow') (by simp)

/-- Decides whether two blocks that may be missing are equal. -/
def PlacedBlock.decEqTarget : (a b : Option PlacedBlock) → Decidable (a = b)
  | none, none => isTrue rfl
  | some block, some block' =>
    have := PlacedBlock.decEq block block'
    decidable_of_iff (block = block') (by simp)
  | none, some _ | some _, none => isFalse nofun

end

instance : DecidableEq PlacedBlock :=
  PlacedBlock.decEq

deriving instance DecidableEq for Workspace

/-- Two connections hold related blocks, and stand-ins likewise. -/
inductive Connection.Related {α : Type} (R : α → α → Prop) : Connection α → Connection α → Prop
  | intro {block other shadow shade : Option α} (hblock : Option.Rel R block other)
      (hshadow : Option.Rel R shadow shade) : Related R ⟨block, shadow⟩ ⟨other, shade⟩

/-- Two inputs have the same name and hold related blocks. -/
inductive InputRelated {α : Type} (R : α → α → Prop) : String × Connection α → String × Connection α → Prop
  | intro {name : String} {connection other : Connection α} (hconnection : connection.Related R other) :
    InputRelated R (name, connection) (name, other)

/-- The blocks differ only in the order of their fields and of their inputs, and so do the blocks inside
    them. -/
inductive PlacedBlock.Rearranged : PlacedBlock → PlacedBlock → Prop
  | intro {tag : String} {editorId : Option String} {fields others : List (String × FieldValue)}
      {inputs between ends : List (String × Connection PlacedBlock)} {next after : Option (Connection PlacedBlock)}
      (hfields : fields.Perm others) (hinputs : inputs.Perm between)
      (hinner : List.Forall₂ (InputRelated Rearranged) between ends)
      (hnext : Option.Rel (Connection.Related Rearranged) next after) :
    Rearranged ⟨tag, editorId, fields, inputs, next⟩ ⟨tag, editorId, others, ends, after⟩

/-- The workspaces differ only in the order of their blocks, and of fields and inputs in these. -/
def Workspace.Rearranged (workspace other : Workspace) : Prop :=
  ∃ between, workspace.blocks.Perm between ∧ List.Forall₂ PlacedBlock.Rearranged between other.blocks

theorem Connection.Related.target? {α : Type} {R : α → α → Prop} {connection other : Connection α}
    (hrelated : connection.Related R other) : Option.Rel R connection.target? other.target? := by
  cases hrelated with
  | intro hblock hshadow =>
    cases hblock with
    | some hsome => exact .some hsome
    | none => exact hshadow

theorem Connection.rel_bind_target? {α : Type} {R : α → α → Prop} {connection other : Option (Connection α)}
    (hrel : Option.Rel (Related R) connection other) :
    Option.Rel R (connection.bind target?) (other.bind target?) := by
  cases hrel with
  | none => exact .none
  | some hrelated => exact hrelated.target?

theorem rel_lookup_of_forall₂ {α : Type} {R : α → α → Prop} {inputs others : List (String × Connection α)}
    (hrelated : List.Forall₂ (InputRelated R) inputs others) (name : String) :
    Option.Rel (Connection.Related R) (inputs.lookup name) (others.lookup name) := by
  induction hrelated with
  | nil => exact .none
  | cons hinput _ ih =>
    obtain ⟨hconnection⟩ := hinput
    rw [lookup_cons, lookup_cons]
    split
    · exact .some hconnection
    · exact ih

theorem isSome_eq_of_rel {α β : Type} {R : α → β → Prop} {a : Option α} {b : Option β} (hrel : Option.Rel R a b) :
    a.isSome = b.isSome := by
  cases hrel <;> rfl

/-- Related entries contribute the same, in whatever order. -/
theorem flatMap_perm_of_forall₂ {α β : Type} {R : α → α → Prop} {f : α → List β} {items others : List α}
    (hrelated : List.Forall₂ R items others) (hperm : ∀ a ∈ items, ∀ b, R a b → (f a).Perm (f b)) :
    (items.flatMap f).Perm (others.flatMap f) := by
  induction hrelated with
  | nil => exact .nil
  | cons hfirst _ ih =>
    rw [List.flatMap_cons, List.flatMap_cons]
    refine (hperm _ List.mem_cons_self _ hfirst).append (ih fun a ha => ?_)
    exact hperm a (List.mem_cons_of_mem _ ha)

namespace PlacedBlock

theorem targetFaults_perm {connection other : Connection PlacedBlock}
    (hrelated : connection.Related Rearranged other)
    (hinside : ∀ inner, connection.target? = some inner → ∀ image, inner.Rearranged image →
      inner.faults.Perm image.faults) :
    (targetFaults connection).Perm (targetFaults other) := by
  rw [targetFaults_eq, targetFaults_eq]
  have hrel := hrelated.target?
  generalize connection.target? = target, other.target? = image at hrel hinside ⊢
  cases hrel with
  | none => exact .nil
  | some himage => exact hinside _ rfl _ himage

/-- Rearranging a block brings no fault and takes none away. -/
theorem faults_perm_of_rearranged (block : PlacedBlock) {other : PlacedBlock} (hrearranged : block.Rearranged other) :
    block.faults.Perm other.faults := by
  have hinside : ∀ label inner, (label, inner) ∈ block.plugs → ∀ image, inner.Rearranged image →
      inner.faults.Perm image.faults := by
    intro label inner hplug image himage
    have := sizeOf_lt_of_mem_plugs hplug
    exact faults_perm_of_rearranged inner himage
  cases hrearranged with
  | @intro tag editorId fields others inputs between ends next after hfields hinputs hinner hnext =>
    rw [faults, faults]
    split
    · exact .refl _
    · next kind _ =>
      refine ((hfields.filter _).map _).append (.append ?_ ?_)
      · rw [inputFaults_eq, inputFaults_eq]
        refine (hinputs.flatMap_right _).trans (flatMap_perm_of_forall₂ hinner ?_)
        rintro _ hmem _ (@⟨name, connection, other, hrelated⟩)
        refine (targetFaults_perm hrelated fun inner htarget => ?_).append_left _
        exact hinside (.slot name) inner
          (List.mem_append_left _ (mem_inputPlugs.2 ⟨_, hinputs.mem_iff.2 hmem, htarget, rfl⟩))
      · cases hnext with
        | none => exact .refl _
        | @some connection other hrelated =>
          rw [nextFaults, nextFaults]
          refine (targetFaults_perm hrelated fun inner htarget => ?_).append ?_
          · exact hinside .next inner (List.mem_append_right _ (mem_nextPlug.2 ⟨rfl, htarget⟩))
          · rw [isSome_eq_of_rel hrelated.target?]
termination_by sizeOf block

namespace Rearranged

variable {block other : PlacedBlock} (hrearranged : block.Rearranged other)

include hrearranged

theorem tag_eq : other.tag = block.tag := by
  cases hrearranged
  rfl

theorem editorId_eq : other.editorId = block.editorId := by
  cases hrearranged
  rfl

theorem fields_perm : block.fields.Perm other.fields := by
  cases hrearranged
  assumption

/-- Under each label a block and its rearrangement have plugged in the same, up to rearrangement. -/
theorem plug? (hnames : (block.inputs.map Prod.fst).Nodup) (label : Label) :
    Option.Rel Rearranged (block.plug? label) (other.plug? label) := by
  cases hrearranged with
  | @intro tag editorId fields others inputs between ends next after hfields hinputs hinner hnext =>
    cases label with
    | slot name =>
      have hlookup := rel_lookup_of_forall₂ hinner name
      rw [← lookup_eq_of_perm hinputs hnames name] at hlookup
      exact Connection.rel_bind_target? hlookup
    | next => exact Connection.rel_bind_target? hnext

end Rearranged

end PlacedBlock

end ContractBlocks
