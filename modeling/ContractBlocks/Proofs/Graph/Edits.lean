import ContractBlocks.Proofs.Graph.Views
import Mathlib.Logic.Relation

namespace ContractBlocks

open Relation

/-- The edits of a graph. -/
inductive Edit
  | add (kind : Kind) (editorId : Option String)
  | remove (id : NodeId)
  | setField (id : NodeId) (name : String) (value : FieldValue)
  | connect (parent : NodeId) (slot : String) (child : NodeId)
  | disconnect (parent : NodeId) (slot : String)
  | setNext (id next : NodeId)
  | clearNext (id : NodeId)
  | chain (ids : List NodeId)

/-- What an edit gives back. -/
inductive Reply
  | added (id : NodeId)
  | removed (block : Block)
  | emptied (child : Option NodeId)
  | done
  | refused (fault : GraphFault)
deriving DecidableEq

namespace Reply

/-- The reply to a change that may be refused, which then leaves everything as it is. -/
def attempt {σ : Type} (before : σ) : Except GraphFault σ → Reply × σ
  | .ok after => (.done, after)
  | .error fault => (.refused fault, before)

end Reply

namespace BlockGraph

/-- Performs an edit. -/
def edit (g : BlockGraph) : Edit → Reply × BlockGraph
  | .add kind editorId => (.added (g.add kind editorId).1, (g.add kind editorId).2)
  | .remove id =>
    match g.remove id with
    | .ok (block, h) => (.removed block, h)
    | .error fault => (.refused fault, g)
  | .setField id name value => Reply.attempt g (g.setField id name value)
  | .connect parent slot child => Reply.attempt g (g.connect parent slot child)
  | .disconnect parent slot => (.emptied (g.disconnect parent slot).1, (g.disconnect parent slot).2)
  | .setNext id next => Reply.attempt g (g.setNext id next)
  | .clearNext id => (.emptied (g.clearNext id).1, (g.clearNext id).2)
  | .chain ids =>
    match g.chain ids with
    | (h, none) => (.done, h)
    | (h, some fault) => (.refused fault, h)

/-- Performs edits one after the other. -/
def run (g : BlockGraph) : List Edit → List Reply × BlockGraph
  | [] => ([], g)
  | e :: edits => ((g.edit e).1 :: ((g.edit e).2.run edits).1, ((g.edit e).2.run edits).2)

section Outcomes

variable (g : BlockGraph)

theorem remove_eq (id : NodeId) :
    g.remove id =
      match g.block? id with
      | some block => .ok (block, g.without id)
      | none => .error (.noBlock id) := by
  cases hblock : g.block? id <;> simp only [remove, require, hblock] <;> rfl

theorem setField_eq (id : NodeId) (name : String) (value : FieldValue) :
    g.setField id name value =
      match g.block? id with
      | some block =>
        if (block.kind.field? name).isNone then .error (.unknownField block.kind name)
        else .ok (g.put id (block.setField name value))
      | none => .error (.noBlock id) := by
  cases hblock : g.block? id <;> simp only [setField, require, hblock] <;> rfl

theorem connect_eq (parent : NodeId) (slot : String) (child : NodeId) :
    g.connect parent slot child =
      match g.block? parent, g.block? child with
      | some block, some _ =>
        if (block.kind.slot? slot).isNone then .error (.unknownSlot block.kind slot)
        else .ok (g.relink parent (.slot slot) child)
      | none, _ => .error (.noBlock parent)
      | some _, none => .error (.noBlock child) := by
  cases hparent : g.block? parent <;> cases hchild : g.block? child <;>
    simp only [connect, require, hparent, hchild] <;> rfl

theorem setNext_eq (id next : NodeId) :
    g.setNext id next =
      match g.block? id, g.block? next with
      | some block, some _ =>
        if block.kind.isLink then .ok (g.relink id .next next) else .error (.notChainable block.kind)
      | none, _ => .error (.noBlock id)
      | some _, none => .error (.noBlock next) := by
  cases hblock : g.block? id <;> cases hnext : g.block? next <;>
    simp only [setNext, require, hblock, hnext] <;> rfl

end Outcomes

/-- What can happen to a graph at once. Every edit is made of such changes. -/
inductive Change : BlockGraph → BlockGraph → Prop
  | add (g : BlockGraph) (kind : Kind) (editorId : Option String) : Change g (g.add kind editorId).2
  | without {g : BlockGraph} {id : NodeId} (hlive : (g.block? id).isSome) : Change g (g.without id)
  | setField {g : BlockGraph} {id : NodeId} {block : Block} {name : String} (value : FieldValue)
      (hblock : g.block? id = some block) (hfield : (block.kind.field? name).isSome) :
    Change g (g.put id (block.setField name value))
  | unlink (g : BlockGraph) (source : NodeId) (label : Label) : Change g (g.unlink source label).2
  | relink {g : BlockGraph} {source target : NodeId} {label : Label} {block : Block}
      (hsource : g.block? source = some block) (hallows : block.kind.Allows label)
      (htarget : (g.block? target).isSome) :
    Change g (g.relink source label target)

theorem Sound.change {g h : BlockGraph} (hsound : g.Sound) (hchange : g.Change h) : h.Sound := by
  cases hchange with
  | add kind editorId => exact hsound.add kind editorId
  | without hlive => exact hsound.without hlive
  | @setField id block name value hblock hfield =>
    obtain ⟨hnodup, hdeclared⟩ := hsound.fields id block hblock
    refine hsound.put hblock rfl (nodup_map_fst_putNamed hnodup) fun other hother => ?_
    rw [Block.setField, map_fst_putNamed] at hother
    split at hother
    · exact hdeclared other hother
    · rcases List.mem_append.1 hother with hold | hnew
      · exact hdeclared other hold
      · rw [List.mem_singleton.1 hnew]
        exact hfield
  | unlink source label => exact hsound.unlink
  | relink hsource hallows htarget => exact hsound.relink hsource hallows htarget

theorem Sound.changes {g h : BlockGraph} (hsound : g.Sound) (hchanges : ReflTransGen Change g h) :
    h.Sound := by
  induction hchanges with
  | refl => exact hsound
  | tail _ hchange ih => exact ih.change hchange

section Changes

variable {g h : BlockGraph}

theorem change_of_setField {id : NodeId} {name : String} {value : FieldValue}
    (hok : g.setField id name value = .ok h) : g.Change h := by
  rw [setField_eq] at hok
  split at hok
  · next block hblock =>
    split at hok
    · cases hok
    · next hfield =>
      cases hok
      exact .setField value hblock (by simpa [Option.isNone_iff_eq_none, Option.isSome_iff_ne_none] using hfield)
  · cases hok

/-- `h` is `g` with a link made that the kind of its source allows. -/
def Relinked (g : BlockGraph) (source : NodeId) (label : Label) (target : NodeId) (h : BlockGraph) : Prop :=
  (∃ block, g.block? source = some block ∧ block.kind.Allows label) ∧ (g.block? target).isSome ∧
    h = g.relink source label target

theorem Relinked.change {source target : NodeId} {label : Label}
    (hrelinked : g.Relinked source label target h) : g.Change h := by
  obtain ⟨⟨block, hsource, hallows⟩, htarget, rfl⟩ := hrelinked
  exact .relink hsource hallows htarget

theorem relinked_of_connect {parent child : NodeId} {slot : String}
    (hok : g.connect parent slot child = .ok h) : g.Relinked parent (.slot slot) child h := by
  rw [connect_eq] at hok
  split at hok
  · next block _ hparent hchild =>
    split at hok
    · cases hok
    · next hslot =>
      cases hok
      have hallows : block.kind.Allows (.slot slot) := by
        simpa [Kind.Allows, Option.isNone_iff_eq_none, Option.isSome_iff_ne_none] using hslot
      exact ⟨⟨block, hparent, hallows⟩, by simp [hchild], rfl⟩
  · cases hok
  · cases hok

theorem relinked_of_setNext {id next : NodeId} (hok : g.setNext id next = .ok h) :
    g.Relinked id .next next h := by
  rw [setNext_eq] at hok
  split at hok
  · next block _ hblock hnext =>
    split at hok
    · next hlink =>
      cases hok
      exact ⟨⟨block, hblock, hlink⟩, by simp [hnext], rfl⟩
    · cases hok
  · cases hok
  · cases hok

theorem changes_chain (g : BlockGraph) (ids : List NodeId) : ReflTransGen Change g (g.chain ids).1 := by
  fun_induction chain g ids with
  | case1 g a b rest h hok ih => exact .head (relinked_of_setNext hok).change ih
  | case2 g a b rest fault herror => exact .refl
  | case3 ids g hshort => exact .refl

/-- Every edit, refused or not, is made of changes that keep a graph sound. -/
theorem changes_edit (g : BlockGraph) (e : Edit) : ReflTransGen Change g (g.edit e).2 := by
  have hattempt : ∀ outcome, (∀ h, outcome = .ok h → g.Change h) →
      ReflTransGen Change g (Reply.attempt g outcome).2 := by
    intro outcome hchange
    cases outcome with
    | ok h => exact .single (hchange h rfl)
    | error fault => exact .refl
  cases e with
  | add kind editorId => exact .single (.add g kind editorId)
  | remove id =>
    cases hblock : g.block? id with
    | none =>
      simp only [edit, remove_eq, hblock]
      exact .refl
    | some block =>
      simp only [edit, remove_eq, hblock]
      exact .single (.without (by simp [hblock]))
  | setField id name value => exact hattempt _ fun h => change_of_setField
  | connect parent slot child => exact hattempt _ fun h hok => (relinked_of_connect hok).change
  | disconnect parent slot => exact .single (.unlink g parent (.slot slot))
  | setNext id next => exact hattempt _ fun h hok => (relinked_of_setNext hok).change
  | clearNext id => exact .single (.unlink g id .next)
  | chain ids =>
    have hedit : (g.edit (.chain ids)).2 = (g.chain ids).1 := by
      simp only [edit]
      split
      · next hchain => rw [hchain]
      · next hchain => rw [hchain]
    rw [hedit]
    exact changes_chain g ids

theorem changes_run (g : BlockGraph) (edits : List Edit) : ReflTransGen Change g (g.run edits).2 := by
  induction edits generalizing g with
  | nil => exact .refl
  | cons e edits ih => exact (changes_edit g e).trans (ih (g.edit e).2)

end Changes

end BlockGraph

end ContractBlocks
