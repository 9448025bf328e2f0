import ContractBlocks.Proofs.Graph.Edits
import ContractBlocks.Proofs.Outcome
import ContractBlocks.Source
import Mathlib.Data.Nat.Basic
import Mathlib.Tactic.Common

namespace ContractBlocks

open Std (ExtHashMap)

/-- A graph without its layout: three finite maps, from ids to blocks, from slots of blocks to their
    children, and from blocks to their successors. Ids have no order here and links no index. -/
structure Store where
  live : ExtHashMap NodeId Block
  slots : ExtHashMap (NodeId × String) NodeId
  next : ExtHashMap NodeId NodeId

namespace Store

/-- The store without blocks. -/
def empty : Store :=
  ⟨∅, ∅, ∅⟩

/-- The block that a link with that label would lead to. -/
def target? (st : Store) (id : NodeId) : Label → Option NodeId
  | .slot name => st.slots[(id, name)]?
  | .next => st.next[id]?

/-- Overwrites the entry of a link. -/
def link (st : Store) (id : NodeId) (label : Label) (target : NodeId) : Store :=
  match label with
  | .slot name => { st with slots := st.slots.insert (id, name) target }
  | .next => { st with next := st.next.insert id target }

/-- Deletes the entry of a link. -/
def unlink (st : Store) (id : NodeId) : Label → Store
  | .slot name => { st with slots := st.slots.erase (id, name) }
  | .next => { st with next := st.next.erase id }

/-- Deletes a block, and every entry of a link that has it as its source or target. -/
def without (st : Store) (id : NodeId) : Store where
  live := st.live.erase id
  slots := st.slots.filter fun key target => key.1 ≠ id && target ≠ id
  next := st.next.filter fun source target => source ≠ id && target ≠ id

/-- The block with that id, which must be there. -/
def require (st : Store) (id : NodeId) : Except GraphFault Block :=
  match st.live[id]? with
  | some block => .ok block
  | none => .error (.noBlock id)

/-- Overwrites a field in its place, or appends it where there is none of that name. -/
def overwrite (name : String) (value : FieldValue) (fields : List (String × FieldValue)) :
    List (String × FieldValue) :=
  if name ∈ fields.map Prod.fst then fields.map fun field => if field.1 = name then (name, value) else field
  else fields ++ [(name, value)]

def setField (st : Store) (id : NodeId) (name : String) (value : FieldValue) :
    Except GraphFault Store := do
  let block ← st.require id
  if (block.kind.field? name).isNone then .error (.unknownField block.kind name)
  else
    let changed := { block with fields := overwrite name value block.fields }
    return { st with live := st.live.insert id changed }

def connect (st : Store) (parent : NodeId) (slot : String) (child : NodeId) : Except GraphFault Store := do
  let block ← st.require parent
  let _ ← st.require child
  if (block.kind.slot? slot).isNone then .error (.unknownSlot block.kind slot)
  else return st.link parent (.slot slot) child

def setNext (st : Store) (id next : NodeId) : Except GraphFault Store := do
  let block ← st.require id
  let _ ← st.require next
  if block.kind.isLink then return st.link id .next next
  else .error (.notChainable block.kind)

/-- Gives each block its follower in the list as successor, up to the first pair that is refused. -/
def chain (st : Store) : List NodeId → Store × Option GraphFault
  | a :: b :: rest =>
    match st.setNext a b with
    | .ok st => st.chain (b :: rest)
    | .error fault => (st, some fault)
  | _ => (st, none)

/-- Performs an edit. A block that is added gets the id `fresh`. -/
def edit (st : Store) (fresh : NodeId) : Edit → Reply × Store
  | .add kind editorId => (.added fresh, { st with live := st.live.insert fresh { kind, editorId } })
  | .remove id =>
    match st.require id with
    | .ok block => (.removed block, st.without id)
    | .error fault => (.refused fault, st)
  | .setField id name value => Reply.attempt st (st.setField id name value)
  | .connect parent slot child => Reply.attempt st (st.connect parent slot child)
  | .disconnect parent slot => (.emptied (st.target? parent (.slot slot)), st.unlink parent (.slot slot))
  | .setNext id next => Reply.attempt st (st.setNext id next)
  | .clearNext id => (.emptied (st.target? id .next), st.unlink id .next)
  | .chain ids =>
    match st.chain ids with
    | (st, none) => (.done, st)
    | (st, some fault) => (.refused fault, st)

/-- Edits that are performed by `step` one after the other give the replies and lead from one store
    to the other. A block may be added at any id that is not live. -/
def Runs (step : Store → NodeId → Edit → Reply × Store) :
    Store → List Edit → List Reply → Store → Prop
  | st, [], replies, last => replies = [] ∧ last = st
  | st, e :: edits, replies, last =>
    ∃ fresh rest, fresh ∉ st.live ∧ replies = (step st fresh e).1 :: rest ∧
      Runs step (step st fresh e).2 edits rest last

/-- All that can be asked of a graph has the answer that the store gives. -/
structure Describes (st : Store) (g : BlockGraph) : Prop where
  block? : ∀ id, g.block? id = st.live[id]?
  child? : ∀ id slot, g.child? id slot = st.slots[(id, slot)]?
  next? : ∀ id, g.next? id = st.next[id]?
  blockCount : g.blockCount = st.live.size
  linkCount : g.linkCount = st.slots.size + st.next.size
  topLevel_ascending : g.topLevel.Pairwise (· < ·)
  mem_topLevel : ∀ id, id ∈ g.topLevel ↔
    id ∈ st.live ∧ (∀ (source : NodeId) (slot : String), st.slots[(source, slot)]? ≠ some id) ∧
      ∀ source : NodeId, st.next[source]? ≠ some id

/-- The store has the blocks and the links of the graph. -/
structure Holds (st : Store) (g : BlockGraph) : Prop where
  block? : ∀ id, g.block? id = st.live[id]?
  target? : ∀ id label, g.target? id label = st.target? id label

section Targets

variable (st : Store) (id source target : NodeId) (label other : Label)

theorem target?_link : (st.link id other target).target? source label =
    if (source, label) = (id, other) then some target else st.target? source label := by
  cases label <;> cases other <;> grind [link, Store.target?]

theorem target?_unlink : (st.unlink id other).target? source label =
    if (source, label) = (id, other) then none else st.target? source label := by
  cases label <;> cases other <;> grind [unlink, Store.target?]

theorem target?_without : (st.without id).target? source label =
    if source = id then none else (st.target? source label).filter (· ≠ id) := by
  by_cases hsource : source = id <;> cases label <;>
    simp [without, Store.target?, hsource]

end Targets

theorem overwrite_eq_putNamed (name : String) (value : FieldValue) {fields : List (String × FieldValue)}
    (hnodup : (fields.map Prod.fst).Nodup) : overwrite name value fields = putNamed name value fields := by
  induction fields with
  | nil => rfl
  | cons field rest ih =>
    obtain ⟨other, old⟩ := field
    obtain ⟨hnew, hrest⟩ := List.nodup_cons.1 hnodup
    by_cases hname : other = name
    · -- The name occurs only here, so nothing behind it is overwritten.
      subst hname
      have hkept : rest.map (fun field => if field.1 = other then (other, value) else field) = rest := by
        conv => rhs; rw [← List.map_id rest]
        refine List.map_congr_left fun field hfield => if_neg ?_
        intro heq
        exact hnew (List.mem_map.mpr ⟨field, hfield, heq⟩)
      simp [overwrite, putNamed, hkept]
    · have hih := ih hrest
      unfold overwrite at hih ⊢
      rw [putNamed, if_neg hname, ← hih]
      by_cases hmem : name ∈ rest.map Prod.fst
      · simp_all
      · simp_all [Ne.symm hname]

/-- A change of the store and the same change of the graph are both refused for one fault, or both
    made, and then the store still has what the graph has. -/
inductive Alike : Except GraphFault Store → Except GraphFault BlockGraph → Prop
  | ok {st : Store} {g : BlockGraph} (hholds : st.Holds g) : Alike (.ok st) (.ok g)
  | error (fault : GraphFault) : Alike (.error fault) (.error fault)

namespace Holds

variable {st : Store} {g : BlockGraph}

theorem empty : Store.empty.Holds .empty where
  block? id := by simp [Store.empty, BlockGraph.empty, BlockGraph.block?]
  target? id label := by
    cases label <;> simp [Store.empty, Store.target?, BlockGraph.empty, BlockGraph.target?, BlockGraph.link?,
      BlockGraph.block?]

variable (hholds : st.Holds g)

include hholds

theorem isSome_iff (id : NodeId) : (g.block? id).isSome ↔ id ∈ st.live := by
  rw [hholds.block?, ExtHashMap.isSome_getElem?_iff_mem]

theorem require_eq (id : NodeId) : st.require id = g.require id := by
  have hblock := hholds.block? id
  cases hfound : g.block? id <;> simp only [Store.require, BlockGraph.require, ← hblock, hfound]

theorem link (hsound : g.Sound) {source target : NodeId} {label : Label} {block : Block}
    (hsource : g.block? source = some block) (hallows : block.kind.Allows label)
    (htarget : (g.block? target).isSome) : (st.link source label target).Holds (g.relink source label target) where
  block? id := by
    have hlive : (st.link source label target).live = st.live := by cases label <;> rfl
    rw [hlive, ← hholds.block?]
    simp [BlockGraph.block?]
  target? id other := by
    rw [BlockGraph.target?_relink hsound hsource hallows htarget, target?_link, hholds.target?]

theorem unlink (hsound : g.Sound) (source : NodeId) (label : Label) :
    (st.unlink source label).Holds (g.unlink source label).2 where
  block? id := by
    have hlive : (st.unlink source label).live = st.live := by cases label <;> rfl
    rw [hlive, ← hholds.block?]
    simp [BlockGraph.block?]
  target? id other := by rw [BlockGraph.target?_unlink hsound, target?_unlink, hholds.target?]

theorem without (hsound : g.Sound) {id : NodeId} (hlive : (g.block? id).isSome) :
    (st.without id).Holds (g.without id) where
  block? other := by
    rw [BlockGraph.block?_without hlive, hholds.block?]
    grind [Store.without]
  target? other label := by rw [BlockGraph.target?_without hsound hlive, target?_without, hholds.target?]

theorem add (hsound : g.Sound) (kind : Kind) (editorId : Option String) :
    Store.Holds { st with live := st.live.insert (g.add kind editorId).1 { kind, editorId } }
      (g.add kind editorId).2 where
  block? id := by
    rw [BlockGraph.add, BlockGraph.block?_insert hsound, hholds.block?]
    grind
  target? id label := by
    rw [hsound.target?_eq_of_links_eq (hsound.add kind editorId) (BlockGraph.links_insert _), hholds.target?]
    cases label <;> rfl

theorem setField (hsound : g.Sound) (id : NodeId) (name : String) (value : FieldValue) :
    Alike (st.setField id name value) (g.setField id name value) := by
  rw [BlockGraph.setField_eq, Store.setField, hholds.require_eq, BlockGraph.require]
  cases hblock : g.block? id with
  | none => exact .error _
  | some block =>
    simp only [Outcome.ok_bind]
    split
    · exact .error _
    · next hfield =>
      have hlive : (g.block? id).isSome := by simp [hblock]
      have hdeclared : (block.kind.field? name).isSome := by
        simpa [Option.isNone_iff_eq_none, Option.isSome_iff_ne_none] using hfield
      have hfields := overwrite_eq_putNamed name value (hsound.fields id block hblock).1
      refine .ok ⟨fun other => ?_, fun other label => ?_⟩
      · rw [BlockGraph.block?_put hlive, hholds.block?, hfields, Block.setField]
        grind
      · rw [hsound.target?_eq_of_links_eq (hsound.change (.setField value hblock hdeclared)) rfl, hholds.target?]
        cases label <;> rfl

theorem connect (hsound : g.Sound) (parent : NodeId) (slot : String) (child : NodeId) :
    Alike (st.connect parent slot child) (g.connect parent slot child) := by
  rw [BlockGraph.connect_eq, Store.connect, hholds.require_eq, hholds.require_eq]
  unfold BlockGraph.require
  cases hparent : g.block? parent with
  | none => exact .error _
  | some block =>
    cases hchild : g.block? child with
    | none => exact .error _
    | some other =>
      simp only [Outcome.ok_bind]
      split
      · exact .error _
      · next hslot =>
        have hallows : block.kind.Allows (.slot slot) := by
          simpa [Kind.Allows, Option.isNone_iff_eq_none, Option.isSome_iff_ne_none] using hslot
        exact .ok (hholds.link hsound hparent hallows (by simp [hchild]))

theorem setNext (hsound : g.Sound) (id next : NodeId) :
    Alike (st.setNext id next) (g.setNext id next) := by
  rw [BlockGraph.setNext_eq, Store.setNext, hholds.require_eq, hholds.require_eq]
  unfold BlockGraph.require
  cases hblock : g.block? id with
  | none => exact .error _
  | some block =>
    cases hnext : g.block? next with
    | none => exact .error _
    | some other =>
      simp only [Outcome.ok_bind]
      split
      · next hlink => exact .ok (hholds.link hsound hblock hlink (by simp [hnext]))
      · exact .error _

omit hholds in
theorem chain (hholds : st.Holds g) (hsound : g.Sound) (ids : List NodeId) :
    (st.chain ids).2 = (g.chain ids).2 ∧ (st.chain ids).1.Holds (g.chain ids).1 := by
  fun_induction BlockGraph.chain g ids generalizing st with
  | case1 g a b rest h hok ih =>
    have halike := hholds.setNext hsound a b
    rw [hok] at halike
    cases hst : st.setNext a b with
    | error fault => rw [hst] at halike; cases halike
    | ok after =>
      rw [hst] at halike
      cases halike with
      | ok hafter =>
        simp only [Store.chain, hst]
        exact ih hafter (hsound.change (BlockGraph.relinked_of_setNext hok).change)
  | case2 g a b rest fault herror =>
    have halike := hholds.setNext hsound a b
    rw [herror] at halike
    cases hst : st.setNext a b with
    | ok after => rw [hst] at halike; cases halike
    | error other =>
      rw [hst] at halike
      cases halike
      simp only [Store.chain, hst]
      exact ⟨trivial, hholds⟩
  | case3 ids g hshort =>
    have hchain : st.chain ids = (st, none) := by
      unfold Store.chain
      split
      · exact absurd rfl (hshort _ _ _)
      · rfl
    rw [hchain]
    exact ⟨rfl, hholds⟩

theorem exists_fresh (hsound : g.Sound) : ∃ fresh, fresh ∉ st.live := by
  refine ⟨(g.add .root none).1, fun hmem => ?_⟩
  have hnone := BlockGraph.insert_fresh hsound { kind := .root, editorId := none }
  rw [← hholds.isSome_iff, BlockGraph.add, hnone] at hmem
  cases hmem

theorem attempt {made : Except GraphFault Store} {done : Except GraphFault BlockGraph}
    (halike : Alike made done) :
    (Reply.attempt st made).1 = (Reply.attempt g done).1 ∧
      (Reply.attempt st made).2.Holds (Reply.attempt g done).2 := by
  cases halike with
  | ok hafter => exact ⟨rfl, hafter⟩
  | error fault => exact ⟨rfl, hholds⟩

/-- The store can answer each edit as the graph does, and then has again what the graph has. -/
theorem edit (hsound : g.Sound) (e : Edit) :
    ∃ fresh, fresh ∉ st.live ∧ (st.edit fresh e).1 = (g.edit e).1 ∧ (st.edit fresh e).2.Holds (g.edit e).2 := by
  obtain ⟨fresh, hfresh⟩ := hholds.exists_fresh hsound
  cases e with
  | add kind editorId =>
    refine ⟨(g.add kind editorId).1, fun hmem => ?_, rfl, hholds.add hsound kind editorId⟩
    have hnone := BlockGraph.insert_fresh hsound { kind, editorId }
    rw [← hholds.isSome_iff, BlockGraph.add, hnone] at hmem
    cases hmem
  | remove id =>
    refine ⟨fresh, hfresh, ?_⟩
    simp only [Store.edit, BlockGraph.edit, BlockGraph.remove_eq, hholds.require_eq, BlockGraph.require]
    cases hblock : g.block? id with
    | none => exact ⟨rfl, hholds⟩
    | some block => exact ⟨rfl, hholds.without hsound (by simp [hblock])⟩
  | setField id name value => exact ⟨fresh, hfresh, hholds.attempt (hholds.setField hsound id name value)⟩
  | connect parent slot child => exact ⟨fresh, hfresh, hholds.attempt (hholds.connect hsound parent slot child)⟩
  | disconnect parent slot =>
    refine ⟨fresh, hfresh, ?_, hholds.unlink hsound parent (.slot slot)⟩
    simp [Store.edit, BlockGraph.edit, BlockGraph.disconnect, hholds.target?]
  | setNext id next => exact ⟨fresh, hfresh, hholds.attempt (hholds.setNext hsound id next)⟩
  | clearNext id =>
    refine ⟨fresh, hfresh, ?_, hholds.unlink hsound id .next⟩
    simp [Store.edit, BlockGraph.edit, BlockGraph.clearNext, hholds.target?]
  | chain ids =>
    obtain ⟨hfault, hafter⟩ := hholds.chain hsound ids
    refine ⟨fresh, hfresh, ?_⟩
    simp only [Store.edit, BlockGraph.edit]
    cases hst : st.chain ids with
    | mk after fault =>
      cases hg : g.chain ids with
      | mk done other =>
        rw [hst, hg] at hfault hafter
        cases hfault
        cases fault <;> exact ⟨rfl, hafter⟩

omit hholds in
theorem run (hholds : st.Holds g) (hsound : g.Sound) (edits : List Edit) :
    ∃ last, Runs Store.edit st edits (g.run edits).1 last ∧ last.Holds (g.run edits).2 := by
  induction edits generalizing st g with
  | nil => exact ⟨st, ⟨rfl, rfl⟩, hholds⟩
  | cons e edits ih =>
    obtain ⟨fresh, hfresh, hreply, hafter⟩ := hholds.edit hsound e
    obtain ⟨last, hruns, hlast⟩ := ih hafter (hsound.changes (BlockGraph.changes_edit g e))
    exact ⟨last, ⟨fresh, _, hfresh, by rw [hreply]; rfl, hruns⟩, hlast⟩

end Holds

/-- A finite map has as many entries as there are keys. -/
theorem size_eq_length {κ α : Type} [BEq κ] [Hashable κ] [LawfulBEq κ] {m : ExtHashMap κ α} {keys : List κ}
    (hnodup : keys.Nodup) (hkeys : ∀ key, key ∈ m ↔ key ∈ keys) : m.size = keys.length := by
  induction keys generalizing m with
  | nil =>
    have hempty : m = ∅ := ExtHashMap.eq_empty_iff_forall_not_mem.2 fun key => by simp [hkeys]
    rw [hempty, ExtHashMap.size_empty, List.length_nil]
  | cons key rest ih =>
    obtain ⟨hnew, hrest⟩ := List.nodup_cons.1 hnodup
    have hmem : key ∈ m := (hkeys key).2 (by simp)
    have herase : ∀ other, other ∈ m.erase key ↔ other ∈ rest := by
      intro other
      rw [ExtHashMap.mem_erase, hkeys]
      grind
    have hsize := ih hrest herase
    have hpositive : m.size ≠ 0 := fun hzero => by
      rw [← ExtHashMap.eq_empty_iff_size_eq_zero] at hzero
      simp [hzero] at hmem
    rw [ExtHashMap.size_erase, if_pos hmem] at hsize
    rw [List.length_cons]
    omega

/-- The entry of a slot with that key, or none. -/
def slotKey? : NodeId × Label → Option (NodeId × String)
  | (source, .slot name) => some (source, name)
  | (_, .next) => none

/-- The entry of a successor with that key, or none. -/
def nextKey? : NodeId × Label → Option NodeId
  | (_, .slot _) => none
  | (source, .next) => some source

theorem length_slotKey?_add_length_nextKey? (keys : List (NodeId × Label)) :
    (keys.filterMap slotKey?).length + (keys.filterMap nextKey?).length = keys.length := by
  induction keys with
  | nil => rfl
  | cons key rest ih =>
    obtain ⟨source, label⟩ := key
    cases label <;> simp only [List.filterMap_cons, slotKey?, nextKey?, List.length_cons] <;> omega

theorem slotKey?_eq_some_iff {key : NodeId × Label} {entry : NodeId × String} :
    slotKey? key = some entry ↔ key = (entry.1, .slot entry.2) := by
  obtain ⟨source, label⟩ := key
  cases label <;> simp [slotKey?, Prod.ext_iff]

theorem nextKey?_eq_some_iff {key : NodeId × Label} {source : NodeId} :
    nextKey? key = some source ↔ key = (source, .next) := by
  obtain ⟨start, label⟩ := key
  cases label <;> simp [nextKey?]

namespace Holds

variable {st : Store} {g : BlockGraph} (hholds : st.Holds g)

include hholds

theorem isSome_target?_iff (hsound : g.Sound) (source : NodeId) (label : Label) :
    (st.target? source label).isSome ↔ (source, label) ∈ g.links.map Link.key := by
  rw [← hholds.target?, hsound.isSome_target?_iff]

theorem blockCount : g.blockCount = st.live.size := by
  have hnodup : g.ids.Nodup := List.nodup_range.filter _
  rw [size_eq_length hnodup fun id => by rw [g.mem_ids_iff, hholds.isSome_iff]]
  exact (BlockGraph.length_ids g).symm

theorem linkCount (hsound : g.Sound) : g.linkCount = st.slots.size + st.next.size := by
  have hslots : st.slots.size = ((g.links.map Link.key).filterMap slotKey?).length := by
    refine size_eq_length (hsound.keys.filterMap fun key other entry hkey hother => ?_) fun entry => ?_
    · rw [slotKey?_eq_some_iff.1 hkey, slotKey?_eq_some_iff.1 hother]
    · have hmem := hholds.isSome_target?_iff hsound entry.1 (.slot entry.2)
      rw [Store.target?, ExtHashMap.isSome_getElem?_iff_mem] at hmem
      simp only [hmem, List.mem_filterMap, slotKey?_eq_some_iff, exists_eq_right]
  have hnext : st.next.size = ((g.links.map Link.key).filterMap nextKey?).length := by
    refine size_eq_length (hsound.keys.filterMap fun key other entry hkey hother => ?_) fun source => ?_
    · rw [nextKey?_eq_some_iff.1 hkey, nextKey?_eq_some_iff.1 hother]
    · have hmem := hholds.isSome_target?_iff hsound source .next
      rw [Store.target?, ExtHashMap.isSome_getElem?_iff_mem] at hmem
      simp only [hmem, List.mem_filterMap, nextKey?_eq_some_iff, exists_eq_right]
  rw [hslots, hnext, length_slotKey?_add_length_nextKey?, List.length_map]
  rfl

theorem mem_topLevel (hsound : g.Sound) (id : NodeId) :
    id ∈ g.topLevel ↔ id ∈ st.live ∧ ∀ source label, st.target? source label ≠ some id := by
  have hends : id ∉ g.links.map Link.target ↔ ∀ source label, st.target? source label ≠ some id := by
    simp only [← hholds.target?, hsound.mem_targets_iff, ne_eq, not_exists]
  rw [← hends, ← hholds.isSome_iff, ← g.mem_ids_iff, g.mem_topLevel_iff]

/-- A store with the blocks and the links of a sound graph has all its answers. -/
theorem describes (hsound : g.Sound) : st.Describes g where
  block? := hholds.block?
  child? id slot := hholds.target? id (.slot slot)
  next? id := hholds.target? id .next
  blockCount := hholds.blockCount
  linkCount := hholds.linkCount hsound
  topLevel_ascending := g.topLevel_ascending
  mem_topLevel id := by
    rw [hholds.mem_topLevel hsound]
    refine and_congr_right fun _ => ⟨fun hno => ⟨fun source slot => hno source (.slot slot),
      fun source => hno source .next⟩, ?_⟩
    rintro ⟨hslots, hnext⟩ source label
    cases label with
    | slot name => exact hslots source name
    | next => exact hnext source

end Holds

/-- A graph that edits make out of nothing is the store that the same edits make out of nothing: it
    gives the same replies on the way, and the same answers in the end. -/
theorem exists_runs_describes (edits : List Edit) :
    ∃ st, Runs edit empty edits (BlockGraph.empty.run edits).1 st ∧
      st.Describes (BlockGraph.empty.run edits).2 := by
  obtain ⟨st, hruns, hholds⟩ := Holds.empty.run BlockGraph.empty_sound edits
  exact ⟨st, hruns, hholds.describes (BlockGraph.empty_sound.changes (BlockGraph.changes_run _ edits))⟩

/-- Performs an edit as a whole: one that is refused leaves the store as it is, a chain too. -/
def editWhole (st : Store) (fresh : NodeId) (e : Edit) : Reply × Store :=
  match st.edit fresh e with
  | (.refused fault, _) => (.refused fault, st)
  | answer => answer

theorem editWhole_of_refused {st : Store} {fresh : NodeId} {e : Edit} {fault : GraphFault}
    (hrefused : (st.editWhole fresh e).1 = .refused fault) : (st.editWhole fresh e).2 = st := by
  unfold editWhole at hrefused ⊢
  split at hrefused
  · rfl
  · next hanswer => exact (hanswer fault (st.edit fresh e).2 (Prod.ext hrefused rfl)).elim

/-- A chain is not linked as a whole: where its second pair is refused, the first keeps its link, which
    no store has in which refused edits change nothing. -/
theorem not_runs_editWhole_describes :
    let edits : List Edit := [.add .case none, .add (.contract .close) none, .add .case none, .chain [0, 1, 2]]
    ¬∃ st, Runs editWhole empty edits (BlockGraph.empty.run edits).1 st ∧
      st.Describes (BlockGraph.empty.run edits).2 := by
  rintro edits ⟨st, hruns, hdescribes⟩
  have hreplies : (BlockGraph.empty.run edits).1 =
      [.added 0, .added 1, .added 2, .refused (.notChainable (.contract .close))] := by decide
  have hlinked : (BlockGraph.empty.run edits).2.next? 0 = some 1 := by decide
  rw [hreplies] at hruns
  obtain ⟨first, _, -, h1, second, _, -, h2, third, _, -, h3, fourth, _, -, h4, -, hlast⟩ := hruns
  cases h1
  cases h2
  cases h3
  have hrefused := editWhole_of_refused (List.cons.inj h4).1.symm
  have hnext := hdescribes.next? 0
  rw [hlinked, hlast, hrefused] at hnext
  -- Adding blocks leaves the successors alone, so there are still none.
  have hnone : (∅ : ExtHashMap NodeId NodeId)[(0 : NodeId)]? = none := ExtHashMap.getElem?_empty
  cases hnext.trans hnone

end Store

end ContractBlocks
