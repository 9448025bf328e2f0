import ContractBlocks.Proofs.Graph.Reached
import Mathlib.Data.List.Sort

namespace ContractBlocks

/-- A cell of a graph is what one edit can write: the link with some label that leaves a block, or a field of
    a block. -/
inductive Cell
  | link (source : NodeId) (label : Label)
  | field (id : NodeId) (name : String)
deriving DecidableEq

/-- What stands in a cell. -/
inductive Held
  | block (id : NodeId)
  | value (value : FieldValue)

/-- The cell that an edit writes, and what it writes there. Edits that add, take away or chain are not of this
    form. -/
def Edit.write? : Edit → Option (Cell × Held)
  | .connect parent slot child => some (.link parent (.slot slot), .block child)
  | .setNext id next => some (.link id .next, .block next)
  | .setField id name value => some (.field id name, .value value)
  | _ => none

/-- The cell that an edit writes. -/
def Edit.cell? (e : Edit) : Option Cell :=
  e.write?.map Prod.fst

/-- Edits that write one cell each, no two of them the same. -/
structure Edit.Independent (edits : List Edit) : Prop where
  writes : ∀ e ∈ edits, e.cell?.isSome
  nodup : (edits.map Edit.cell?).Nodup

namespace Edit.Independent

variable {e : Edit} {edits others : List Edit}

theorem exists_write (hedits : Independent edits) (hmem : e ∈ edits) : ∃ cell held, e.write? = some (cell, held) := by
  obtain ⟨cell, hcell⟩ := Option.isSome_iff_exists.1 (hedits.writes e hmem)
  obtain ⟨⟨cell, held⟩, hwrite, -⟩ := Option.map_eq_some_iff.1 hcell
  exact ⟨cell, held, hwrite⟩

theorem tail (hedits : Independent (e :: edits)) : Independent edits :=
  ⟨fun other hother => hedits.writes other (List.mem_cons_of_mem e hother), (List.nodup_cons.1 hedits.nodup).2⟩

theorem perm (hedits : Independent edits) (hperm : edits.Perm others) : Independent others :=
  ⟨fun e hmem => hedits.writes e (hperm.mem_iff.2 hmem), (hperm.map Edit.cell?).nodup_iff.1 hedits.nodup⟩

end Edit.Independent

namespace BlockGraph

variable {g h : BlockGraph} {e : Edit} {cell : Cell} {held : Held}

/-- What stands in a cell of a graph. -/
def held? (g : BlockGraph) : Cell → Option Held
  | .link source label => (g.target? source label).map .block
  | .field id name => (g.source.field id name).map .value

/-- `h` is `g` with one cell written. -/
structure Written (g : BlockGraph) (cell : Cell) (held : Held) (h : BlockGraph) : Prop where
  sound : h.Sound
  kind : h.source.kind = g.source.kind
  editorId : h.source.editorId = g.source.editorId
  held : ∀ other, h.held? other = if other = cell then some held else g.held? other

theorem Relinked.written (hsound : g.Sound) {source target : NodeId} {label : Label}
    (hrelinked : g.Relinked source label target h) : g.Written (.link source label) (.block target) h := by
  have hafter := hsound.change hrelinked.change
  obtain ⟨⟨block, hsource, hallows⟩, htarget, rfl⟩ := hrelinked
  have hblock : (g.relink source label target).block? = g.block? := by
    funext id
    rw [block?, relink_blocks, block?]
  refine ⟨hafter, by simp only [BlockGraph.source, hblock], by simp only [BlockGraph.source, hblock], fun other => ?_⟩
  cases other with
  | link id other =>
    rw [held?, target?_relink hsound hsource hallows htarget]
    by_cases hsame : (id, other) = (source, label)
    · cases hsame
      simp
    · rw [if_neg hsame, if_neg (by simpa using hsame), held?]
  | field id name => simp only [held?, BlockGraph.source, hblock, reduceCtorEq, if_false]

theorem written_of_setField (hsound : g.Sound) {id : NodeId} {name : String} {value : FieldValue}
    (hok : g.setField id name value = .ok h) : g.Written (.field id name) (.value value) h := by
  have hafter := hsound.change (change_of_setField hok)
  rw [setField_eq] at hok
  split at hok
  · next block hblock =>
    split at hok
    · cases hok
    · cases hok
      have hput : ∀ other, (g.put id (block.setField name value)).block? other =
          if other = id then some (block.setField name value) else g.block? other :=
        block?_put (by simp [hblock]) _
      refine ⟨hafter, ?kind, ?editorId, fun other => ?_⟩
      case kind | editorId =>
        funext other
        simp only [source, hput]
        split
        · next hid => rw [hid, hblock]; rfl
        · rfl
      · cases other with
        | link source label =>
          rw [held?, hsound.target?_eq_of_links_eq hafter rfl, if_neg (by simp), held?]
        | field other field =>
          simp only [held?, source, hput, Cell.field.injEq]
          by_cases hid : other = id
          · subst hid
            simp only [if_true, hblock, Option.bind_some, Block.field?, Block.setField, lookup_putNamed, true_and]
            split <;> rfl
          · simp only [hid, if_false, false_and]
  · cases hok

section Replies

variable (g)

theorem kind_source (id : NodeId) : g.source.kind id = (g.block? id).map Block.kind :=
  rfl

/-- Whether an edit that writes one cell is refused, and why, depends on the kinds of the blocks only. -/
theorem reply_setField (id : NodeId) (name : String) (value : FieldValue) :
    (g.edit (.setField id name value)).1 =
      match g.source.kind id with
      | some kind => if (kind.field? name).isNone then .refused (.unknownField kind name) else .done
      | none => .refused (.noBlock id) := by
  rw [edit, setField_eq, kind_source]
  cases g.block? id with
  | none => rfl
  | some block =>
    dsimp only [Option.map_some]
    split <;> rfl

theorem reply_connect (parent : NodeId) (slot : String) (child : NodeId) :
    (g.edit (.connect parent slot child)).1 =
      match g.source.kind parent, g.source.kind child with
      | some kind, some _ => if (kind.slot? slot).isNone then .refused (.unknownSlot kind slot) else .done
      | none, _ => .refused (.noBlock parent)
      | some _, none => .refused (.noBlock child) := by
  rw [edit, connect_eq, kind_source, kind_source]
  cases g.block? parent with
  | none => rfl
  | some block =>
    cases g.block? child with
    | none => rfl
    | some other =>
      dsimp only [Option.map_some]
      split <;> rfl

theorem reply_setNext (id next : NodeId) :
    (g.edit (.setNext id next)).1 =
      match g.source.kind id, g.source.kind next with
      | some kind, some _ => if kind.isLink then .done else .refused (.notChainable kind)
      | none, _ => .refused (.noBlock id)
      | some _, none => .refused (.noBlock next) := by
  rw [edit, setNext_eq, kind_source, kind_source]
  cases g.block? id with
  | none => rfl
  | some block =>
    cases g.block? next with
    | none => rfl
    | some other =>
      dsimp only [Option.map_some]
      split <;> rfl

end Replies

theorem reply_eq_of_kind_eq (hwrite : e.write? = some (cell, held)) (hkind : g.source.kind = h.source.kind) :
    (g.edit e).1 = (h.edit e).1 := by
  cases e with
  | setField id name value => rw [reply_setField, reply_setField, hkind]
  | connect parent slot child => rw [reply_connect, reply_connect, hkind]
  | setNext id next => rw [reply_setNext, reply_setNext, hkind]
  | _ => cases hwrite

/-- An edit that writes one cell writes it, or is refused and changes nothing. -/
theorem Sound.written_or_refused (hsound : g.Sound) (hwrite : e.write? = some (cell, held)) :
    ((g.edit e).1 = .done ∧ g.Written cell held (g.edit e).2) ∨ ((g.edit e).1 ≠ .done ∧ (g.edit e).2 = g) := by
  have hattempt : ∀ outcome, (∀ h, outcome = .ok h → g.Written cell held h) →
      ((Reply.attempt g outcome).1 = .done ∧ g.Written cell held (Reply.attempt g outcome).2) ∨
        ((Reply.attempt g outcome).1 ≠ .done ∧ (Reply.attempt g outcome).2 = g) := by
    intro outcome hwritten
    cases outcome with
    | ok h => exact .inl ⟨rfl, hwritten h rfl⟩
    | error fault => exact .inr ⟨by simp [Reply.attempt], rfl⟩
  cases e with
  | setField id name value =>
    cases hwrite
    exact hattempt _ fun h hok => written_of_setField hsound hok
  | connect parent slot child =>
    cases hwrite
    exact hattempt _ fun h hok => (relinked_of_connect hok).written hsound
  | setNext id next =>
    cases hwrite
    exact hattempt _ fun h hok => (relinked_of_setNext hok).written hsound
  | _ => cases hwrite

section Edited

variable (hsound : g.Sound) (hwrite : e.write? = some (cell, held))

include hsound

theorem Sound.edit (e : Edit) : (g.edit e).2.Sound :=
  hsound.changes (changes_edit g e)

include hwrite

theorem kind_edit : (g.edit e).2.source.kind = g.source.kind := by
  rcases hsound.written_or_refused hwrite with ⟨-, hwritten⟩ | ⟨-, hsame⟩
  · exact hwritten.kind
  · rw [hsame]

theorem editorId_edit : (g.edit e).2.source.editorId = g.source.editorId := by
  rcases hsound.written_or_refused hwrite with ⟨-, hwritten⟩ | ⟨-, hsame⟩
  · exact hwritten.editorId
  · rw [hsame]

theorem held?_edit (other : Cell) : (g.edit e).2.held? other =
    if (g.edit e).1 = .done ∧ other = cell then some held else g.held? other := by
  rcases hsound.written_or_refused hwrite with ⟨hdone, hwritten⟩ | ⟨hrefused, hsame⟩
  · rw [hwritten.held]
    simp only [hdone, true_and]
  · rw [hsame, if_neg fun h => hrefused h.1]

end Edited

/-- Two sound graphs with the same blocks, and with the same in all cells. They may differ in the order in
    which links were made and fields were set. -/
structure Resembles (g h : BlockGraph) : Prop where
  sound : g.Sound
  sound' : h.Sound
  kind : g.source.kind = h.source.kind
  editorId : g.source.editorId = h.source.editorId
  held : ∀ cell, g.held? cell = h.held? cell

theorem Sound.resembles_self (hsound : g.Sound) : g.Resembles g :=
  ⟨hsound, hsound, rfl, rfl, fun _ => rfl⟩

namespace Resembles

variable {edits others : List Edit}

theorem trans {k : BlockGraph} (hgh : g.Resembles h) (hhk : h.Resembles k) : g.Resembles k :=
  ⟨hgh.sound, hhk.sound', hgh.kind.trans hhk.kind, hgh.editorId.trans hhk.editorId,
    fun cell => (hgh.held cell).trans (hhk.held cell)⟩

/-- The same edit of two such graphs leads to two such graphs. -/
theorem edit (hgh : g.Resembles h) (hwrite : e.write? = some (cell, held)) :
    (g.edit e).2.Resembles (h.edit e).2 where
  sound := hgh.sound.edit e
  sound' := hgh.sound'.edit e
  kind := by rw [kind_edit hgh.sound hwrite, kind_edit hgh.sound' hwrite, hgh.kind]
  editorId := by rw [editorId_edit hgh.sound hwrite, editorId_edit hgh.sound' hwrite, hgh.editorId]
  held other := by
    rw [held?_edit hgh.sound hwrite, held?_edit hgh.sound' hwrite, reply_eq_of_kind_eq hwrite hgh.kind, hgh.held]

theorem run (hgh : g.Resembles h) (hedits : Edit.Independent edits) :
    (g.run edits).2.Resembles (h.run edits).2 := by
  induction edits generalizing g h with
  | nil => exact hgh
  | cons e edits ih =>
    obtain ⟨cell, held, hwrite⟩ := hedits.exists_write List.mem_cons_self
    exact ih (hgh.edit hwrite) hedits.tail

/-- Edits of different cells can change places. -/
theorem swap (hgh : g.Resembles h) {a b : Edit} {other : Cell} {held' : Held} (ha : a.write? = some (cell, held))
    (hb : b.write? = some (other, held')) (hne : cell ≠ other) :
    ((g.edit a).2.edit b).2.Resembles ((h.edit b).2.edit a).2 := by
  have hga := hgh.sound.edit a
  have hhb := hgh.sound'.edit b
  refine ⟨hga.edit b, hhb.edit a, ?_, ?_, fun spot => ?_⟩
  · rw [kind_edit hga hb, kind_edit hgh.sound ha, kind_edit hhb ha, kind_edit hgh.sound' hb, hgh.kind]
  · rw [editorId_edit hga hb, editorId_edit hgh.sound ha, editorId_edit hhb ha, editorId_edit hgh.sound' hb,
      hgh.editorId]
  · -- The other edit does not change what either is replied.
    have hreplyb : ((g.edit a).2.edit b).1 = (h.edit b).1 :=
      reply_eq_of_kind_eq hb ((kind_edit hgh.sound ha).trans hgh.kind)
    have hreplya : ((h.edit b).2.edit a).1 = (g.edit a).1 :=
      reply_eq_of_kind_eq ha ((kind_edit hgh.sound' hb).trans hgh.kind.symm)
    rw [held?_edit hga hb, held?_edit hgh.sound ha, held?_edit hhb ha, held?_edit hgh.sound' hb, hreplya, hreplyb,
      hgh.held]
    by_cases hcell : spot = cell
    · subst hcell
      simp only [hne, and_false, if_false]
    · simp only [hcell, and_false, if_false]

/-- Edits of different cells can be made in any order. -/
theorem run_perm (hperm : edits.Perm others) (hgh : g.Resembles h) (hedits : Edit.Independent edits) :
    (g.run edits).2.Resembles (h.run others).2 := by
  induction hperm generalizing g h with
  | nil => exact hgh
  | cons e _ ih =>
    obtain ⟨cell, held, hwrite⟩ := hedits.exists_write List.mem_cons_self
    exact ih (hgh.edit hwrite) hedits.tail
  | swap a b edits =>
    obtain ⟨cell, held, hb⟩ := hedits.exists_write List.mem_cons_self
    obtain ⟨other, held', ha⟩ := hedits.tail.exists_write List.mem_cons_self
    have hne : cell ≠ other := by
      rintro rfl
      refine (List.nodup_cons.1 hedits.nodup).1 (List.mem_map.2 ⟨a, List.mem_cons_self, ?_⟩)
      rw [Edit.cell?, Edit.cell?, ha, hb]
      rfl
    exact (hgh.swap hb ha hne).run hedits.tail.tail
  | trans hfirst _ ih ih' => exact (ih hgh hedits).trans (ih' hgh.sound'.resembles_self (hedits.perm hfirst))

end Resembles

/-- What an edit is replied does not depend on the edits of other cells that were made before it. -/
theorem run_replies (hsound : g.Sound) {edits : List Edit} (hedits : Edit.Independent edits) :
    (g.run edits).1 = edits.map fun e => (g.edit e).1 := by
  induction edits generalizing g with
  | nil => rfl
  | cons e edits ih =>
    obtain ⟨cell, held, hwrite⟩ := hedits.exists_write List.mem_cons_self
    rw [BlockGraph.run, ih (hsound.edit e) hedits.tail, List.map_cons]
    refine congrArg _ (List.map_congr_left fun later hlater => ?_)
    obtain ⟨_, _, hlater⟩ := hedits.tail.exists_write hlater
    exact reply_eq_of_kind_eq hlater (kind_edit hsound hwrite)

namespace Resembles

variable (hgh : g.Resembles h)

include hgh

theorem target? (source : NodeId) (label : Label) : g.target? source label = h.target? source label :=
  Option.map_injective (fun _ _ => Held.block.inj) (hgh.held (.link source label))

theorem field (id : NodeId) (name : String) : g.source.field id name = h.source.field id name :=
  Option.map_injective (fun _ _ => Held.value.inj) (hgh.held (.field id name))

theorem ids : g.ids = h.ids := by
  refine List.Pairwise.eq_of_mem_iff (List.pairwise_lt_range.filter _) (List.pairwise_lt_range.filter _) ?_
  intro id
  have hlive := congrArg Option.isSome (congrFun hgh.kind id)
  rw [kind_source, kind_source, Option.isSome_map, Option.isSome_map] at hlive
  rw [mem_ids_iff, mem_ids_iff, hlive]

theorem blockCount : g.blockCount = h.blockCount := by
  rw [← length_ids, ← length_ids, hgh.ids]

theorem linkCount : g.linkCount = h.linkCount := by
  have hkeys : (g.links.map Link.key).Perm (h.links.map Link.key) := by
    refine (List.perm_ext_iff_of_nodup hgh.sound.keys hgh.sound'.keys).2 fun (source, label) => ?_
    rw [← hgh.sound.isSome_target?_iff, ← hgh.sound'.isSome_target?_iff, hgh.target?]
  have hlength := hkeys.length_eq
  rwa [List.length_map, List.length_map] at hlength

theorem topLevel : g.topLevel = h.topLevel := by
  refine g.topLevel_ascending.eq_of_mem_iff h.topLevel_ascending fun id => ?_
  rw [mem_topLevel_iff, mem_topLevel_iff, hgh.ids, hgh.sound.mem_targets_iff, hgh.sound'.mem_targets_iff]
  simp only [hgh.target?]

/-- A compilation sees no difference. -/
theorem source_eq : g.source = h.source := by
  have htarget : g.target? = h.target? := funext₂ hgh.target?
  have hkind := hgh.kind
  have heditor := hgh.editorId
  have hfield := funext₂ hgh.field
  unfold source child? next? at *
  congr 1
  · exact hgh.ids
  · exact hgh.topLevel
  all_goals simp only [htarget]

end Resembles

/-- Edits that write different cells may be made in any order. Each is replied what it would be if it were made
    alone, and the graphs in the end have the same in all cells and give the same when they are compiled,
    though they may be laid out differently. -/
theorem Reached.independent_edits_commute (hreached : g.Reached) {edits others : List Edit}
    (hedits : Edit.Independent edits) (hperm : edits.Perm others) :
    let h := (g.run edits).2
    let k := (g.run others).2
    (g.run edits).1 = edits.map (fun e => (g.edit e).1) ∧ (g.run others).1 = others.map (fun e => (g.edit e).1) ∧
      (∀ id slot, h.child? id slot = k.child? id slot) ∧ (∀ id, h.next? id = k.next? id) ∧
      (∀ id name, h.source.field id name = k.source.field id name) ∧ h.blockCount = k.blockCount ∧
      h.linkCount = k.linkCount ∧ h.topLevel = k.topLevel ∧ h.source.compile = k.source.compile := by
  intro h k
  have hresembles : h.Resembles k := hreached.sound.resembles_self.run_perm hperm hedits
  exact ⟨run_replies hreached.sound hedits, run_replies hreached.sound (hedits.perm hperm),
    fun id slot => hresembles.target? id (.slot slot), fun id => hresembles.target? id .next, hresembles.field,
    hresembles.blockCount, hresembles.linkCount, hresembles.topLevel, by rw [hresembles.source_eq]⟩

/-- Six edits, one of them refused, are made in the one order and in the other. The graphs are not the same. -/
theorem Reached.independent_edits_commute_backwards :
    let g := (BlockGraph.empty.run [.add .root none, .add (.contract .when) none, .add (.contract .close) none,
      .add .case none, .add .token none]).2
    let edits : List Edit := [.connect 0 "CONTRACT" 1, .setField 1 "TIMEOUT" (.text "5"),
      .connect 1 "TIMEOUT_CONT" 2, .setNext 2 3, .setField 4 "CURRENCY" (.text "c"), .setField 4 "NAME" (.text "n")]
    g.Reached ∧ Edit.Independent edits ∧ (g.run edits).2 ≠ (g.run edits.reverse).2 ∧
      (g.run edits).1 = [.done, .done, .done, .refused (.notChainable (.contract .close)), .done, .done] ∧
      (g.run edits.reverse).1 = [.done, .done, .refused (.notChainable (.contract .close)), .done, .done, .done] ∧
      (g.run edits).2.topLevel = (g.run edits.reverse).2.topLevel ∧
      (g.run edits).2.source.compile = .ok (.when [] 5 .close) ∧
      (g.run edits.reverse).2.source.compile = .ok (.when [] 5 .close) := by
  intro g edits
  have hreached : g.Reached := Reached.empty.run _
  have hedits : Edit.Independent edits := ⟨by decide, by decide⟩
  have hperm : edits.Perm edits.reverse := edits.reverse_perm.symm
  obtain ⟨hreplies, hreplies', -, -, -, -, -, htop, hcompile⟩ := Reached.independent_edits_commute hreached hedits hperm
  have hok : (g.run edits).2.source.compile = .ok (.when [] 5 .close) := by decide +kernel
  refine ⟨hreached, hedits, by decide +kernel, hreplies.trans (by decide +kernel), hreplies'.trans (by decide +kernel),
    htop, hok, hcompile.symm.trans hok⟩

end BlockGraph

end ContractBlocks
