import ContractBlocks.Proofs.Workspace.Plugged

namespace ContractBlocks

open Json (Fault ListEnd Literal Outline)
open Json.Outline Outcome

namespace Connection

/-- The block or the stand-in of a connection. -/
def Holds {α : Type} (connection : Connection α) (inner : α) : Prop :=
  connection.block = some inner ∨ connection.shadow = some inner

theorem holds_of_target? {α : Type} {connection : Connection α} {inner : α}
    (htarget : connection.target? = some inner) : connection.Holds inner := by
  unfold target? at htarget
  exact (Option.or_eq_some_iff.1 htarget).imp_right And.right

end Connection

namespace PlacedBlock

/-- No two fields and no two inputs of a block have the same name, nor do they in any block inside. -/
inductive Distinct : PlacedBlock → Prop
  | intro {block : PlacedBlock} (hfields : (block.fields.map Prod.fst).Nodup)
      (hinputs : (block.inputs.map Prod.fst).Nodup)
      (hinner : ∀ input ∈ block.inputs, ∀ inner, input.2.Holds inner → Distinct inner)
      (hnext : ∀ connection ∈ block.next, ∀ inner, connection.Holds inner → Distinct inner) :
    Distinct block

variable {block inner : PlacedBlock} {label : Label}

theorem Distinct.fields (hdistinct : block.Distinct) : (block.fields.map Prod.fst).Nodup := by
  cases hdistinct with
  | intro hfields _ _ _ => exact hfields

theorem Distinct.inputs (hdistinct : block.Distinct) : (block.inputs.map Prod.fst).Nodup := by
  cases hdistinct with
  | intro _ hinputs _ _ => exact hinputs

theorem Distinct.of_mem_plugs (hdistinct : block.Distinct) (hplug : (label, inner) ∈ block.plugs) :
    inner.Distinct := by
  cases hdistinct with
  | intro _ _ hinner hnext =>
    rcases List.mem_append.1 hplug with hinput | hfollows
    · obtain ⟨input, hmem, htarget, -⟩ := mem_inputPlugs.1 hinput
      exact hinner input hmem inner (Connection.holds_of_target? htarget)
    · obtain ⟨connection, hmem, htarget⟩ := Option.bind_eq_some_iff.1 (mem_nextPlug.1 hfollows).2
      exact hnext connection hmem inner (Connection.holds_of_target? htarget)

theorem labels_inputPlugs_sublist (inputs : List (String × Connection PlacedBlock)) :
    ((inputPlugs inputs).map Prod.fst).Sublist ((inputs.map Prod.fst).map Label.slot) := by
  induction inputs with
  | nil => exact .slnil
  | cons input inputs ih =>
    cases htarget : input.2.target? with
    | none => simpa [inputPlugs, htarget] using ih.cons (.slot input.1)
    | some inner => simpa [inputPlugs, htarget] using ih.cons_cons (.slot input.1)

/-- Where names are distinct, each label is used once. -/
theorem Distinct.labels (hdistinct : block.Distinct) : (block.plugs.map Prod.fst).Nodup := by
  cases hdistinct with
  | intro _ hinputs _ _ =>
    rw [plugs, List.map_append, List.nodup_append]
    refine ⟨?_, ?_, ?_⟩
    · exact (hinputs.map fun _ _ => Label.slot.inj).sublist (labels_inputPlugs_sublist _)
    · unfold nextPlug
      split <;> simp
    · rintro label hinput other hnext rfl
      obtain ⟨name, -, rfl⟩ := List.mem_map.1 ((labels_inputPlugs_sublist _).subset hinput)
      obtain ⟨⟨_, inner⟩, hplug, rfl⟩ := List.mem_map.1 hnext
      cases (mem_nextPlug.1 hplug).1

end PlacedBlock

namespace Workspace

/-- Both blocks of a connection have distinct names. -/
def DistinctInside (connection : Connection PlacedBlock) : Prop :=
  ∀ inner, connection.Holds inner → inner.Distinct

/-- Inputs with distinct names, also inside. -/
def DistinctInputs (inputs : List (String × Connection PlacedBlock)) : Prop :=
  (inputs.map Prod.fst).Nodup ∧ ∀ input ∈ inputs, DistinctInside input.2

/-- What is read of a block so far has distinct names. -/
structure BlockDraft.Distinct (draft : BlockDraft) : Prop where
  fields : (draft.fields.map Prod.fst).Nodup
  inputs : DistinctInputs draft.inputs
  next : ∀ connection ∈ draft.next, DistinctInside connection

theorem DistinctInputs.putNamed {inputs : List (String × Connection PlacedBlock)} {name : String}
    {connection : Connection PlacedBlock} (hinputs : DistinctInputs inputs)
    (hconnection : DistinctInside connection) : DistinctInputs (putNamed name connection inputs) := by
  refine ⟨nodup_map_fst_putNamed hinputs.1, fun input hinput => ?_⟩
  rcases mem_putNamed hinput with rfl | hold
  · exact hconnection
  · exact hinputs.2 input hold

theorem DistinctInside.empty : DistinctInside ⟨none, none⟩ := by
  rintro inner (hblock | hshadow)
  · cases hblock
  · cases hshadow

theorem DistinctInside.putTarget {connection : Connection PlacedBlock} {name : String}
    {target : Option PlacedBlock} (hconnection : DistinctInside connection)
    (htarget : ∀ block ∈ target, block.Distinct) : DistinctInside (putTarget connection name target) := by
  unfold Workspace.putTarget
  split
  · exact fun inner hholds => hholds.elim (htarget inner) fun hshadow => hconnection inner (.inr hshadow)
  · exact fun inner hholds => hholds.elim (fun hblock => hconnection inner (.inl hblock)) (htarget inner)

theorem BlockDraft.Distinct.start : BlockDraft.Distinct {} :=
  ⟨by simp, ⟨by simp, by simp⟩, by simp⟩

theorem yields_finish {draft : BlockDraft} (hdraft : draft.Distinct) :
    Yields draft.finish PlacedBlock.Distinct := by
  refine .after fun tag => .ok ?_
  exact .intro hdraft.fields hdraft.inputs.1 hdraft.inputs.2 hdraft.next

theorem yields_readBlockField {inputs : Unit → Except Fault (List (String × Connection PlacedBlock))}
    {next : Unit → Except Fault (Option (Connection PlacedBlock))} {draft : BlockDraft} {name : String}
    {outline : Outline} (hdraft : draft.Distinct) (hinputs : Yields (inputs ()) DistinctInputs)
    (hnext : Yields (next ()) fun next => ∀ connection ∈ next, DistinctInside connection) :
    Yields (readBlockField inputs next draft name outline) BlockDraft.Distinct := by
  unfold readBlockField
  split
  · exact .after fun tag => .ok ⟨hdraft.fields, hdraft.inputs, hdraft.next⟩
  · exact .after fun editorId => .ok ⟨hdraft.fields, hdraft.inputs, hdraft.next⟩
  · exact (yields_readMap _ outline).bind fun fields hfields => .ok ⟨hfields, hdraft.inputs, hdraft.next⟩
  · exact hinputs.bind fun inputs hinputs => .ok ⟨hdraft.fields, hinputs, hdraft.next⟩
  · exact hnext.bind fun next hnext => .ok ⟨hdraft.fields, hdraft.inputs, hnext⟩

mutual

theorem yields_readBlockEntries {draft : BlockDraft} {seen : List String} (hdraft : draft.Distinct) :
    (entries : List (Literal × Outline)) →
      Yields (readBlockEntries draft seen entries) BlockDraft.Distinct
  | [] => .ok hdraft
  | (key, value) :: entries => by
    rw [readBlockEntries]
    refine .after fun name => ?_
    split
    · split
      · exact .error _
      · exact (yields_readBlockField hdraft (yields_readInputs value) (yields_readNext value)).bind
          fun draft hdraft => yields_readBlockEntries hdraft entries
    · exact .after fun _ => yields_readBlockEntries hdraft entries

theorem yields_readBlockItems {draft : BlockDraft} {ending : ListEnd} (hdraft : draft.Distinct) :
    (left : List (String × Bool)) → (items : List Outline) →
      Yields (readBlockItems draft ending left items) BlockDraft.Distinct
  | [], [] => .after fun _ => .ok hdraft
  | [], _ :: _ => .error _
  | _ :: _, [] => .after fun _ => .after fun _ => .ok hdraft
  | (name, _) :: left, item :: items => by
    rw [readBlockItems]
    exact (yields_readBlockField hdraft (yields_readInputs item) (yields_readNext item)).bind
      fun draft hdraft => yields_readBlockItems hdraft left items

theorem yields_readInputs : (outline : Outline) → Yields (readInputs outline) DistinctInputs
  | .object entries ending => by
    rw [readInputs]
    exact (yields_readInputEntries ⟨by simp, by simp⟩ entries).bind
      fun inputs hinputs => .after fun _ => .ok hinputs
  | .null | .bool _ | .number _ | .string _ | .list _ _ | .stopped _ => .error _

theorem yields_readInputEntries {before : List (String × Connection PlacedBlock)}
    (hbefore : DistinctInputs before) :
    (entries : List (Literal × Outline)) → Yields (readInputEntries before entries) DistinctInputs
  | [] => .ok hbefore
  | (key, value) :: entries => by
    rw [readInputEntries]
    exact .after fun name => (yields_readConnection value).bind
      fun connection hconnection => yields_readInputEntries (hbefore.putNamed hconnection) entries

theorem yields_readNext : (outline : Outline) →
    Yields (readNext outline) fun next => ∀ connection ∈ next, DistinctInside connection
  | .null => .ok (by simp)
  | .object entries ending => by
    rw [readNext]
    exact (yields_readConnectionEntries .empty entries).bind
      fun connection hconnection => .after fun _ => .ok (by simpa using hconnection)
  | .list items ending => by
    rw [readNext]
    exact (yields_readConnectionItems .empty _ items).map (by simp)
  | .bool _ | .number _ | .string _ | .stopped _ => .error _

theorem yields_readConnection : (outline : Outline) → Yields (readConnection outline) DistinctInside
  | .object entries ending => by
    rw [readConnection]
    exact (yields_readConnectionEntries .empty entries).bind
      fun connection hconnection => .after fun _ => .ok hconnection
  | .list items ending => by
    rw [readConnection]
    exact yields_readConnectionItems .empty _ items
  | .null | .bool _ | .number _ | .string _ | .stopped _ => .error _

theorem yields_readConnectionEntries {connection : Connection PlacedBlock} {seen : List String}
    (hconnection : DistinctInside connection) :
    (entries : List (Literal × Outline)) →
      Yields (readConnectionEntries connection seen entries) DistinctInside
  | [] => .ok hconnection
  | (key, value) :: entries => by
    rw [readConnectionEntries]
    refine .after fun name => ?_
    split
    · split
      · exact .error _
      · exact (yields_readTarget value).bind
          fun target htarget => yields_readConnectionEntries (hconnection.putTarget htarget) entries
    · exact .after fun _ => yields_readConnectionEntries hconnection entries

theorem yields_readConnectionItems {connection : Connection PlacedBlock} {ending : ListEnd}
    (hconnection : DistinctInside connection) :
    (left : List (String × Bool)) → (items : List Outline) →
      Yields (readConnectionItems connection ending left items) DistinctInside
  | [], [] => .after fun _ => .ok hconnection
  | [], _ :: _ => .error _
  | _ :: _, [] => .after fun _ => .ok hconnection
  | (name, _) :: left, item :: items => by
    rw [readConnectionItems]
    exact (yields_readTarget item).bind
      fun target htarget => yields_readConnectionItems (hconnection.putTarget htarget) left items

theorem yields_readTarget : (outline : Outline) →
    Yields (readTarget outline) fun target => ∀ block ∈ target, block.Distinct
  | .null => .ok (by simp)
  | .object entries ending => by
    rw [readTarget]
    exact (yields_readBlockEntries .start entries).bind fun draft hdraft => .after fun _ =>
      (yields_finish hdraft).bind fun block hblock => .ok (by simpa using hblock)
  | .list items ending => by
    rw [readTarget]
    exact (yields_readBlockItems .start _ items).bind fun draft hdraft =>
      (yields_finish hdraft).bind fun block hblock => .ok (by simpa using hblock)
  | .bool _ | .number _ | .string _ | .stopped _ => .error _

end

theorem yields_readBlock (outline : Outline) : Yields (readBlock outline) PlacedBlock.Distinct := by
  unfold readBlock
  split
  · exact (yields_readBlockEntries .start _).bind fun draft hdraft => .after fun _ => yields_finish hdraft
  · exact (yields_readBlockItems .start _ _).bind fun draft hdraft => yields_finish hdraft
  · exact .error _

theorem yields_readStack (outline : Outline) :
    Yields (readStack outline) fun blocks => ∀ block ∈ blocks, block.Distinct :=
  yields_readRecord (fun _ _ blocks _ => yields_readList yields_readBlock blocks) (by simp) outline

theorem yields_read (outline : Outline) :
    Yields (read outline) fun workspace => ∀ block ∈ workspace.blocks, block.Distinct := by
  refine (yields_readRecord (fun _ _ stack _ => yields_readOptional yields_readStack stack) (by simp)
    outline).bind fun stack hstack => .ok ?_
  cases stack with
  | none => simp
  | some blocks => exact hstack blocks rfl

/-- The blocks of a workspace that is read from a text have distinct names. -/
theorem distinct_of_readText {text : String} {workspace : Workspace} (hok : readText text = .ok workspace) :
    ∀ block ∈ workspace.blocks, block.Distinct := by
  unfold readText Outline.readText at hok
  obtain ⟨result, hresult, hend⟩ := bind_eq_ok_iff.1 hok
  split at hend
  · cases hend
    exact yields_read _ workspace hresult
  · cases hend

end Workspace

end ContractBlocks
