import ContractBlocks.Proofs.Graph.Extended

namespace ContractBlocks

open Outcome

namespace PlacedBlock

/-- The fields that the kind of a block does not have. -/
def fieldFaults (kind : Kind) (fields : List (String × FieldValue)) : List GraphFault :=
  (fields.filter fun field => (kind.field? field.1).isNone).map fun field => .unknownField kind field.1

/-- Whether blocks of a kind can have a link with a label. -/
def labelFaults (kind : Kind) : Label → List GraphFault
  | .slot name => if (kind.slot? name).isNone then [.unknownSlot kind name] else []
  | .next => if kind.isLink then [] else [.notChainable kind]

mutual

/-- All that keeps a block, and what is plugged into it, from being added to a graph: its tag, or else its
    fields, its inputs in their order, each before what is plugged in there, and last its successor, after
    what is wrong with that. Of an unknown tag nothing more is said. -/
def faults : PlacedBlock → List GraphFault
  | ⟨tag, _, fields, inputs, next⟩ =>
    match Kind.ofTag? tag with
    | none => [.unknownKind tag]
    | some kind => fieldFaults kind fields ++ (inputFaults kind inputs ++ nextFaults kind next)

def inputFaults (kind : Kind) : List (String × Connection PlacedBlock) → List GraphFault
  | [] => []
  | (slot, connection) :: inputs =>
    labelFaults kind (.slot slot) ++ (targetFaults connection ++ inputFaults kind inputs)

def nextFaults (kind : Kind) : Option (Connection PlacedBlock) → List GraphFault
  | none => []
  | some connection =>
    targetFaults connection ++ if connection.target?.isSome then labelFaults kind .next else []

def targetFaults : Connection PlacedBlock → List GraphFault
  | ⟨some block, _⟩ => faults block
  | ⟨none, some block⟩ => faults block
  | ⟨none, none⟩ => []

end

theorem targetFaults_eq (connection : Connection PlacedBlock) :
    targetFaults connection = connection.target?.elim [] faults := by
  obtain ⟨block, shadow⟩ := connection
  cases block with
  | some block =>
    rw [targetFaults]
    rfl
  | none =>
    cases shadow with
    | some shadow =>
      rw [targetFaults]
      rfl
    | none =>
      rw [targetFaults]
      rfl

theorem inputFaults_eq (kind : Kind) (inputs : List (String × Connection PlacedBlock)) :
    inputFaults kind inputs =
      inputs.flatMap fun input => labelFaults kind (.slot input.1) ++ targetFaults input.2 := by
  induction inputs with
  | nil => rw [inputFaults, List.flatMap_nil]
  | cons input inputs ih => rw [inputFaults, ih, List.flatMap_cons, List.append_assoc]

end PlacedBlock

namespace BlockGraph

open PlacedBlock

variable {g h k : BlockGraph} {id : NodeId} {kind : Kind}

/-- `h` is sound and has the blocks of `g`, of the same kinds. -/
structure Keeps (g h : BlockGraph) : Prop where
  sound : h.Sound
  kind : ∀ {id kind}, g.source.kind id = some kind → h.source.kind id = some kind

theorem Keeps.refl (hsound : g.Sound) : g.Keeps g :=
  ⟨hsound, fun hkind => hkind⟩

theorem Keeps.trans (hkeeps : g.Keeps h) (hmore : h.Keeps k) : g.Keeps k :=
  ⟨hmore.sound, fun hkind => hmore.kind (hkeeps.kind hkind)⟩

theorem Extends.keeps (hextends : g.Extends h) (hsound : h.Sound) : g.Keeps h := by
  refine ⟨hsound, fun {id kind} hkind => ?_⟩
  simp only [source, hextends.block (live_of_kind hkind)]
  exact hkind

/-- Setting fields stops at the first that the kind of the block does not have. -/
theorem Sound.setFields_reports (hsound : g.Sound) (hkind : g.source.kind id = some kind)
    (fields : List (String × FieldValue)) : Reports (g.setFields id fields) (fieldFaults kind fields) g.Keeps := by
  induction fields generalizing g with
  | nil => exact .ok (.refl hsound)
  | cons field fields ih =>
    obtain ⟨block, hblock, rfl⟩ := exists_block_of_kind hkind
    have hset := g.setField_eq id field.1 field.2
    simp only [hblock] at hset
    rw [setFields, hset]
    by_cases hfield : (block.kind.field? field.1).isNone
    · simp only [fieldFaults, hfield, if_true, List.filter_cons, List.map_cons]
      exact .error _ _
    · have hrest : fieldFaults block.kind (field :: fields) = fieldFaults block.kind fields := by
        simp [fieldFaults, hfield]
      have hok : g.setField id field.1 field.2 = .ok (g.put id (block.setField field.1 field.2)) :=
        hset.trans (if_neg hfield)
      have hput := block?_put (live_of_kind hkind) (block.setField field.1 field.2)
      have hkeeps : g.Keeps (g.put id (block.setField field.1 field.2)) := by
        refine ⟨hsound.change (change_of_setField hok), fun {other found} hfound => ?_⟩
        simp only [source, hput]
        split
        · next heq =>
          subst heq
          exact hkind.symm.trans hfound ▸ rfl
        · exact hfound
      rw [if_neg hfield, hrest]
      exact (ih hkeeps.sound (hkeeps.kind hkind)).imp fun h hmore => hkeeps.trans hmore

theorem Relinked.keeps {label : Label} {target : NodeId} (hrelinked : g.Relinked id label target h)
    (hsound : g.Sound) : g.Keeps h := by
  refine ⟨hsound.change hrelinked.change, fun {other found} hfound => ?_⟩
  obtain ⟨-, -, rfl⟩ := hrelinked
  simp only [source, block?_relink]
  exact hfound

/-- A link to a block that is there is refused only for its label. -/
theorem Sound.plug_reports (hsound : g.Sound) (hkind : g.source.kind id = some kind) (label : Label) {target : NodeId}
    (htarget : (g.block? target).isSome) :
    Reports (g.plug id label target) (labelFaults kind label) g.Keeps := by
  obtain ⟨block, hblock, rfl⟩ := exists_block_of_kind hkind
  obtain ⟨inner, hinner⟩ := Option.isSome_iff_exists.1 htarget
  have hfinish : ∀ h, g.plug id label target = .ok h → Reports (g.plug id label target) [] g.Keeps := by
    intro h hok
    rw [hok]
    exact .ok ((relinked_of_plug hok).keeps hsound)
  cases label with
  | slot name =>
    have hconnect := g.connect_eq id name target
    simp only [hblock, hinner] at hconnect
    by_cases hslot : (block.kind.slot? name).isNone
    · rw [if_pos hslot] at hconnect
      rw [labelFaults, if_pos hslot, plug, hconnect]
      exact .error _ _
    · rw [labelFaults, if_neg hslot]
      exact hfinish _ (hconnect.trans (if_neg hslot))
  | next =>
    have hset := g.setNext_eq id target
    simp only [hblock, hinner] at hset
    by_cases hlink : block.kind.isLink
    · rw [labelFaults, if_pos hlink]
      exact hfinish _ (hset.trans (if_pos hlink))
    · rw [if_neg hlink] at hset
      rw [labelFaults, if_neg hlink, plug, hset]
      exact .error _ _

mutual

theorem place_reports {g : BlockGraph} (hsound : g.Sound) : (block : PlacedBlock) →
    Reports (g.place block) block.faults fun placed => g.Keeps placed.2 ∧ (placed.2.block? placed.1).isSome
  | ⟨tag, editorId, fields, inputs, next⟩ => by
    rw [place, faults]
    cases Kind.ofTag? tag with
    | none => exact .error _ _
    | some kind =>
      have hbegun := (hsound.extends_add kind editorId).keeps (hsound.add kind editorId)
      have hkind := hsound.kind_add kind editorId
      refine (hbegun.sound.setFields_reports hkind fields).bind fun set hset => ?_
      refine (placeInputs_reports hset.sound (hset.kind hkind) inputs).bind fun filled hfilled => ?_
      have hown := hfilled.kind (hset.kind hkind)
      rw [← List.append_nil (nextFaults kind next)]
      refine (placeNext_reports hfilled.sound hown next).bind fun h hnext => .ok ⟨?_, ?_⟩
      · exact hbegun.trans (hset.trans (hfilled.trans hnext))
      · exact live_of_kind (hnext.kind hown)

theorem placeInputs_reports {g : BlockGraph} {id : NodeId} {kind : Kind} (hsound : g.Sound)
    (hkind : g.source.kind id = some kind) : (inputs : List (String × Connection PlacedBlock)) →
    Reports (g.placeInputs id kind inputs) (inputFaults kind inputs) g.Keeps
  | [] => by
    rw [placeInputs, inputFaults]
    exact .ok (.refl hsound)
  | (slot, connection) :: inputs => by
    rw [placeInputs, inputFaults]
    split
    · next hslot =>
      rw [labelFaults, if_pos hslot]
      exact .error _ _
    · next hslot =>
      have hlabel : labelFaults kind (.slot slot) = [] := if_neg hslot
      rw [hlabel, List.nil_append]
      refine (placeTarget_reports hsound connection).bind fun ⟨child?, filled⟩ ⟨hkeeps, _, hchild⟩ => ?_
      have hown := hkeeps.kind hkind
      cases child? with
      | none => exact (placeInputs_reports hkeeps.sound hown inputs).imp fun h hmore => hkeeps.trans hmore
      | some child =>
        have hlinked := hkeeps.sound.plug_reports hown (.slot slot) (hchild child rfl)
        rw [hlabel] at hlinked
        refine hlinked.bind fun linked hmore => ?_
        refine (placeInputs_reports hmore.sound (hmore.kind hown) inputs).imp fun h hlast => ?_
        exact hkeeps.trans (hmore.trans hlast)

theorem placeNext_reports {g : BlockGraph} {id : NodeId} {kind : Kind} (hsound : g.Sound)
    (hkind : g.source.kind id = some kind) : (next : Option (Connection PlacedBlock)) →
    Reports (g.placeNext id next) (nextFaults kind next) g.Keeps
  | none => by
    rw [placeNext, nextFaults]
    exact .ok (.refl hsound)
  | some connection => by
    rw [placeNext, nextFaults]
    refine (placeTarget_reports hsound connection).bind fun ⟨next?, filled⟩ ⟨hkeeps, hsome, hnext⟩ => ?_
    rw [← hsome]
    cases next? with
    | none => exact .ok hkeeps
    | some next =>
      refine (hkeeps.sound.plug_reports (hkeeps.kind hkind) .next (hnext next rfl)).imp fun h hmore => ?_
      exact hkeeps.trans hmore

theorem placeTarget_reports {g : BlockGraph} (hsound : g.Sound) : (connection : Connection PlacedBlock) →
    Reports (g.placeTarget connection) (targetFaults connection) fun placed =>
      g.Keeps placed.2 ∧ placed.1.isSome = connection.target?.isSome ∧ ∀ id ∈ placed.1, (placed.2.block? id).isSome
  | ⟨some block, shadow⟩ => by
    rw [placeTarget, targetFaults, ← List.append_nil block.faults]
    refine (place_reports hsound block).bind fun placed hplaced => .ok ⟨hplaced.1, rfl, ?_⟩
    simpa using hplaced.2
  | ⟨none, some block⟩ => by
    rw [placeTarget, targetFaults, ← List.append_nil block.faults]
    refine (place_reports hsound block).bind fun placed hplaced => .ok ⟨hplaced.1, rfl, ?_⟩
    simpa using hplaced.2
  | ⟨none, none⟩ => by
    rw [placeTarget, targetFaults]
    exact .ok ⟨.refl hsound, rfl, by simp⟩

end

/-- Adding blocks stops at the first fault in the first block that has one. -/
theorem placeAll_reports {g : BlockGraph} (hsound : g.Sound) (blocks : List PlacedBlock) :
    Reports (g.placeAll blocks) (blocks.flatMap faults) g.Keeps := by
  induction blocks generalizing g with
  | nil => exact .ok (.refl hsound)
  | cons block blocks ih =>
    rw [placeAll, List.flatMap_cons]
    refine (place_reports hsound block).bind fun placed hplaced => ?_
    exact (ih hplaced.1.sound).imp fun h hmore => hplaced.1.trans hmore

end BlockGraph

/-- A workspace has a graph exactly if nothing is wrong with its blocks. -/
theorem Workspace.exists_graph_iff (workspace : Workspace) :
    (∃ g, workspace.graph = .ok g) ↔ workspace.blocks.flatMap PlacedBlock.faults = [] :=
  (BlockGraph.placeAll_reports BlockGraph.empty_sound workspace.blocks).exists_ok_iff

end ContractBlocks
