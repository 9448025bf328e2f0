import ContractBlocks.Proofs.Json.Passed
import ContractBlocks.Proofs.Workspace.Records
import ContractBlocks.Workspace.Import

namespace ContractBlocks.Workspace

open Json (Drawn Fault ListEnd Literal ObjectEnd Outline RecordShape Stretch)
open Json.Outline Outcome

/-- What is read at a place of a document. At `other` places no record of a workspace is read. -/
inductive Region
  | workspace
  | stack
  | blocks
  | block
  | inputs
  | connection
  | other

namespace Region

/-- The record that is read in a region, if one is. -/
def shape? : Region → Option RecordShape
  | .workspace => some workspaceShape
  | .stack => some stackShape
  | .block => some blockShape
  | .connection => some connectionShape
  | .blocks | .inputs | .other => none

/-- The region of what has a name in a region. -/
def field (region : Region) (name : String) : Region :=
  match region with
  | .workspace => if name = "blocks" then .stack else .other
  | .stack => if name = "blocks" then .blocks else .other
  | .block => if name = "inputs" then .inputs else if name = "next" then .connection else .other
  | .inputs => .connection
  | .connection => if name = "block" ∨ name = "shadow" then .block else .other
  | .blocks | .other => .other

/-- The region of what stands under a key of an object. -/
def under (region : Region) (key : Literal) : Region :=
  match key.text with
  | .ok name => region.field name
  | .error _ => .other

/-- The region of what stands at a position of a list. -/
def item (region : Region) (i : Nat) : Region :=
  match region, region.shape? with
  | .blocks, _ => .block
  | _, some shape => ((shape.fields[i]?).map fun field => region.field field.1).getD .other
  | _, none => .other

end Region

/-- A document with further entries, or a part of one that is read in some region. In every object that
    is read as a record, entries may be inserted before, between and after the others, with any values
    and with any names that are not fields of the record. -/
inductive Enlarged : Region → Stretch → Stretch → Prop
  | same (region : Region) (stretch : Stretch) : Enlarged region stretch stretch
  | list {region : Region} {items others : List Outline} {ending : ListEnd} (hlength : items.length = others.length)
      (hitems : ∀ (i : Nat) item other, items[i]? = some item → others[i]? = some other →
        Enlarged (region.item i) (.value item) (.value other)) :
    Enlarged region (.value (.list items ending)) (.value (.list others ending))
  | object {region : Region} {entries others : List (Literal × Outline)} {ending : ObjectEnd}
      (hentries : Enlarged region (.entries entries) (.entries others)) :
    Enlarged region (.value (.object entries ending)) (.value (.object others ending))
  | kept {region : Region} {key : Literal} {value other : Outline} {entries others : List (Literal × Outline)}
      (hvalue : Enlarged (region.under key) (.value value) (.value other))
      (hentries : Enlarged region (.entries entries) (.entries others)) :
    Enlarged region (.entries ((key, value) :: entries)) (.entries ((key, other) :: others))
  | inserted {region : Region} {shape : RecordShape} {key : Literal} {name : String} {value : Outline}
      {entries others : List (Literal × Outline)} (hshape : region.shape? = some shape) (hname : key.text = .ok name)
      (hnew : shape.has name = false) (hentries : Enlarged region (.entries entries) (.entries others)) :
    Enlarged region (.entries entries) (.entries ((key, value) :: others))

/-- How a record is read: from a state to the next by each of its fields. -/
structure Reading where
  State : Type
  shape : RecordShape
  field : State → String → Outline → Except Fault State
  start : State

/-- Reads the record. -/
def Reading.read (reading : Reading) (outline : Outline) : Except Fault reading.State :=
  outline.readRecord reading.shape reading.field reading.start

namespace Region

/-- How the record of a region is read. -/
def reading? : Region → Option Reading
  | .workspace =>
    some ⟨Option (List PlacedBlock), workspaceShape, fun _ _ outline => outline.readOptional readStack, none⟩
  | .stack => some ⟨List PlacedBlock, stackShape, fun _ _ outline => outline.readList readBlock, []⟩
  | .block => some ⟨BlockDraft, blockShape, blockField, {}⟩
  | .connection => some ⟨Connection PlacedBlock, connectionShape, connectionField, ⟨none, none⟩⟩
  | .blocks | .inputs | .other => none

variable {region : Region} {reading : Reading} {shape : RecordShape} {name : String} {outline other : Outline}
  {entries others : List (Literal × Outline)}

theorem shape?_of_reading? (hreading : region.reading? = some reading) : region.shape? = some reading.shape := by
  cases region <;> cases hreading <;> rfl

theorem field_of_not_has (hshape : region.shape? = some shape) (hnew : shape.has name = false) :
    region.field name = .other := by
  cases region <;> cases hshape
  all_goals
    simp only [RecordShape.has, workspaceShape, stackShape, blockShape, connectionShape, List.any_cons, List.any_nil,
      Bool.or_false, Bool.or_eq_false_iff, decide_eq_false_iff_not, @eq_comm _ _ name] at hnew
    simp [field, hnew]

theorem item_of_shape {i : Nat} {found : String × Bool} (hshape : region.shape? = some shape)
    (hfield : shape.fields[i]? = some found) : region.item i = region.field found.1 := by
  cases region <;> cases hshape <;> simp [item, shape?, hfield]

/-- The readers of a region cannot tell two outlines apart. -/
structure Alike (region : Region) (outline other : Outline) : Prop where
  null : outline = .null ↔ other = .null
  record : ∀ reading, region.reading? = some reading → reading.read outline = reading.read other
  blocks : region = .blocks → outline.readList readBlock = other.readList readBlock
  inputs : region = .inputs → outline.readMap readConnection = other.readMap readConnection
  unread : region = .other → outline = other

/-- The readers of a region cannot tell the entries of two objects apart. -/
structure AlikeEntries (region : Region) (entries others : List (Literal × Outline)) : Prop where
  record : ∀ reading, region.reading? = some reading → SameFields reading.shape reading.field entries others
  inputs : region = .inputs → ∀ before,
    readNamed readConnection before entries = readNamed readConnection before others
  unread : region = .other → entries = others

theorem Alike.refl (region : Region) (outline : Outline) : region.Alike outline outline :=
  ⟨.rfl, fun _ _ => rfl, fun _ => rfl, fun _ => rfl, fun _ => rfl⟩

theorem AlikeEntries.refl (region : Region) (entries : List (Literal × Outline)) : region.AlikeEntries entries entries :=
  ⟨fun _ _ _ _ => rfl, fun _ _ => rfl, fun _ => rfl⟩

theorem Alike.readBlock (halike : Alike .block outline other) : readBlock outline = readBlock other := by
  rw [readBlock_eq_readRecord, readBlock_eq_readRecord]
  exact congrArg (· >>= BlockDraft.finish) (halike.record _ rfl)

theorem Alike.readConnection (halike : Alike .connection outline other) :
    readConnection outline = readConnection other := by
  rw [readConnection_eq_readRecord, readConnection_eq_readRecord]
  exact halike.record _ rfl

/-- A field is read alike where what it holds is. -/
theorem Alike.field (hreading : region.reading? = some reading) (halike : (region.field name).Alike outline other)
    (state : reading.State) : reading.field state name outline = reading.field state name other := by
  cases region with
  | workspace =>
    cases hreading
    simp only [Region.field] at halike
    split at halike
    · exact readOptional_congr halike.null (halike.record _ rfl)
    · rw [halike.unread rfl]
  | stack =>
    cases hreading
    simp only [Region.field] at halike
    split at halike
    · exact halike.blocks rfl
    · rw [halike.unread rfl]
  | block =>
    cases hreading
    simp only [Region.field] at halike
    split at halike
    · next hname =>
      have hinputs : readInputs outline = readInputs other := by
        rw [readInputs_eq_readMap, readInputs_eq_readMap]
        exact halike.inputs rfl
      subst hname
      simp only [blockField, readBlockField, hinputs]
    · split at halike
      · next hname =>
        have hnext : readNext outline = readNext other := by
          rw [readNext_eq_readOptional, readNext_eq_readOptional]
          exact readOptional_congr halike.null halike.readConnection
        subst hname
        simp [blockField, readBlockField, hnext]
      · rw [halike.unread rfl]
  | connection =>
    cases hreading
    simp only [Region.field] at halike
    split at halike
    · have htarget : readTarget outline = readTarget other := by
        rw [readTarget_eq_readOptional, readTarget_eq_readOptional]
        exact readOptional_congr halike.null halike.readBlock
      simp only [connectionField, htarget]
    · rw [halike.unread rfl]
  | blocks => cases hreading
  | inputs => cases hreading
  | other => cases hreading

theorem Alike.list {items others : List Outline} {ending : ListEnd} (hlength : items.length = others.length)
    (hitems : ∀ (i : Nat) item other, items[i]? = some item → others[i]? = some other →
      (region.item i).Alike item other) : region.Alike (.list items ending) (.list others ending) where
  null := by simp
  record reading hreading := by
    refine readPositions_congr hlength (fun i found item other hfound hitem hother state => ?_) _ _
    have halike := hitems i item other hitem hother
    rw [item_of_shape (shape?_of_reading? hreading) hfound] at halike
    exact halike.field hreading state
  blocks hregion := by
    subst hregion
    have hread := mapM_congr_of_getElem? hlength fun i item other hitem hother =>
      (hitems i item other hitem hother).readBlock
    rw [readList, readList, hread]
  inputs _ := rfl
  unread hregion := by
    subst hregion
    have heq : items = others := List.ext_getElem hlength fun i hitem hother =>
      (hitems i _ _ (List.getElem?_eq_getElem hitem) (List.getElem?_eq_getElem hother)).unread rfl
    rw [heq]

theorem AlikeEntries.object {ending : ObjectEnd} (hentries : region.AlikeEntries entries others) :
    region.Alike (.object entries ending) (.object others ending) where
  null := by simp
  record reading hreading := by
    rw [Reading.read, Reading.read, readRecord, readRecord, hentries.record reading hreading]
  blocks _ := rfl
  inputs hregion := by rw [readMap, readMap, hentries.inputs hregion]
  unread hregion := by rw [hentries.unread hregion]

theorem AlikeEntries.kept {key : Literal} (hvalue : (region.under key).Alike outline other)
    (hentries : region.AlikeEntries entries others) :
    region.AlikeEntries ((key, outline) :: entries) ((key, other) :: others) where
  record reading hreading := by
    have hnamed (name : String) (hname : key.text = .ok name) : (region.field name).Alike outline other := by
      rwa [under, hname] at hvalue
    refine .kept (fun name hname state => (hnamed name hname).field hreading state) (fun name hname hnew => ?_)
      (hentries.record reading hreading)
    -- What is under no field is passed over, and there both have the same.
    rw [(hnamed name hname).unread (field_of_not_has (shape?_of_reading? hreading) hnew)]
  inputs hregion before := by
    subst hregion
    rw [readNamed, readNamed]
    cases hname : key.text with
    | error fault => rfl
    | ok name =>
      rw [under, hname] at hvalue
      simp only [ok_bind, hvalue.readConnection, hentries.inputs rfl]
  unread hregion := by
    subst hregion
    have hother : Region.under .other key = .other := by
      unfold under
      split <;> rfl
    rw [hvalue.unread hother, hentries.unread rfl]

theorem AlikeEntries.inserted {key : Literal} (hshape : region.shape? = some shape) (hname : key.text = .ok name)
    (hnew : shape.has name = false) (hvalue : outline.Complete) (hentries : region.AlikeEntries entries others) :
    region.AlikeEntries entries ((key, outline) :: others) where
  record reading hreading := by
    cases (shape?_of_reading? hreading).symm.trans hshape
    exact (hentries.record reading hreading).inserted hname hnew hvalue
  inputs hregion := by
    subst hregion
    cases hshape
  unread hregion := by
    subst hregion
    cases hshape

/-- The readers of a region cannot tell two stretches of text apart. -/
def AlikeStretch (region : Region) : Stretch → Stretch → Prop
  | .value outline, .value other => region.Alike outline other
  | .entries outlines, .entries others => region.AlikeEntries outlines others
  | _, _ => True

end Region

open Region in
/-- Further entries make no difference to the readers of a region. -/
theorem Enlarged.alike {region : Region} {stretch enlarged : Stretch} (h : Enlarged region stretch enlarged)
    (hcomplete : enlarged.Complete) : region.AlikeStretch stretch enlarged := by
  induction h with
  | same region stretch =>
    cases stretch with
    | value outline => exact Alike.refl region outline
    | items items => trivial
    | entries entries => exact AlikeEntries.refl region entries
  | list hlength _ ih =>
    cases hcomplete with
    | list hitems =>
      exact Alike.list hlength fun i item other hitem hother =>
        ih i item other hitem hother (hitems other (List.mem_of_getElem? hother))
  | object _ ih =>
    cases hcomplete with
    | object hentries => exact AlikeEntries.object (ih hentries)
  | kept _ _ ihvalue ihentries =>
    obtain ⟨hvalue, hentries⟩ := List.forall_mem_cons.1 hcomplete
    exact AlikeEntries.kept (ihvalue hvalue) (ihentries hentries)
  | inserted hshape hname hnew _ ih =>
    -- The value that is passed over stands in the enlarged document, so it is complete.
    obtain ⟨hvalue, hentries⟩ := List.forall_mem_cons.1 hcomplete
    exact AlikeEntries.inserted hshape hname hnew hvalue (ih hentries)

theorem read_eq_of_alike {outline other : Outline} (halike : Region.Alike .workspace outline other) :
    read outline = read other := by
  have hrecord : outline.readRecord workspaceShape (fun _ _ outline => outline.readOptional readStack) none =
      other.readRecord workspaceShape (fun _ _ outline => outline.readOptional readStack) none :=
    halike.record _ rfl
  rw [read, read, hrecord]

/-- Entries that are no fields of what they stand in make no difference to the import of a workspace,
    wherever they stand and whatever their values are: the graph is the same, or the fault is. -/
theorem importText_eq_of_enlarged {text enlarged : String} {outline other : Outline}
    (htext : Drawn text.toList outline) (henlarged : Drawn enlarged.toList other)
    (hentries : Enlarged .workspace (.value outline) (.value other)) : importText enlarged = importText text := by
  have hcomplete : other.Complete := by
    obtain ⟨_, _, _, hdraws, _⟩ := henlarged
    exact hdraws.complete
  have hread := read_eq_of_alike (hentries.alike hcomplete)
  have hreadText : readText enlarged = readText text := by
    rw [readText, readText, Outline.readText, Outline.readText, ofText_of_drawn htext, ofText_of_drawn henlarged]
    simp only [hread]
  rw [importText, importText, hreadText]

/-- Each of the four records has an entry more. One holds an object with a `type`, another half of a pair
    of code units. -/
theorem importText_eq_of_enlarged_editorState :
    importText ("\x7b\"v\":[true],\"blocks\":\x7b\"v\":null,\"blocks\":[\x7b\"x\":\x7b\"type\":[]\x7d,\"type\":\"contract_close\"," ++
        "\"next\":\x7b\"y\":\"\\ud800\"\x7d\x7d]\x7d\x7d") =
      importText "\x7b\"blocks\":\x7b\"blocks\":[\x7b\"type\":\"contract_close\",\"next\":\x7b\x7d\x7d]\x7d\x7d" ∧
    (importText "\x7b\"blocks\":\x7b\"blocks\":[\x7b\"type\":\"contract_close\",\"next\":\x7b\x7d\x7d]\x7d\x7d").toOption.isSome := by
  refine ⟨?_, by decide +kernel⟩
  apply importText_eq_of_enlarged
  · simp only [String.reduceToList]
    exact ⟨_, _, .nil, .object (.lastEntry .nil (.of_scan rfl) .nil .nil
      (.object (.lastEntry .nil (.of_scan rfl) .nil .nil
        (.list (.lastItem .nil (.object (.entry .nil (.of_scan rfl) .nil .nil (.string (.of_scan rfl)) .nil
          (.lastEntry .nil (.of_scan rfl) .nil .nil (.emptyObject .nil) .nil))) .nil)) .nil)) .nil), .nil⟩
  · simp only [String.reduceAppend, String.reduceToList]
    exact ⟨_, _, .nil, .object (.entry .nil (.of_scan rfl) .nil .nil (.list (.lastItem .nil .true .nil)) .nil
      (.lastEntry .nil (.of_scan rfl) .nil .nil
        (.object (.entry .nil (.of_scan rfl) .nil .nil .null .nil (.lastEntry .nil (.of_scan rfl) .nil .nil
          (.list (.lastItem .nil (.object (.entry .nil (.of_scan rfl) .nil .nil
            (.object (.lastEntry .nil (.of_scan rfl) .nil .nil (.emptyList .nil) .nil)) .nil
            (.entry .nil (.of_scan rfl) .nil .nil (.string (.of_scan rfl)) .nil
              (.lastEntry .nil (.of_scan rfl) .nil .nil
                (.object (.lastEntry .nil (.of_scan rfl) .nil .nil (.string (.of_scan rfl)) .nil)) .nil)))) .nil))
          .nil))) .nil)), .nil⟩
  · refine .object (.inserted rfl rfl rfl (.kept (.object (.inserted rfl rfl rfl (.kept (.list rfl ?_) (.same _ _))))
      (.same _ _)))
    rintro (_ | i) item other ⟨⟩ ⟨⟩
    exact .object (.inserted rfl rfl rfl (.kept (.same _ _)
      (.kept (.object (.inserted rfl rfl rfl (.same _ _))) (.same _ _))))

end ContractBlocks.Workspace
