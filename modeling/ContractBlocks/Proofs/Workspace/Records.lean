import ContractBlocks.Proofs.Outcome
import ContractBlocks.Workspace.Read

namespace ContractBlocks.Workspace

open Json (Fault ListEnd Literal Outline RecordShape)
open Json.Outline

/-- Reads one field of a block. -/
def blockField (draft : BlockDraft) (name : String) (outline : Outline) : Except Fault BlockDraft :=
  readBlockField (fun _ => readInputs outline) (fun _ => readNext outline) draft name outline

/-- Reads one field of a connection. -/
def connectionField (connection : Connection PlacedBlock) (name : String) (outline : Outline) :
    Except Fault (Connection PlacedBlock) :=
  putTarget connection name <$> readTarget outline

theorem readBlockEntries_eq_readFields (draft : BlockDraft) (seen : List String) (entries : List (Literal × Outline)) :
    readBlockEntries draft seen entries = readFields blockShape blockField draft seen entries := by
  induction entries generalizing draft seen with
  | nil => rw [readBlockEntries, readFields]
  | cons entry entries ih =>
    obtain ⟨key, value⟩ := entry
    rw [readBlockEntries, readFields]
    simp only [ih, blockField]

theorem readBlockItems_eq_readPositions (draft : BlockDraft) (ending : ListEnd) (left : List (String × Bool))
    (items : List Outline) :
    readBlockItems draft ending left items = readPositions blockShape blockField draft ending left items := by
  induction items generalizing draft left with
  | nil =>
    cases left with
    | nil => rw [readBlockItems, readPositions]
    | cons field left => rw [readBlockItems, readPositions] <;> simp
  | cons item items ih =>
    cases left with
    | nil => rw [readBlockItems, readPositions]
    | cons field left =>
      obtain ⟨name, must⟩ := field
      rw [readBlockItems, readPositions]
      simp only [ih, blockField]

theorem readBlock_eq_readRecord (outline : Outline) :
    readBlock outline = outline.readRecord blockShape blockField {} >>= BlockDraft.finish := by
  cases outline with
  | object entries ending =>
    rw [readBlock, readRecord, readBlockEntries_eq_readFields]
    cases readFields blockShape blockField {} [] entries <;> cases ending.fault? <;> rfl
  | list items ending => rw [readBlock, readRecord, readBlockItems_eq_readPositions]
  | _ => rfl

theorem readConnectionEntries_eq_readFields (connection : Connection PlacedBlock) (seen : List String)
    (entries : List (Literal × Outline)) :
    readConnectionEntries connection seen entries =
      readFields connectionShape connectionField connection seen entries := by
  induction entries generalizing connection seen with
  | nil => rw [readConnectionEntries, readFields]
  | cons entry entries ih =>
    obtain ⟨key, value⟩ := entry
    rw [readConnectionEntries, readFields]
    simp only [ih, connectionField]
    cases readTarget value <;> rfl

/-- No field of a connection must be there, so its list may end anywhere. -/
theorem readConnectionItems_eq_readPositions (connection : Connection PlacedBlock) (ending : ListEnd)
    {left : List (String × Bool)} (hleft : ∀ field ∈ left, field.2 = false) (items : List Outline) :
    readConnectionItems connection ending left items =
      readPositions connectionShape connectionField connection ending left items := by
  induction items generalizing connection left with
  | nil =>
    cases left with
    | nil => rw [readConnectionItems, readPositions]
    | cons field left =>
      have hfull : connectionShape.shortFault? (field :: left) = none := by
        rw [RecordShape.shortFault?, Option.map_eq_none_iff, List.findIdx?_eq_none_iff]
        exact hleft
      rw [readConnectionItems, readPositions, hfull]
      · rfl
      · simp
  | cons item items ih =>
    cases left with
    | nil => rw [readConnectionItems, readPositions]
    | cons field left =>
      obtain ⟨name, must⟩ := field
      rw [readConnectionItems, readPositions]
      simp only [ih _ fun other hother => hleft other (List.mem_cons_of_mem _ hother), connectionField]
      cases readTarget item <;> rfl

theorem readConnection_eq_readRecord (outline : Outline) :
    readConnection outline = outline.readRecord connectionShape connectionField ⟨none, none⟩ := by
  cases outline with
  | object entries ending => rw [readConnection, readRecord, readConnectionEntries_eq_readFields]
  | list items ending =>
    rw [readConnection, readRecord, readConnectionItems_eq_readPositions _ _ (by decide)]
  | _ => rfl

theorem readInputs_eq_readMap (outline : Outline) : readInputs outline = outline.readMap readConnection := by
  have hentries (before : List (String × Connection PlacedBlock)) (entries : List (Literal × Outline)) :
      readInputEntries before entries = readNamed readConnection before entries := by
    induction entries generalizing before with
    | nil => rw [readInputEntries, readNamed]
    | cons entry entries ih =>
      obtain ⟨key, value⟩ := entry
      rw [readInputEntries, readNamed]
      simp only [ih]
  cases outline with
  | object entries ending => rw [readInputs, readMap, hentries]
  | _ => rfl

theorem readNext_eq_readOptional (outline : Outline) : readNext outline = outline.readOptional readConnection := by
  cases outline with
  | object entries ending =>
    rw [readNext, readOptional, readConnection]
    · cases readConnectionEntries ⟨none, none⟩ [] entries <;> cases ending.fault? <;> rfl
    · simp
  | list items ending =>
    rw [readNext, readOptional, readConnection]
    simp
  | _ => rfl

theorem readTarget_eq_readOptional (outline : Outline) : readTarget outline = outline.readOptional readBlock := by
  cases outline with
  | object entries ending =>
    rw [readTarget, readOptional, readBlock]
    · cases readBlockEntries {} [] entries <;> cases ending.fault? <;> rfl
    · simp
  | list items ending =>
    rw [readTarget, readOptional, readBlock]
    · cases readBlockItems {} ending blockShape.fields items <;> rfl
    · simp
  | _ => rfl

end ContractBlocks.Workspace
