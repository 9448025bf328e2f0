import ContractBlocks.Json.Record
import ContractBlocks.Proofs.Json.Drawn

namespace ContractBlocks.Json

namespace Outline

/-- Every list and every object of an outline is closed. -/
inductive Complete : Outline → Prop
  | null : Complete .null
  | bool (b : Bool) : Complete (.bool b)
  | number (n : Numeral) : Complete (.number n)
  | string (s : Literal) : Complete (.string s)
  | list {items : List Outline} (hitems : ∀ item ∈ items, Complete item) : Complete (.list items .closed)
  | object {entries : List (Literal × Outline)} (hentries : ∀ entry ∈ entries, Complete entry.2) :
    Complete (.object entries .closed)

theorem skipItems_eq_ok {items : List Outline} (hitems : ∀ item ∈ items, item.skip = .ok ()) :
    skipItems items = .ok () := by
  induction items with
  | nil => rfl
  | cons item items ih =>
    rw [skipItems, hitems item List.mem_cons_self]
    exact ih fun other hother => hitems other (List.mem_cons_of_mem item hother)

theorem skipEntries_eq_ok {entries : List (Literal × Outline)} (hentries : ∀ entry ∈ entries, entry.2.skip = .ok ()) :
    skipEntries entries = .ok () := by
  induction entries with
  | nil => rfl
  | cons entry entries ih =>
    rw [skipEntries, hentries entry List.mem_cons_self]
    exact ih fun other hother => hentries other (List.mem_cons_of_mem entry hother)

/-- A value can be passed over wherever it is closed. -/
theorem Complete.skip_eq_ok {outline : Outline} (h : outline.Complete) : outline.skip = .ok () := by
  induction h with
  | null => rfl
  | bool b => rfl
  | number n => rfl
  | string s => rfl
  | list _ ih =>
    rw [skip, skipItems_eq_ok ih]
    rfl
  | object _ ih =>
    rw [skip, skipEntries_eq_ok ih]
    rfl

end Outline

/-- Every value in a stretch of text is complete. -/
def Stretch.Complete : Stretch → Prop
  | .value outline => outline.Complete
  | .items outlines => ∀ item ∈ outlines, item.Complete
  | .entries outlines => ∀ entry ∈ outlines, entry.2.Complete

theorem Draws.complete {stretch : Stretch} {cs rest : List Char} (h : Draws stretch cs rest) : stretch.Complete := by
  induction h with
  | null => exact Outline.Complete.null
  | true => exact Outline.Complete.bool _
  | false => exact Outline.Complete.bool _
  | number _ => exact Outline.Complete.number _
  | string _ => exact Outline.Complete.string _
  | emptyList _ => exact Outline.Complete.list (by simp)
  | list _ ih => exact Outline.Complete.list ih
  | emptyObject _ => exact Outline.Complete.object (by simp)
  | object _ ih => exact Outline.Complete.object ih
  | lastItem _ _ _ ih =>
    rw [Stretch.Complete, List.forall_mem_singleton]
    exact ih
  | item _ _ _ _ ih ihs =>
    rw [Stretch.Complete, List.forall_mem_cons]
    exact ⟨ih, ihs⟩
  | lastEntry _ _ _ _ _ _ ih =>
    rw [Stretch.Complete, List.forall_mem_singleton]
    exact ih
  | entry _ _ _ _ _ _ _ ih ihs =>
    rw [Stretch.Complete, List.forall_mem_cons]
    exact ⟨ih, ihs⟩

namespace Outline

variable {α σ : Type}

theorem readOptional_congr {read : Outline → Except Fault α} {outline other : Outline}
    (hnull : outline = .null ↔ other = .null) (hread : read outline = read other) :
    outline.readOptional read = other.readOptional read := by
  by_cases h : outline = .null
  · rw [h, hnull.1 h]
  · have hother : other ≠ .null := fun heq => h (hnull.2 heq)
    rw [readOptional, readOptional, hread]
    · exact hother
    · exact h

/-- Two lists have the same length, and a reader cannot tell what stands at any position of them apart. -/
theorem mapM_congr_of_getElem? {read : Outline → Except Fault α} {items others : List Outline}
    (hlength : items.length = others.length)
    (hitems : ∀ (i : Nat) item other, items[i]? = some item → others[i]? = some other → read item = read other) :
    items.mapM read = others.mapM read := by
  induction items generalizing others with
  | nil => rw [List.length_eq_zero_iff.1 hlength.symm]
  | cons item items ih =>
    cases others with
    | nil => cases hlength
    | cons other others =>
      have htail := ih (Nat.succ.inj hlength) fun i a b ha hb => hitems (i + 1) a b ha hb
      rw [List.mapM_cons, List.mapM_cons, hitems 0 item other rfl rfl, htail]

section Records

variable {shape : RecordShape} {read : σ → String → Outline → Except Fault σ} {key : Literal} {name : String}
  {value other : Outline} {entries others : List (Literal × Outline)}

/-- A record is read alike from two lists of entries, whatever has been read of it before. -/
def SameFields (shape : RecordShape) (read : σ → String → Outline → Except Fault σ)
    (entries others : List (Literal × Outline)) : Prop :=
  ∀ state seen, readFields shape read state seen entries = readFields shape read state seen others

theorem SameFields.kept (hread : ∀ name, key.text = .ok name → ∀ state, read state name value = read state name other)
    (hskip : ∀ name, key.text = .ok name → shape.has name = false → value.skip = other.skip)
    (hentries : SameFields shape read entries others) :
    SameFields shape read ((key, value) :: entries) ((key, other) :: others) := by
  intro state seen
  rw [readFields, readFields]
  cases hname : key.text with
  | error fault => rfl
  | ok name =>
    simp only [Outcome.ok_bind]
    split
    · split
      · rfl
      · simp only [hread name hname, hentries _ _]
    · next hnew => simp only [hskip name hname (Bool.eq_false_iff.2 hnew), hentries _ _]

/-- An entry that is no field of the record is passed over. -/
theorem SameFields.inserted (hname : key.text = .ok name) (hnew : shape.has name = false) (hvalue : value.Complete)
    (hentries : SameFields shape read entries others) : SameFields shape read entries ((key, value) :: others) := by
  intro state seen
  rw [hentries, readFields]
  simp [hname, hnew, hvalue.skip_eq_ok]

/-- A record written as a list is read alike from two lists with the same items at the positions of its
    fields, as far as its reader can tell. -/
theorem readPositions_congr {left : List (String × Bool)} {items others : List Outline}
    (hlength : items.length = others.length)
    (hitems : ∀ (i : Nat) (field : String × Bool) item other, left[i]? = some field → items[i]? = some item →
      others[i]? = some other → ∀ state, read state field.1 item = read state field.1 other) (state : σ) (ending : ListEnd) :
    readPositions shape read state ending left items = readPositions shape read state ending left others := by
  induction items generalizing left others state with
  | nil => rw [List.length_eq_zero_iff.1 hlength.symm]
  | cons item items ih =>
    cases others with
    | nil => cases hlength
    | cons other others =>
      cases left with
      | nil => rfl
      | cons field left =>
        obtain ⟨name, must⟩ := field
        have htail := ih (Nat.succ.inj hlength) fun i field a b hf ha hb => hitems (i + 1) field a b hf ha hb
        rw [readPositions, readPositions, hitems 0 (name, must) item other rfl rfl rfl]
        simp only [htail]

end Records

end Outline

end ContractBlocks.Json
