import ContractBlocks.Command.Directory
import ContractBlocks.Proofs.Json.Named

namespace ContractBlocks.Directory

open Outcome (bind_eq_ok_iff)

variable {d after : Directory} {location outer target : Location} {path content : String} {bytes : ByteArray}

/-- A path leads to the file at a place. -/
def Leads (d : Directory) (path : String) (location : Location) : Prop :=
  ∃ name, PathName.ofText? path = .ok name ∧ name.closed = false ∧
    d.walk name.absolute name.names = .ok (.file location)

/-- A path leads to a file that holds a text and nothing else. All other files are as they were. -/
def Written (d : Directory) (path content : String) (after : Directory) : Prop :=
  ∃ location, after.Leads path location ∧ after.content? location = some content.toUTF8 ∧
    ∀ other, other ≠ location → after.content? other = d.content? other

theorem fromUTF8?_toByteArray (content : String) : String.fromUTF8? content.toByteArray = some content := by
  unfold String.fromUTF8?
  rw [dif_pos content.isValidUTF8]
  rfl

theorem Written.read_eq (hwritten : d.Written path content after) : after.read path = .ok content := by
  obtain ⟨location, ⟨name, hname, hopen, hwalk⟩, hcontent, -⟩ := hwritten
  simp [read, hname, hwalk, hopen, hcontent, fromUTF8?_toByteArray]

theorem content?_put (d : Directory) (target : Location) (bytes : ByteArray) (location : Location) :
    (d.put target bytes).content? location = if location = target then some bytes else d.content? location := by
  have hmap : ∀ files : List (Location × ByteArray),
      (files.map fun file => if file.1 = target then (target, bytes) else file).lookup location =
        if location = target then (files.lookup location).map fun _ => bytes else files.lookup location := by
    intro files
    induction files with
    | nil => simp
    | cons file files ih =>
      rw [List.map_cons, lookup_cons, lookup_cons, ih]
      by_cases hlocation : location = target
      · by_cases hfile : file.1 = target
        · simp [hfile, hlocation]
        · simp [hfile, hlocation, Ne.symm hfile]
      · by_cases hfile : file.1 = target <;> simp [hfile, hlocation]
  unfold put
  by_cases hsome : (d.content? target).isSome
  · rw [if_pos hsome, content?, hmap]
    rw [content?] at hsome
    obtain ⟨old, hold⟩ := Option.isSome_iff_exists.1 hsome
    split
    · next heq =>
      rw [heq, hold]
      rfl
    · rfl
  · rw [if_neg hsome, content?, List.lookup_append]
    rw [Option.not_isSome_iff_eq_none, content?] at hsome
    split
    · next heq =>
      rw [heq, hsome]
      simp
    · next hne => simp [content?, lookup_cons, hne]

theorem place?_put_self (d : Directory) (target : Location) (bytes : ByteArray) :
    (d.put target bytes).place? target = some (.file target) := by
  simp [place?, content?_put]

theorem place?_eq_directory_iff {inner : Location} :
    d.place? location = some (.directory inner) ↔
      inner = location ∧ d.content? location = none ∧ ∃ file ∈ d.files, file.1.isBelow location := by
  rw [place?]
  split
  · next hsome =>
    constructor
    · rintro ⟨⟩
    · rintro ⟨-, hnone, -⟩
      simp [hnone] at hsome
  · next hnone =>
    simp only [Option.not_isSome_iff_eq_none] at hnone
    split
    · next hany =>
      rw [List.any_eq_true] at hany
      simp only [Option.some.injEq, Place.directory.injEq, hnone, hany, and_true]
      exact eq_comm
    · next hany =>
      rw [List.any_eq_true] at hany
      simp only [reduceCtorEq, hany, and_false]

theorem exists_file_put (target : Location) (bytes : ByteArray) {file : Location × ByteArray}
    (hfile : file ∈ d.files) :
    ∃ kept ∈ (d.put target bytes).files, kept.1 = file.1 := by
  unfold put
  split
  · by_cases heq : file.1 = target
    · exact ⟨(target, bytes), List.mem_map.2 ⟨file, hfile, if_pos heq⟩, heq.symm⟩
    · exact ⟨file, List.mem_map.2 ⟨file, hfile, if_neg heq⟩, rfl⟩
  · exact ⟨file, List.mem_append_left _ hfile, rfl⟩

/-- No file goes away, so what was a directory stays one unless the new file is put in its place. -/
theorem place?_put_of_directory (hplace : d.place? location = some (.directory location))
    (hne : location ≠ target) : (d.put target bytes).place? location = some (.directory location) := by
  obtain ⟨-, hcontent, file, hfile, hbelow⟩ := place?_eq_directory_iff.1 hplace
  obtain ⟨kept, hkept, hsame⟩ := exists_file_put target bytes hfile
  refine place?_eq_directory_iff.2 ⟨rfl, ?_, kept, hkept, hsame ▸ hbelow⟩
  rw [content?_put, if_neg hne, hcontent]

theorem find?_eq_ok_iff {name : String} {found : Option Place} :
    d.find? outer name = .ok found ↔ name.utf8ByteSize ≤ 255 ∧ d.place? (outer.child name) = found := by
  rw [find?]
  split
  · next hsize => simp [hsize]
  · next hsize => simp only [reduceCtorEq, hsize, false_and]

/-- A step that ends in a directory starts in one, and stays, goes up, or goes down to one that is there. -/
theorem step_eq_directory_iff {place : Place} {name : String} :
    d.step place name = .ok (.directory location) ↔ ∃ outer, place = .directory outer ∧
      (name = "." ∧ location = outer ∨ name = ".." ∧ location = outer.parent ∨
        name ≠ "." ∧ name ≠ ".." ∧ name.utf8ByteSize ≤ 255 ∧
          d.place? (outer.child name) = some (.directory location)) := by
  cases place with
  | file => simp [step]
  | directory outer =>
    rw [step]
    by_cases hdot : name = "."
    · simp [hdot, eq_comm]
    · by_cases hup : name = ".."
      · simp [hup, eq_comm]
      · cases hfind : d.find? outer name with
        | error fault =>
          have hsize : ¬name.utf8ByteSize ≤ 255 := by
            intro hsize
            rw [find?, if_pos hsize] at hfind
            cases hfind
          simp [hdot, hup, hsize]
        | ok found =>
          obtain ⟨hsize, rfl⟩ := find?_eq_ok_iff.1 hfind
          cases hplace : d.place? (outer.child name) <;> simp [hdot, hup, hsize, hplace]

theorem step_put_of_directory {place : Place} {name : String}
    (hfree : ∀ inner, d.place? target ≠ some (.directory inner))
    (hstep : d.step place name = .ok (.directory location)) :
    (d.put target bytes).step place name = .ok (.directory location) := by
  obtain ⟨outer, rfl, hstay | hup | ⟨hdot, hup, hsize, hdown⟩⟩ := step_eq_directory_iff.1 hstep
  · exact step_eq_directory_iff.2 ⟨outer, rfl, .inl hstay⟩
  · exact step_eq_directory_iff.2 ⟨outer, rfl, .inr (.inl hup)⟩
  · obtain ⟨rfl, -⟩ := place?_eq_directory_iff.1 hdown
    have hne : outer.child name ≠ target := fun heq => hfree _ (heq ▸ hdown)
    exact step_eq_directory_iff.2 ⟨outer, rfl, .inr (.inr ⟨hdot, hup, hsize, place?_put_of_directory hdown hne⟩)⟩

/-- Names that lead to a directory pass through directories only. A file that is put in the place of none
    of them is not in the way. -/
theorem foldlM_step_put (hfree : ∀ inner, d.place? target ≠ some (.directory inner)) {names : List String}
    {place : Place} (hwalk : names.foldlM d.step place = .ok (.directory location)) :
    names.foldlM (d.put target bytes).step place = .ok (.directory location) := by
  induction names generalizing place with
  | nil => exact hwalk
  | cons name names ih =>
    rw [List.foldlM_cons] at hwalk ⊢
    obtain ⟨between, hstep, hrest⟩ := bind_eq_ok_iff.1 hwalk
    have hbetween : ∃ inner, between = .directory inner := by
      cases names with
      | nil => exact ⟨location, Except.ok.inj hrest⟩
      | cons next names =>
        rw [List.foldlM_cons] at hrest
        obtain ⟨_, hnext, -⟩ := bind_eq_ok_iff.1 hrest
        cases between with
        | file => cases hnext
        | directory inner => exact ⟨inner, rfl⟩
    obtain ⟨inner, rfl⟩ := hbetween
    rw [step_put_of_directory hfree hstep]
    exact ih hrest

/-- Writing puts a file where none but a file was, in a directory that the path leads to. -/
theorem exists_put_of_write (hwrite : d.write path content = .ok after) :
    ∃ name outer last, PathName.ofText? path = .ok name ∧ name.closed = false ∧
      name.names.getLast? = some last ∧ d.walk name.absolute name.names.dropLast = .ok (.directory outer) ∧
      last ≠ "." ∧ last ≠ ".." ∧ last.utf8ByteSize ≤ 255 ∧
      (∀ inner, d.place? (outer.child last) ≠ some (.directory inner)) ∧
      after = d.put (outer.child last) content.toUTF8 := by
  obtain ⟨name, hname, hwrite⟩ := bind_eq_ok_iff.1 hwrite
  cases hlast : name.names.getLast? with
  | none => simp [hlast] at hwrite
  | some last =>
    rw [hlast] at hwrite
    obtain ⟨place, hwalk, hwrite⟩ := bind_eq_ok_iff.1 hwrite
    cases place with
    | file => cases hwrite
    | directory outer =>
      dsimp only at hwrite
      split at hwrite
      · cases hwrite
      · next hplain =>
        simp only [not_or, Bool.not_eq_true] at hplain
        obtain ⟨found, hfind, hwrite⟩ := bind_eq_ok_iff.1 hwrite
        obtain ⟨hsize, hplace⟩ := find?_eq_ok_iff.1 hfind
        refine ⟨name, outer, last, hname, hplain.2.2, hlast, hwalk, hplain.1, hplain.2.1, hsize, ?_⟩
        split at hwrite
        · cases hwrite
        · next hother =>
          exact ⟨fun inner hinner => hother inner (hplace ▸ hinner), (Except.ok.inj hwrite).symm⟩

theorem written_of_write (hwrite : d.write path content = .ok after) : d.Written path content after := by
  obtain ⟨name, outer, last, hname, hopen, hlast, hwalk, hdot, hup, hsize, hfree, rfl⟩ := exists_put_of_write hwrite
  refine ⟨outer.child last, ⟨name, hname, hopen, ?_⟩, ?_, fun other hne => ?_⟩
  · have hfind := find?_eq_ok_iff.2 ⟨hsize, place?_put_self d (outer.child last) content.toUTF8⟩
    have hstep : (d.put (outer.child last) content.toUTF8).step (.directory outer) last =
        .ok (.file (outer.child last)) := by
      simp only [step, hdot, hup, hfind, ↓reduceIte]
    obtain ⟨front, hnames⟩ := List.getLast?_eq_some_iff.1 hlast
    rw [hnames, List.dropLast_concat] at hwalk
    rw [walk] at hwalk ⊢
    rw [hnames, List.foldlM_append]
    exact bind_eq_ok_iff.2 ⟨_, foldlM_step_put hfree hwalk, bind_eq_ok_iff.2 ⟨_, hstep, rfl⟩⟩
  · rw [content?_put, if_pos rfl]
  · rw [content?_put, if_neg hne]

end ContractBlocks.Directory
