import ContractBlocks.Source

namespace ContractBlocks

/-- A block in a table, with all that it refers to. -/
structure TableEntry where
  id : NodeId
  kind : Kind
  slots : List (String × NodeId)
  fields : List (String × FieldValue)
  next : Option NodeId

/-- Blocks that are simply listed, and the ids that count as top-level. Of two entries with one id,
    or two values with one name, the later counts. -/
structure BlockTable where
  topLevel : List NodeId
  entries : List TableEntry

namespace BlockTable

/-- The value that was listed last under a name. -/
def last? {α : Type} (name : String) (values : List (String × α)) : Option α :=
  values.reverse.lookup name

/-- The entry that was listed last under an id. -/
def entry? (table : BlockTable) (id : NodeId) : Option TableEntry :=
  table.entries.reverse.find? fun entry => entry.id = id

theorem mem_ids_of_entry? (table : BlockTable) (id : NodeId) (hentry : (table.entry? id).isSome) :
    id ∈ table.entries.map TableEntry.id := by
  obtain ⟨entry, hfound⟩ := Option.isSome_iff_exists.1 hentry
  have hid := List.find?_some hfound
  have hmem := List.mem_of_find?_eq_some hfound
  exact List.mem_map.2 ⟨entry, List.mem_reverse.1 hmem, by simpa using hid⟩

/-- The blocks of a table. -/
def source (table : BlockTable) : Source where
  ids := table.entries.map TableEntry.id
  topLevel := table.topLevel
  kind id := (table.entry? id).map TableEntry.kind
  field id name := (table.entry? id).bind fun entry => last? name entry.fields
  slot id name := (table.entry? id).bind fun entry => last? name entry.slots
  next id := (table.entry? id).bind TableEntry.next
  editorId _ := none
  mem_ids_of_kind id hkind := table.mem_ids_of_entry? id (by simpa using hkind)
  mem_ids_of_next id hnext := table.mem_ids_of_entry? id (by
    cases hentry : table.entry? id <;> simp [hentry] at hnext ⊢)

end BlockTable

end ContractBlocks
