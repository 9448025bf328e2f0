import ContractBlocks.Graph.Load
import ContractBlocks.Proofs.Contract.Documents
import ContractBlocks.Proofs.Grammar
import ContractBlocks.Proofs.Graph.Saved
import ContractBlocks.Proofs.Json.Outlined

namespace ContractBlocks

open Json (Plain)
open Json.Outline Outcome

/-- Whether a value is anything but a floating-point number. -/
def FieldValue.isExact : FieldValue → Bool
  | .number (.float _) => false
  | _ => true

/-- All numbers in the fields of a block are integers. -/
def Block.Exact (block : Block) : Prop :=
  ∀ entry ∈ block.fields, entry.2.isExact

instance (block : Block) : Decidable block.Exact :=
  inferInstanceAs (Decidable (∀ entry ∈ block.fields, entry.2.isExact))

namespace FieldValue

variable {value : FieldValue} (hexact : value.isExact)

include hexact

theorem plain_toJson : value.toJson.Plain := by
  cases value with
  | number n =>
    cases n with
    | whole z fits => exact .whole z fits
    | float x => cases hexact
  | text s => exact .string s

theorem reads_toJson : Reads FieldValue.read value.toJson value := by
  intro outline houtline
  cases value with
  | number n =>
    cases houtline with
    | number hvalue =>
      simp [FieldValue.read, readJson, readNumber, hvalue]
  | text s =>
    cases houtline
    rfl

end FieldValue

namespace SavedGraph

theorem reads_index {n : Nat} (hn : n < 0x100000000) : Reads readIndex (.nat n) n := by
  intro outline houtline
  cases houtline with
  | @number m _ hvalue =>
    have hword : n.toUInt64.toNat = n := UInt64.toNat_ofNat_of_lt (Nat.lt_trans hn (by decide))
    have hnumber : readNumber m = .ok (.ofUInt64 n.toUInt64) := by rw [readNumber, hvalue]
    rw [readIndex, hnumber, ok_bind, Json.Number.ofUInt64]
    dsimp only
    rw [hword, if_pos (by omega), Int.toNat_natCast]

theorem reads_kind (kind : Kind) : Reads readKind (.string kind.tag) kind :=
  (reads_string _ _).bind (by simp [Kind.ofTag?_tag])

section Blocks

variable {block : Block} (hexact : block.Exact) (hfields : (block.fields.map Prod.fst).Nodup)

include hexact hfields

theorem plain_block : (blockJson block).Plain := by
  have hvalues : Plain (.object (block.fields.map fun field => (field.1, field.2.toJson))) := by
    refine .object (by rwa [List.map_map]) fun entry hentry => ?_
    obtain ⟨field, hfield, rfl⟩ := List.mem_map.1 hentry
    exact FieldValue.plain_toJson (hexact field hfield)
  cases hid : block.editorId with
  | none =>
    rw [blockJson, hid]
    exact .object (by simp) (by simp [Plain.string, hvalues])
  | some id =>
    rw [blockJson, hid]
    exact .object (by simp) (by simp [Plain.string, hvalues])

theorem reads_block : Reads readBlock (blockJson block) block := by
  obtain ⟨kind, editorId, fields⟩ := block
  have hvalues : Reads (readMap FieldValue.read) (.object (fields.map fun field => (field.1, field.2.toJson)))
      fields :=
    reads_map hfields fun entry hentry => FieldValue.reads_toJson (hexact entry hentry)
  refine Reads.bind (a := ⟨some kind, fields, editorId⟩) (reads_record ?_) rfl
  refine .cons rfl (by simp) ((reads_kind kind).bind rfl) (.cons rfl (by simp) (hvalues.bind rfl) ?_)
  cases editorId with
  | none => exact .nil
  | some id =>
    have hid : Reads (readOptional (readString "a string")) (.string id) (some id) :=
      reads_optional (by simp) (reads_string _ id)
    exact .cons rfl (by simp) (hid.bind rfl) .nil

end Blocks

section Links

theorem plain_label (label : Label) : (labelJson label).Plain := by
  cases label with
  | next => exact .string _
  | slot name => exact .object (by simp) (by simp [Plain.string, Plain.object])

theorem reads_label (label : Label) : Reads readLabel (labelJson label) label := by
  cases label with
  | next => exact reads_variant_name (v := false) rfl rfl
  | slot name =>
    have hname : Reads (fun outline => readSlot (some outline)) (.object [("name", .string name)]) (.slot name) := by
      refine Reads.bind (a := some name) (reads_record ?_) rfl
      exact .cons rfl (by simp) ((reads_string _ name).bind rfl) .nil
    exact reads_variant_content (v := true) rfl hname

variable {entry : Option (NodeId × NodeId × Label)}

theorem plain_link : (linkJson entry).Plain := by
  cases entry with
  | none => exact .null
  | some link => exact .list (by simp [Json.plain_nat, plain_label])

theorem reads_link (hends : ∀ source target label, entry = some (source, target, label) →
      source < 0x100000000 ∧ target < 0x100000000) :
    Reads (readOptional readLink) (linkJson entry) entry := by
  cases entry with
  | none => exact reads_null _
  | some link =>
    obtain ⟨source, target, label⟩ := link
    obtain ⟨hsource, htarget⟩ := hends source target label rfl
    have hpositions : ReadsPositions linkShape readLinkField {} linkShape.fields
        [.nat source, .nat target, labelJson label] ⟨some source, some target, some label⟩ :=
      .cons ((reads_index hsource).bind rfl) (.cons ((reads_index htarget).bind rfl)
        (.cons ((reads_label label).bind rfl) .nil))
    refine reads_optional (by simp [linkJson]) fun outline houtline => ?_
    cases houtline with
    | list hshown =>
      rw [readLink, hpositions _ hshown]
      rfl

end Links

/-- A saved form that can be written and read: its numbers are integers, its ids fit their width, and no
    block has a field twice. -/
structure Legible (saved : SavedGraph) : Prop where
  exact : ∀ block ∈ saved.blocks, block.Exact
  fields : ∀ block ∈ saved.blocks, (block.fields.map Prod.fst).Nodup
  holes : ∀ hole ∈ saved.holes, hole < 0x100000000
  ends : ∀ source target label, some (source, target, label) ∈ saved.links →
    source < 0x100000000 ∧ target < 0x100000000

namespace Legible

variable {saved : SavedGraph} (hlegible : saved.Legible)

include hlegible

theorem plain_toJson : saved.toJson.Plain := by
  have hblocks : Plain (.list (saved.blocks.map blockJson)) := by
    refine .list fun json hjson => ?_
    obtain ⟨block, hblock, rfl⟩ := List.mem_map.1 hjson
    exact plain_block (hlegible.exact block hblock) (hlegible.fields block hblock)
  have hholes : Plain (.list (saved.holes.map .nat)) := .list (by simp [Json.plain_nat])
  have hlinks : Plain (.list (saved.links.map linkJson)) := .list (by simp [plain_link])
  have hgraph : Plain (.object [("nodes", .list (saved.blocks.map blockJson)),
      ("node_holes", .list (saved.holes.map .nat)), ("edge_property", .string "directed"),
      ("edges", .list (saved.links.map linkJson))]) :=
    .object (by simp) (by simp [hblocks, hholes, hlinks, Plain.string])
  exact .object (by simp) (by simp [hgraph])

/-- The text of a saved form is read as the graph that it stands for. -/
theorem readText_eq {g : BlockGraph} (hgraph : saved.toGraph? = some g) {layout : Json.Layout}
    (hlayout : layout.IsBlank) : readText (String.ofList (Json.writeOnto layout 0 saved.toJson [])) = .ok g := by
  have hblocks : Reads (readList readBlock) (.list (saved.blocks.map blockJson)) saved.blocks :=
    reads_list fun block hblock => reads_block (hlegible.exact block hblock) (hlegible.fields block hblock)
  have hholes : Reads (readList readIndex) (.list (saved.holes.map .nat)) saved.holes :=
    reads_list fun hole hhole => reads_index (hlegible.holes hole hhole)
  have hdirected : Reads readDirected (.string "directed") true := reads_variant_name (v := true) rfl rfl
  have hlinks : Reads (readList (readOptional readLink)) (.list (saved.links.map linkJson)) saved.links := by
    refine reads_list fun entry hentry => reads_link ?_
    rintro source target label rfl
    exact hlegible.ends source target label hentry
  have hread : Reads readGraph (.object [("nodes", .list (saved.blocks.map blockJson)),
      ("node_holes", .list (saved.holes.map .nat)), ("edge_property", .string "directed"),
      ("edges", .list (saved.links.map linkJson))]) g := by
    refine Reads.bind (a := ⟨some saved.blocks, saved.holes, some true, some saved.links⟩) (reads_record ?_) ?_
    · exact .cons rfl (by simp) (hblocks.bind rfl) (.cons rfl (by simp) (hholes.bind rfl)
        (.cons rfl (by simp) (hdirected.bind rfl) (.cons rfl (by simp) (hlinks.bind rfl) .nil)))
    · simp [required, hgraph]
  refine readText_of_reads hlayout hlegible.plain_toJson ?_
  refine Reads.bind (a := some g) (reads_record ?_) rfl
  exact .cons rfl (by simp) (hread.bind rfl) .nil

end Legible

end SavedGraph

namespace BlockGraph

open SavedGraph

variable {g : BlockGraph}

theorem exists_id_of_mem_ofGraph {block : Block} (hblock : block ∈ (ofGraph g).blocks) :
    ∃ id, g.block? id = some block := by
  obtain ⟨_, hentry, rfl⟩ := List.mem_filterMap.1 hblock
  obtain ⟨id, hid⟩ := List.mem_iff_getElem?.1 hentry
  refine ⟨id, ?_⟩
  rw [block?, ← getElem?_trimEnd_join, hid]
  rfl

theorem legible_ofGraph (hsound : g.Sound) (hindexed : g.Indexed)
    (hexact : ∀ id ∈ g.ids, ∀ block ∈ g.block? id, block.Exact) (hids : ∀ id ∈ g.ids, id < 0x100000000) :
    (ofGraph g).Legible := by
  have hlive : ∀ id, (g.block? id).isSome → id < 0x100000000 := fun id hsome => hids id ((g.mem_ids_iff id).2 hsome)
  refine ⟨fun block hblock => ?_, fun block hblock => ?_, fun hole hhole => ?_, fun source target label hentry => ?_⟩
  · obtain ⟨id, hid⟩ := exists_id_of_mem_ofGraph hblock
    exact hexact id ((g.mem_ids_iff id).2 (by simp [hid])) block hid
  · obtain ⟨id, hid⟩ := exists_id_of_mem_ofGraph hblock
    exact (hsound.fields id block hid).1
  · -- Holes lie below the last block.
    have hlength := (List.getElem?_eq_some_iff.1 (mem_gaps.1 hhole)).1
    obtain ⟨last, hle, hlast⟩ := exists_ge_of_lt_length_trimEnd hlength
    exact Nat.lt_of_le_of_lt hle (hlive last hlast)
  · obtain ⟨index, hindex⟩ := List.mem_iff_getElem?.1 hentry
    have hjoin := getElem?_linkTable_join hindexed index
    rw [show (linkTable g)[index]? = _ from hindex] at hjoin
    obtain ⟨link, hfind, hends⟩ := Option.map_eq_some_iff.1 hjoin.symm
    cases hends
    have hmem := List.mem_of_find?_eq_some hfind
    exact ⟨hlive _ (hsound.source_live hmem), hlive _ (hsound.targets link hmem)⟩

/-- Whatever edits were made, a graph is saved, loaded and saved again without a loss: ids, blocks, links
    and what they compile to stay the same, and so does the text. Ids are of 32 bits. -/
theorem Reached.saved_and_loaded (hreached : g.Reached)
    (hexact : ∀ id ∈ g.ids, ∀ block ∈ g.block? id, block.Exact) (hids : ∀ id ∈ g.ids, id < 0x100000000) :
    ∃ loaded, SavedGraph.readText (ofGraph g).toJson.compact = .ok loaded ∧
      SavedGraph.readText (ofGraph g).toJson.pretty = .ok loaded ∧
      loaded.ids = g.ids ∧ (∀ id, loaded.block? id = g.block? id) ∧
      (∀ id slot, loaded.child? id slot = g.child? id slot) ∧ (∀ id, loaded.next? id = g.next? id) ∧
      loaded.blockCount = g.blockCount ∧ loaded.linkCount = g.linkCount ∧ loaded.topLevel = g.topLevel ∧
      loaded.source.compile = g.source.compile ∧
      (ofGraph loaded).toJson.compact = (ofGraph g).toJson.compact := by
  have hsound := hreached.sound
  have hindexed := hreached.indexed
  have hlegible := legible_ofGraph hsound hindexed hexact hids
  have hgraph := toGraph?_ofGraph hsound hindexed
  refine ⟨g.reloaded, hlegible.readText_eq hgraph Json.Layout.isBlank_compact,
    hlegible.readText_eq hgraph Json.Layout.isBlank_pretty, g.ids_reloaded, g.block?_reloaded,
    fun id slot => target?_reloaded hsound hindexed id _, fun id => target?_reloaded hsound hindexed id _,
    g.blockCount_reloaded, (links_reloaded_perm hindexed).length_eq, topLevel_reloaded hindexed, ?_, ?_⟩
  · rw [source_reloaded hsound hindexed]
  · rw [ofGraph_reloaded hindexed]

/-- Ids are freed and taken again, and in the end an id is free and so is the index of a link. -/
theorem Reached.saved_and_loaded_with_holes :
    let g := (BlockGraph.empty.run [.add .root none, .add (.contract .when) (some "w"), .add (.contract .close) none,
      .add (.contract .close) none, .connect 0 "CONTRACT" 1, .connect 1 "TIMEOUT_CONT" 2, .remove 2,
      .setField 1 "TIMEOUT" (.ofInt64 (-5)), .connect 1 "TIMEOUT_CONT" 3, .add .case none, .remove 0,
      .add .case none, .chain [2, 0], .remove 2]).2
    g.ids = [0, 1, 3] ∧ g.linkCount = 1 ∧
      ∃ loaded, SavedGraph.readText (ofGraph g).toJson.compact = .ok loaded ∧ loaded.ids = g.ids ∧
        (∀ id, loaded.block? id = g.block? id) ∧ loaded.topLevel = g.topLevel ∧
        (ofGraph loaded).toJson.compact = (ofGraph g).toJson.compact := by
  intro g
  have hreached : g.Reached := Reached.empty.run _
  obtain ⟨loaded, hload, -, hids, hblocks, -, -, -, -, htop, -, htext⟩ :=
    Reached.saved_and_loaded hreached (by decide +kernel) (by decide +kernel)
  exact ⟨by decide +kernel, by decide +kernel, loaded, hload, hids, hblocks, htop, htext⟩

end BlockGraph

end ContractBlocks
