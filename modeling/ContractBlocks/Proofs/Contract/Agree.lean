import ContractBlocks.Contract.Reader
import ContractBlocks.Proofs.Contract.Heads

namespace ContractBlocks.Document

open Json (Fallback Path Reordered Step shape)

/-- A path that leads from a value to one inside it, and what is expected there. On the way are objects
    with the keys of some part of the category that is expected where they stand, and the lists that such
    objects hold. A number where a value is expected is expected to be an integer. -/
inductive Leads : Content → Json → Path → Expected → Json → Prop
  | here (content : Content) (json : Json) : Leads content json [] content.expected json
  | number (n : Json.Number) : Leads (.part .value) (.number n) [] .integer (.number n)
  | entry {category : Expected} {content : Content} {key : String} {json inner : Json} {path : Path}
      {expected : Expected} {found : Json} (hwrites : category.Writes json.head)
      (hcontent : category.content? json.head key = some content) (hchild : json.child? (.key key) = some inner)
      (hinner : Leads content inner path expected found) :
    Leads (.part category) json (.key key :: path) expected found
  | item {category : Expected} {place : Nat} {json inner : Json} {path : Path} {expected : Expected}
      {found : Json} (hchild : json.child? (.index place) = some inner)
      (hinner : Leads (.part category) inner path expected found) :
    Leads (.parts category) json (.index place :: path) expected found

theorem Leads.at?_eq_some {content : Content} {json found : Json} {path : Path} {expected : Expected}
    (h : Leads content json path expected found) : json.at? path = some found := by
  induction h with
  | here => rfl
  | number => rfl
  | entry _ _ hchild _ ih => rw [Json.at?_cons, hchild, Option.bind_some, ih]
  | item hchild _ ih => rw [Json.at?_cons, hchild, Option.bind_some, ih]

/-- What two readings of a value and of one that it is reordered to come to. Both give the same, and `P`
    holds of it. Or both stop at the same place, to which a path leads: what stands there in one value is
    reordered to what stands there in the other, and no part of the expected category has its head. -/
inductive Agree {α : Type} (content : Content) (path : Path) (a b : Json) (P : α → Prop) :
    Except Unrecognized α → Except Unrecognized α → Prop
  | ok {x : α} (h : P x) : Agree content path a b P (.ok x) (.ok x)
  | error {inner : Path} {expected : Expected} {found other : Json} (hleads : Leads content a inner expected found)
      (hother : b.at? inner = some other) (hreordered : Reordered found other)
      (hwrites : ¬expected.Writes found.head) :
    Agree content path a b P (.error ⟨expected, path ++ inner, found⟩) (.error ⟨expected, path ++ inner, other⟩)

namespace Agree

variable {α β : Type} {content outer : Content} {path : Path} {a b inner other : Json} {P : α → Prop}
  {Q : β → Prop} {x y : Except Unrecognized α}

theorem refuse {expected : Expected} (hleads : Leads content a [] expected a) (hab : Reordered a b)
    (h : ¬expected.Writes a.head) :
    Agree content path a b P (.error ⟨expected, path, a⟩) (.error ⟨expected, path, b⟩) := by
  have herror : Agree content path a b P _ _ := .error hleads rfl hab h
  rwa [List.append_nil] at herror

theorem fail (content : Content) (hab : Reordered a b) (h : ¬content.expected.Writes a.head) :
    Agree content path a b P (.error ⟨content.expected, path, a⟩) (.error ⟨content.expected, path, b⟩) :=
  .refuse (.here content a) hab h

theorem bind {f g : α → Except Unrecognized β} (hx : Agree content path a b P x y)
    (hf : ∀ v, P v → Agree content path a b Q (f v) (g v)) : Agree content path a b Q (x >>= f) (y >>= g) := by
  cases hx with
  | ok h => exact hf _ h
  | error hleads hother hreordered hwrites => exact .error hleads hother hreordered hwrites

theorem map {f : α → β} (hx : Agree content path a b P x y) (hf : ∀ v, P v → Q (f v)) :
    Agree content path a b Q (f <$> x) (f <$> y) :=
  hx.bind fun v hv => .ok (hf v hv)

theorem imp {P' : α → Prop} (hx : Agree content path a b P x y) (himp : ∀ v, P v → P' v) :
    Agree content path a b P' x y := by
  cases hx with
  | ok h => exact .ok (himp _ h)
  | error hleads hother hreordered hwrites => exact .error hleads hother hreordered hwrites

/-- Readings of what stands one step inside are readings of the value. -/
theorem inside {step : Step} (hother : b.child? step = some other)
    (hleads : ∀ {rest expected found}, Leads content inner rest expected found →
      Leads outer a (step :: rest) expected found)
    (hx : Agree content (path ++ [step]) inner other P x y) : Agree outer path a b P x y := by
  cases hx with
  | ok h => exact .ok h
  | @error rest expected found found' hrest hfound hreordered hwrites =>
    have hat : b.at? (step :: rest) = some found' := by rw [Json.at?_cons, hother, Option.bind_some, hfound]
    have hstep : Agree outer path a b P _ _ := .error (hleads hrest) hat hreordered hwrites
    rwa [← List.singleton_append, ← List.append_assoc] at hstep

end Agree

/-- A reader of parts reads a value, whatever it takes for absent keys, as it reads what the value is
    reordered to: as the part of which the value is the document, or with a fault inside. -/
def Reads {α : Type} (content : Content) (write : α → Json) (read : Fallback → Path → Json → Except Unrecognized α)
    (a : Json) : Prop :=
  ∀ b : Json, Reordered a b → ∀ (fallback other : Fallback) (path : Path),
    Agree content path a b (fun x => Reordered a (write x)) (read fallback path a) (read other path b)

/-- The value under a key is reordered to the document. -/
def Under (entries : List (String × Json)) (key : String) (document : Json) : Prop :=
  ∃ value, entries.lookup key = some value ∧ Reordered value document

/-- An object with the keys of a layout is reordered to another. -/
structure Opened (category : Expected) (layout : List (String × Content)) (entries others : List (String × Json)) :
    Prop where
  layout_eq : category.layout? (shape entries) = some layout
  reordered : Reordered (.object entries) (.object others)

namespace Opened

variable {α : Type} {category : Expected} {layout : List (String × Content)} {entries others : List (String × Json)}
  {keys : List String} {write : α → Json} {read : Fallback → Path → Json → Except Unrecognized α}

theorem of_shape (hshape : shape entries = keys) (hreordered : Reordered (.object entries) (.object others))
    (hlayout : category.layout? keys = some layout) : Opened category layout entries others :=
  ⟨hshape ▸ hlayout, hreordered⟩

theorem nodup (hopened : Opened category layout entries others) : (entries.map Prod.fst).Nodup :=
  Json.nodup_keys_iff.2 (Expected.nodup_of_layout? hopened.layout_eq)

/-- Each key of the layout is there in both objects, so that its value is read. -/
theorem entry (hopened : Opened category layout entries others) {key : String} {content : Content}
    (hcontent : layout.lookup key = some content)
    (hread : ∀ value, entries.lookup key = some value → Reads content write read value) {fallback other : Fallback}
    {path : Path} :
    Agree (.part category) path (.object entries) (.object others) (fun x => Under entries key (write x))
      (read fallback (path ++ [.key key]) (fallback.get entries key))
      (read other (path ++ [.key key]) (other.get others key)) := by
  obtain ⟨others', hothers, -, hlookup⟩ := hopened.reordered.exists_entries
  cases hothers
  obtain ⟨before, after, hlayout, -⟩ := List.lookup_eq_some_iff.1 hcontent
  have hkey : key ∈ shape entries := by
    rw [← Expected.map_fst_of_layout? hopened.layout_eq, hlayout]
    simp
  obtain ⟨value, hvalue⟩ := ContractBlocks.exists_lookup_of_mem ((Json.shape_perm entries).mem_iff.1 hkey)
  obtain ⟨value', hvalue', hreordered⟩ := hlookup hopened.nodup key value hvalue
  rw [Fallback.get, Fallback.get, hvalue, hvalue', Option.getD_some, Option.getD_some]
  have hchild : (Json.object entries).child? (.key key) = some value := hvalue
  have hchild' : (Json.object others).child? (.key key) = some value' := hvalue'
  refine .inside hchild' (fun hleads => ?_)
    ((hread value hvalue value' hreordered fallback other _).imp fun x hx => ⟨value, hvalue, hx⟩)
  refine .entry (Expected.writes_of_layout? hopened.layout_eq) ?_ hchild hleads
  rw [Json.head, Expected.content?, hopened.layout_eq, Option.bind_some, hcontent]

/-- The object is a document if that is so of what stands under its keys. -/
theorem document (hopened : Opened category layout entries others) {documents : List (String × Json)}
    (hshape : shape entries = shape documents) (h : ∀ entry ∈ documents, Under entries entry.1 entry.2) :
    Reordered (.object entries) (.object documents) := by
  have hperm := (Json.shape_perm entries).symm.trans (hshape ▸ Json.shape_perm documents)
  exact .object_of_lookup hperm hopened.nodup h

end Opened

namespace Forms

variable {κ : Type} {forms : Forms κ} {category : Expected} {keys : List String} {kind : κ}
  {entries : List (String × Json)}

theorem mem_of_find?_eq_some (h : forms.find? keys = some kind) : (kind, keys) ∈ forms := by
  obtain ⟨form, hform, rfl⟩ := Option.map_eq_some_iff.1 h
  have hkeys : form.2 = keys := by simpa using List.find?_some hform
  exact hkeys ▸ List.mem_of_find?_eq_some hform

/-- An object of no form is no document of the category. -/
theorem not_writes_of_find?_eq_none (hforms : forms.map Prod.snd = category.layouts.map fun layout => layout.map Prod.fst)
    (h : forms.find? (shape entries) = none) : ¬category.Writes (Json.object entries).head := by
  intro hwrites
  have hmem : shape entries ∈ forms.map Prod.snd := hforms ▸ Expected.lists_of_writes hwrites
  obtain ⟨form, hform, hkeys⟩ := List.mem_map.1 hmem
  have hnone := List.find?_eq_none.1 (Option.map_eq_none_iff.1 h) form hform
  exact hnone (decide_eq_true hkeys)

end Forms

theorem mem_of_observationForm? {keys : List String} {kind : ObservationKind} (h : observationForm? keys = some kind) :
    (kind, keys) ∈ observationForms ∨ ∃ op : Comparison, kind = .comparison op ∧ keys = [op.key, "value"] := by
  unfold observationForm? at h
  split at h
  · next hfind =>
    cases h
    exact .inl (Forms.mem_of_find?_eq_some hfind)
  · next key _ =>
    obtain ⟨op, hop, rfl⟩ := Option.map_eq_some_iff.1 h
    have hkey : op.key = key := by simpa using List.find?_some hop
    exact .inr ⟨op, rfl, by rw [hkey]⟩
  · cases h

theorem observationForm?_ne_none {keys : List String}
    (h : keys ∈ (Expected.layouts .observation).map fun layout => layout.map Prod.fst) : observationForm? keys ≠ none := by
  simp only [Expected.layouts, List.map_cons, List.map_nil, List.mem_cons, List.not_mem_nil, or_false] at h
  rcases h with rfl | rfl | rfl | rfl | rfl | rfl | rfl | rfl | rfl <;> decide

section

variable {α : Type} {category : Expected} {write : α → Json} {read : Fallback → Path → Json → Except Unrecognized α}
  {a : Json}

/-- To read a part it is enough to read the scalars and the objects among values, where no list is read. -/
theorem reads_of_cases (hlist : category ≠ .list)
    (hrefuse : ∀ fallback path items, read fallback path (.list items) = .error ⟨category, path, .list items⟩)
    (hscalar : a.size = 0 → ∀ fallback other path,
      Agree (.part category) path a a (fun x => Reordered a (write x)) (read fallback path a) (read other path a))
    (hobject : ∀ entries others, a = .object entries → Reordered (.object entries) (.object others) →
      ∀ fallback other path, Agree (.part category) path (.object entries) (.object others)
        (fun x => Reordered (.object entries) (write x)) (read fallback path (.object entries))
        (read other path (.object others))) :
    Reads (.part category) write read a := by
  intro b hab fallback other path
  cases a with
  | object entries =>
    obtain ⟨others, rfl, -⟩ := hab.exists_entries
    exact hobject entries others rfl hab fallback other path
  | list items =>
    obtain ⟨others, rfl, -⟩ := hab.exists_items
    rw [hrefuse, hrefuse]
    exact .fail (.part category) hab fun hwrites => hlist (Expected.lists_of_writes hwrites)
  | _ =>
    cases hab.eq_of_scalar rfl
    exact hscalar rfl fallback other path

/-- Parts that are written as objects only. -/
theorem reads_of_object (hlist : category ≠ .list) (hwrites : ∀ scalar, ¬category.WritesScalar scalar)
    (hrefuse : ∀ fallback path json, (∀ entries, json ≠ .object entries) →
      read fallback path json = .error ⟨category, path, json⟩)
    (hobject : ∀ entries others, Reordered (.object entries) (.object others) →
      ∀ fallback other path, Agree (.part category) path (.object entries) (.object others)
        (fun x => Reordered (.object entries) (write x)) (read fallback path (.object entries))
        (read other path (.object others))) (a : Json) :
    Reads (.part category) write read a := by
  refine reads_of_cases hlist (fun fallback path items => hrefuse fallback path _ nofun)
    (fun hscalar fallback other path => ?_) fun entries others _ => hobject entries others
  have hother : ∀ entries, a ≠ .object entries := by
    rintro entries rfl
    cases hscalar
  rw [hrefuse fallback path a hother, hrefuse other path a hother]
  exact .fail (.part category) (.refl a) (Expected.not_writes_of_ne_object hwrites hlist hother)

end

end ContractBlocks.Document
