import ContractBlocks.Proofs.Json.Reordered

namespace ContractBlocks.Json

/-- The value that stands one step inside a value. -/
def child? : Json → Step → Option Json
  | .object entries, .key name => entries.lookup name
  | .list items, .index place => items[place]?
  | _, _ => none

/-- The value that stands at a path inside a value. -/
def at? (json : Json) (path : Path) : Option Json :=
  path.foldlM child? json

theorem at?_cons (json : Json) (step : Step) (path : Path) :
    json.at? (step :: path) = (json.child? step).bind fun inner => inner.at? path := by
  rw [at?, List.foldlM_cons]
  rfl

theorem size_lt_sizeItems {items : List Json} {item : Json} (h : item ∈ items) : item.size < sizeItems items := by
  induction items with
  | nil => cases h
  | cons first items ih =>
    rw [sizeItems]
    rcases List.mem_cons.1 h with rfl | hrest
    · omega
    · have hlt := ih hrest
      omega

theorem size_lt_of_child? {json inner : Json} {step : Step} (hchild : json.child? step = some inner) :
    inner.size < json.size := by
  unfold child? at hchild
  split at hchild
  · exact Nat.lt_succ_of_le (size_le_sizeEntries hchild)
  · exact Nat.lt_succ_of_lt (size_lt_sizeItems (List.mem_of_getElem? hchild))
  · cases hchild

/-- What holds of a value when it holds of all that stands one step inside it holds of every value. -/
theorem induction_inside {motive : Json → Prop}
    (step : ∀ json, (∀ step inner, json.child? step = some inner → motive inner) → motive json) (json : Json) :
    motive json :=
  step json fun _ inner _ => induction_inside step inner
termination_by json.size
decreasing_by exact size_lt_of_child? ‹_›

end ContractBlocks.Json
