import ContractBlocks.Json.Print

namespace ContractBlocks.Json

/-- A step from a value to one inside it. -/
inductive Step
  | key (name : String)
  | index (place : Nat)
deriving DecidableEq, Repr

/-- The way from a value to one inside it, from the outside inwards. -/
abbrev Path := List Step

namespace Path

/-- A step as messages write it. -/
def stepText : Step → String
  | .key name => "." ++ name
  | .index place => "[" ++ Decimal.natText place ++ "]"

/-- A path as messages write it, from the value at the outside. -/
def text (path : Path) : String :=
  "$" ++ String.join (path.map stepText)

end Path

/-- The keys of an object in ascending order. -/
def shape (entries : List (String × Json)) : List String :=
  (entries.map Prod.fst).mergeSort fun a b => decide (a ≤ b)

/-- What messages say of a value: the keys of an object, the length of a list, or the text. -/
def describe : Json → String
  | .object entries => "object with keys \x7b" ++ ", ".intercalate (shape entries) ++ "\x7d"
  | .list items => "list of " ++ Decimal.natText items.length
  | scalar => scalar.compact

mutual

/-- How much stands inside a value: nothing inside a scalar, more inside a value than inside any that it
    holds. -/
def size : Json → Nat
  | .list items => sizeItems items + 1
  | .object entries => sizeEntries entries + 1
  | _ => 0

def sizeItems : List Json → Nat
  | [] => 0
  | item :: items => size item + sizeItems items + 1

def sizeEntries : List (String × Json) → Nat
  | [] => 0
  | (_, value) :: entries => size value + sizeEntries entries + 1

end

theorem size_le_sizeEntries {entries : List (String × Json)} {key : String} {value : Json}
    (h : entries.lookup key = some value) : value.size ≤ sizeEntries entries := by
  induction entries with
  | nil => cases h
  | cons entry entries ih =>
    obtain ⟨other, first⟩ := entry
    rw [List.lookup_cons] at h
    split at h
    · cases h
      rw [sizeEntries]
      omega
    · have hle := ih h
      rw [sizeEntries]
      omega

/-- The scalar that is taken for the value of a key that an object does not have. -/
structure Fallback where
  value : Json
  scalar : value.size = 0

namespace Fallback

def null : Fallback :=
  ⟨.null, rfl⟩

/-- The value under a key of an object. -/
def get (fallback : Fallback) (entries : List (String × Json)) (key : String) : Json :=
  (entries.lookup key).getD fallback.value

theorem size_get_lt (fallback : Fallback) (entries : List (String × Json)) (key : String) :
    (fallback.get entries key).size < (Json.object entries).size := by
  rw [get, size]
  cases hlookup : entries.lookup key with
  | none =>
    rw [Option.getD_none, fallback.scalar]
    exact Nat.succ_pos _
  | some value => exact Nat.lt_succ_of_le (size_le_sizeEntries hlookup)

end Fallback

end ContractBlocks.Json
