import ContractBlocks.Json.Number

namespace ContractBlocks

/-- A JSON value. The entries of an object keep the order in which they are written. -/
inductive Json
  | null
  | bool (value : Bool)
  | number (value : Json.Number)
  | string (value : String)
  | list (items : List Json)
  | object (entries : List (String × Json))

namespace Json

/-- The JSON number that a signed 64-bit integer is. -/
def int64 (n : Int64) : Json :=
  .number (.ofInt64 n)

/-- The JSON number that a natural number is, taken as an unsigned word. -/
def nat (n : Nat) : Json :=
  .number (.ofUInt64 n.toUInt64)

end Json

/-- Puts a value under a name: in the place of the value that has the name already, else at the end. -/
def putNamed {α : Type} (name : String) (value : α) : List (String × α) → List (String × α)
  | [] => [(name, value)]
  | (other, old) :: rest =>
    if other = name then (name, value) :: rest else (other, old) :: putNamed name value rest

end ContractBlocks
