namespace ContractBlocks

/-- The binary operations on values. -/
inductive Arithmetic
  | add
  | sub
  | mul
  | div
deriving DecidableEq, Repr

/-- The binary operations on observations. -/
inductive Connective
  | and
  | or
deriving DecidableEq, Repr

/-- The comparisons of two values. -/
inductive Comparison
  | ge
  | gt
  | lt
  | le
  | eq
deriving DecidableEq, Repr

end ContractBlocks
