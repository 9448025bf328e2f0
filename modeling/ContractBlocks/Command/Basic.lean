namespace ContractBlocks

/-- What the program is asked to do. -/
inductive Command
  /-- Compiles a workspace and writes the document, to a file if one is named. -/
  | compile (workspace : String) (output : Option String)
  /-- Says whether a document is well formed. -/
  | check (document : String)
  /-- Prints the grammar of blocks. -/
  | grammar
deriving DecidableEq, Repr

/-- A command and how much is told on the way. -/
structure Invocation where
  verbose : Bool
  command : Command
deriving DecidableEq, Repr

/-- How the program ends. -/
inductive ExitCode
  | success
  /-- The blocks make up no contract. -/
  | violation
  /-- The arguments, the workspace or the document cannot be understood. -/
  | invalid
  /-- A file cannot be read or written. -/
  | inaccessible
deriving DecidableEq, Repr

namespace ExitCode

def toNat : ExitCode → Nat
  | success => 0
  | violation => 1
  | invalid => 2
  | inaccessible => 3

end ExitCode

end ContractBlocks
