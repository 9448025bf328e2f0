import ContractBlocks.Command.Basic

namespace ContractBlocks.Command

/-- A piece of the arguments after the name of a command. -/
inductive Piece
  | verbose
  | output (path : String)
  | word (text : String)
deriving DecidableEq, Repr

/-- What an argument with dashes before it says. -/
inductive Letters
  | verbose
  /-- The output is to be named by the rest of the argument, if any, or else by the next one. More may
      be asked to be told in the same argument. -/
  | output (verbose : Bool) (attached : Option (List Char))
deriving DecidableEq, Repr

namespace Letters

/-- The same with more to be told. -/
def loud : Letters → Letters
  | verbose => verbose
  | output _ attached => output true attached

/-- What is said before the output is named. -/
def piecesBefore (verbose : Bool) : List Piece :=
  if verbose then [.verbose] else []

/-- Reads letters after one dash. All that follows the letter of the output is its path; an equals
    sign may stand before it. -/
def ofChars? (takesOutput : Bool) : List Char → Option Letters
  | [] => some verbose
  | 'v' :: letters => (ofChars? takesOutput letters).map loud
  | 'o' :: letters =>
    if takesOutput then
      match letters with
      | [] => some (output false none)
      | '=' :: path => some (output false (some path))
      | path => some (output false (some path))
    else none
  | _ => none

/-- Reads a name after two dashes. -/
def ofName? (takesOutput : Bool) (name : String) : Option Letters :=
  if name = "verbose" then some verbose
  else if takesOutput then
    if name = "output" then some (output false none)
    else if "output=".isPrefixOf name then
      some (output false (some (name.toList.drop "output=".length)))
    else none
  else none

end Letters

/-- What an argument that does not end the options is. -/
inductive Argument
  | option (letters : Letters)
  | word
  | unknown
deriving DecidableEq, Repr

/-- Tells options from words. A single dash is a word. -/
def Argument.ofText (takesOutput : Bool) (text : String) : Argument :=
  match text.toList with
  | '-' :: '-' :: name => ((Letters.ofName? takesOutput (String.ofList name)).map option).getD unknown
  | '-' :: c :: letters => ((Letters.ofChars? takesOutput (c :: letters)).map option).getD unknown
  | _ => word

/-- The pieces of the arguments after the name of a command. After two dashes all are words. -/
def pieces? (takesOutput : Bool) : List String → Option (List Piece)
  | [] => some []
  | text :: rest =>
    if text = "--" then some (rest.map .word)
    else
      match Argument.ofText takesOutput text, rest with
      | .option .verbose, rest => (pieces? takesOutput rest).map fun ps => .verbose :: ps
      | .option (.output verbose (some path)), rest =>
        (pieces? takesOutput rest).map fun ps =>
          Letters.piecesBefore verbose ++ .output (String.ofList path) :: ps
      | .option (.output verbose none), path :: rest =>
        if Argument.ofText takesOutput path = .word then
          (pieces? takesOutput rest).map fun ps => Letters.piecesBefore verbose ++ .output path :: ps
        else none
      | .word, rest => (pieces? takesOutput rest).map fun ps => .word text :: ps
      | _, _ => none

/-- The paths among pieces that name an output. -/
def outputs (pieces : List Piece) : List String :=
  pieces.filterMap fun
    | .output path => some path
    | _ => none

/-- The words among pieces. -/
def words (pieces : List Piece) : List String :=
  pieces.filterMap fun
    | .word text => some text
    | _ => none

/-- The command of a name with its pieces. A path is never empty. -/
def ofPieces? (name : String) (pieces : List Piece) : Option Command :=
  if "" ∈ words pieces ∨ "" ∈ outputs pieces then none
  else
    match name, words pieces, outputs pieces with
    | "compile", [workspace], [] => some (.compile workspace none)
    | "compile", [workspace], [output] => some (.compile workspace (some output))
    | "check", [document], _ => some (.check document)
    | "grammar", [], _ => some .grammar
    | _, _, _ => none

/-- What the arguments ask for. Before the name of the command only `-v` may stand. -/
def parse? : List String → Option Invocation
  | [] => none
  | text :: rest =>
    match Argument.ofText false text with
    | .option _ => (parse? rest).map fun invocation => { invocation with verbose := true }
    | .word => do
      let pieces ← pieces? (text = "compile") rest
      let command ← ofPieces? text pieces
      return ⟨.verbose ∈ pieces, command⟩
    | .unknown => none

end ContractBlocks.Command
