import ContractBlocks.Command.Basic
import ContractBlocks.Command.Files
import ContractBlocks.Command.Log
import ContractBlocks.Contract.Reader
import ContractBlocks.Workspace.Import

namespace ContractBlocks

/-- What a command tells. -/
structure Report where
  exitCode : ExitCode
  output : String := ""
  messages : String := ""
  log : List LogLine := []

namespace Report

/-- A command that cannot read a file. -/
def unreadable (path : String) (fault : FileFault) : Report where
  exitCode := .inaccessible
  messages := "Error: failed to read '" ++ path ++ "': " ++ fault.message ++ "\n"

/-- A workspace from which no graph can be made. -/
def badWorkspace (path : String) (fault : Workspace.ImportFault) : Report where
  exitCode := .invalid
  messages := "Error: invalid workspace '" ++ path ++ "': " ++ fault.message ++ "\n"

/-- Blocks that make up no contract. The violation is told in words and as JSON. -/
def violation (S : Source) (violation : Violation) : Report where
  exitCode := .violation
  output := violation.toJson.pretty ++ "\n"
  messages := "Compilation error: " ++ violation.message ++ "\n" ++
    match violation.node?.bind S.editorId with
    | some id => "  at editor block '" ++ id ++ "'\n"
    | none => ""

/-- A document that cannot be written. -/
def unwritable (path : String) (fault : FileFault) : Report where
  exitCode := .inaccessible
  messages := "Error: failed to write '" ++ path ++ "': " ++ fault.message ++ "\n"

/-- A document that was checked. -/
def checked (path : String) : Except Document.ReadFault Contract → Report
  | .ok contract =>
    { exitCode := .success
      output := path ++ ": ok (" ++ Decimal.natText contract.size ++ " contract nodes)\n" }
  | .error fault =>
    { exitCode := .invalid
      messages := "Error: " ++ path ++ ": " ++ fault.message ++ "\n" }

/-- The report after lines that were told before it. -/
def after (report : Report) (lines : List LogLine) : Report :=
  { report with log := lines ++ report.log }

/-- The lines to tell: all, or warnings only. -/
def logTexts (report : Report) (verbose : Bool) : List String :=
  (report.log.filter fun line => verbose || line.isWarning).map LogLine.text

end Report

namespace Command

variable {m : Type → Type} [Monad m] [MonadFiles m]

/-- Hands over a document: prints it, or writes it to the file that is named. -/
def deliver (text : String) : Option String → m Report
  | none => return { exitCode := .success, output := text ++ "\n" }
  | some path => do
    match ← MonadFiles.writeText path text with
    | .ok () => return { exitCode := .success, log := [.wrote path] }
    | .error fault => return .unwritable path fault

/-- Compiles a graph and hands over the document. -/
def compileGraph (g : BlockGraph) (output : Option String) : m Report := do
  let report ← match g.source.compile with
    | .ok contract => deliver contract.pretty output
    | .error violation => pure (.violation g.source violation)
  return report.after (.loaded g.blockCount g.linkCount :: g.source.compileLog)

/-- Compiles the workspace in a file. -/
def runCompile (workspace : String) (output : Option String) : m Report := do
  match ← MonadFiles.readText workspace with
  | .error fault => return .unreadable workspace fault
  | .ok text =>
    match Workspace.importText text with
    | .error fault => return .badWorkspace workspace fault
    | .ok g => compileGraph g output

/-- Checks the document in a file. -/
def runCheck (document : String) : m Report := do
  match ← MonadFiles.readText document with
  | .error fault => return .unreadable document fault
  | .ok text => return .checked document (Document.readText text)

/-- Runs a command. -/
def run : Command → m Report
  | .compile workspace output => runCompile workspace output
  | .check document => runCheck document
  | .grammar => return { exitCode := .success, output := Grammar.json.pretty ++ "\n" }

end Command

end ContractBlocks
