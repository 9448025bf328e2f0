import ContractBlocks.Command.Arguments
import ContractBlocks.Command.Run

namespace ContractBlocks

/-- What is printed where the arguments are not understood. -/
def usage : String :=
  "Usage: contract-blocks [-v] compile WORKSPACE [-o FILE]\n" ++
  "       contract-blocks [-v] check DOCUMENT\n" ++
  "       contract-blocks [-v] grammar\n"

/-- Whether the system reports the error with that number, which it may also give negated. -/
def isError (number code : UInt32) : Bool :=
  code = number || code = -number

/-- The fault that the system reports. -/
def FileFault.ofSystem : IO.Error → FileFault
  | .noFileOrDirectory .. => .missing
  | .inappropriateType _ code _ => if isError 21 code then .isDirectory else .notDirectory
  | .invalidArgument _ code details => if isError 36 code then .nameTooLong else .other details
  | error => .other (toString error)

/-- Runs an access to a file. -/
def attempt {α : Type} (access : IO α) : IO (Except FileFault α) := do
  try
    return .ok (← access)
  catch error =>
    return .error (.ofSystem error)

instance : MonadFiles IO where
  readText path := do
    match ← attempt (IO.FS.readBinFile path) with
    | .error fault => return .error fault
    | .ok bytes =>
      match String.fromUTF8? bytes with
      | some text => return .ok text
      | none => return .error .notText
  writeText path text := attempt (IO.FS.writeFile path text)

end ContractBlocks

open ContractBlocks in
def main (args : List String) : IO UInt32 := do
  match Command.parse? args with
  | none =>
    IO.eprint usage
    return ExitCode.invalid.toNat.toUInt32
  | some invocation =>
    let report ← invocation.command.run
    for line in report.logTexts invocation.verbose do
      IO.eprintln line
    IO.eprint report.messages
    IO.print report.output
    return report.exitCode.toNat.toUInt32
