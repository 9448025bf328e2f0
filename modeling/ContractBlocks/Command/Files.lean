namespace ContractBlocks

/-- Why a file cannot be read or written. -/
inductive FileFault
  | missing
  | isDirectory
  | notDirectory
  | nameTooLong
  | notText
  | other (text : String)
deriving DecidableEq, Repr

namespace FileFault

/-- The text of a fault. -/
def message : FileFault → String
  | missing => "No such file or directory (os error 2)"
  | isDirectory => "Is a directory (os error 21)"
  | notDirectory => "Not a directory (os error 20)"
  | nameTooLong => "File name too long (os error 36)"
  | notText => "stream did not contain valid UTF-8"
  | other text => text

end FileFault

/-- A place where files can be read and written by their paths. -/
class MonadFiles (m : Type → Type) where
  readText : String → m (Except FileFault String)
  writeText : String → String → m (Except FileFault Unit)

end ContractBlocks
