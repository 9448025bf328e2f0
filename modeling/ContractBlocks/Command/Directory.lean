import ContractBlocks.Command.Files

namespace ContractBlocks

/-- Where names start: at a directory, at one that holds it some levels up, or at the root. -/
inductive Base
  | above (levels : Nat)
  | root
deriving DecidableEq, Repr

/-- A place among the files: the names that lead to it from a base. -/
structure Location where
  base : Base
  names : List String
deriving DecidableEq, Repr

namespace Location

/-- The place of what has a name in a directory. -/
def child (location : Location) (name : String) : Location :=
  ⟨location.base, location.names ++ [name]⟩

/-- The directory that holds a place. The root holds itself. -/
def parent (location : Location) : Location :=
  if location.names.isEmpty then
    match location.base with
    | .above levels => ⟨.above (levels + 1), []⟩
    | .root => location
  else ⟨location.base, location.names.dropLast⟩

/-- Whether one place is another or lies below it, from the same base. -/
def isBelow (inner outer : Location) : Bool :=
  inner.base = outer.base && outer.names.isPrefixOf inner.names

end Location

/-- The files that can be reached from a directory, by their places. Bases are directories, and so is
    what has a file below it. -/
structure Directory where
  files : List (Location × ByteArray)

/-- A path: where it starts, the names on the way, and whether it ends in a slash. -/
structure PathName where
  absolute : Bool
  names : List String
  closed : Bool
deriving DecidableEq, Repr

namespace PathName

/-- The names between the slashes of a path. -/
def splitNames : List Char → List (List Char)
  | [] => [[]]
  | c :: cs =>
    if c = '/' then [] :: splitNames cs
    else
      match splitNames cs with
      | name :: names => (c :: name) :: names
      | [] => [[c]]

def ofText (text : String) : PathName :=
  let names := splitNames text.toList
  { absolute := names.head?.any List.isEmpty && 1 < names.length
    names := (names.filter fun name => !name.isEmpty).map String.ofList
    closed := names.getLast?.any List.isEmpty }

/-- The path that a text names. A text of more than 4095 bytes names none. -/
def ofText? (text : String) : Except FileFault PathName :=
  if text.utf8ByteSize ≤ 4095 then .ok (ofText text) else .error .nameTooLong

end PathName

namespace Directory

/-- What is at the end of a path. -/
inductive Place
  | directory (location : Location)
  | file (location : Location)
deriving DecidableEq, Repr

/-- The content of a file. -/
def content? (d : Directory) (location : Location) : Option ByteArray :=
  d.files.lookup location

/-- What is at a place below a base. -/
def place? (d : Directory) (location : Location) : Option Place :=
  if (d.content? location).isSome then some (.file location)
  else if d.files.any fun file => file.1.isBelow location then some (.directory location)
  else none

/-- What a directory has under a name, which is of at most 255 bytes. -/
def find? (d : Directory) (location : Location) (name : String) : Except FileFault (Option Place) :=
  if name.utf8ByteSize ≤ 255 then .ok (d.place? (location.child name)) else .error .nameTooLong

/-- Goes on by one name. -/
def step (d : Directory) (place : Place) (name : String) : Except FileFault Place :=
  match place with
  | .file _ => .error .notDirectory
  | .directory location =>
    if name = "." then .ok place
    else if name = ".." then .ok (.directory location.parent)
    else
      match d.find? location name with
      | .ok (some place) => .ok place
      | .ok none => .error .missing
      | .error fault => .error fault

/-- Where the names of a path lead. -/
def walk (d : Directory) (absolute : Bool) (names : List String) : Except FileFault Place :=
  names.foldlM d.step (.directory ⟨if absolute then .root else .above 0, []⟩)

/-- Reads a file as text. -/
def read (d : Directory) (text : String) : Except FileFault String := do
  let path ← PathName.ofText? text
  match ← d.walk path.absolute path.names with
  | .file location =>
    if path.closed then .error .notDirectory
    else
      match (d.content? location).bind String.fromUTF8? with
      | some content => .ok content
      | none => .error .notText
  | .directory _ => .error .isDirectory

/-- Puts a file in the place of any other that is there. -/
def put (d : Directory) (location : Location) (content : ByteArray) : Directory :=
  if (d.content? location).isSome then
    ⟨d.files.map fun file => if file.1 = location then (location, content) else file⟩
  else ⟨d.files ++ [(location, content)]⟩

/-- Writes a text to a file, which need not be there. Its directory must be. -/
def write (d : Directory) (text : String) (content : String) : Except FileFault Directory := do
  let path ← PathName.ofText? text
  match path.names.getLast? with
  | none => .error .isDirectory
  | some name =>
    match ← d.walk path.absolute path.names.dropLast with
    | .file _ => .error .notDirectory
    | .directory location =>
      if name = "." ∨ name = ".." ∨ path.closed then .error .isDirectory
      else
        match ← d.find? location name with
        | some (.directory _) => .error .isDirectory
        | _ => .ok (d.put (location.child name) content.toUTF8)

instance : MonadFiles (StateM Directory) where
  readText path := fun d => (d.read path, d)
  writeText path content := fun d =>
    match d.write path content with
    | .ok d => (.ok (), d)
    | .error fault => (.error fault, d)

end Directory

end ContractBlocks
