/-!
Files: what a path leads to in a directory tree that is known in full. Paths are walked name by
name, so it matters at which name the walk fails.
-/

set_option autoImplicit false

namespace FormulaKeys.Cli

/-- Why a file cannot be read. -/
inductive FileError where
  | notFound
  | notDirectory
  | isDirectory
  | nameTooLong
  /-- The bytes are not UTF-8. -/
  | notText
  /-- Any other reason, in the words of the system. -/
  | other (reason : String)
  deriving DecidableEq, Repr

def FileError.message : FileError → String
  | notFound => "No such file or directory (os error 2)"
  | notDirectory => "Not a directory (os error 20)"
  | isDirectory => "Is a directory (os error 21)"
  | nameTooLong => "File name too long (os error 36)"
  | notText => "stream did not contain valid UTF-8"
  | other reason => reason

/-- The files of a working directory, by the names on the way to them. -/
structure Files where
  contents : List (List String × ByteArray)

/-- Where a walk has come to. -/
inductive Place where
  | directory (names : List String)
  | file (content : ByteArray)
  /-- Above the working directory, where nothing is known to be. -/
  | outside

namespace Files

def maxNameSize : Nat := 255

def maxPathSize : Nat := 4095

/-- Cut at the slashes. -/
def cut : List Char → List (List Char)
  | [] => [[]]
  | '/' :: rest => [] :: cut rest
  | c :: rest => (cut rest).modifyHead (c :: ·)

/-- The names that stand between the slashes of a path; they may be empty. -/
def names (path : String) : List String := (cut path.toList).map String.ofList

def ofList (files : List (String × ByteArray)) : Files :=
  ⟨files.map fun (path, content) => (names path, content)⟩

/-- The place that has this name in a directory. -/
def enter (files : Files) (directory : List String) (name : String) : Except FileError Place :=
  let path := directory ++ [name]
  match files.contents.lookup path with
  | some content => .ok (.file content)
  | none =>
    if files.contents.any fun (other, _) => path.isPrefixOf other then .ok (.directory path)
    else .error .notFound

def step (files : Files) (place : Place) (name : String) : Except FileError Place :=
  match place with
  | .file _ => .error .notDirectory
  | .directory directory =>
    if name = "" ∨ name = "." then .ok place
    else if name = ".." then
      if directory.isEmpty then .ok .outside else .ok (.directory directory.dropLast)
    else if maxNameSize < name.utf8ByteSize then .error .nameTooLong
    else files.enter directory name
  | .outside =>
    if name = "" ∨ name = "." ∨ name = ".." then .ok .outside
    else if maxNameSize < name.utf8ByteSize then .error .nameTooLong
    else .error .notFound

/-- The content of the file at a path. -/
def read (files : Files) (path : String) : Except FileError ByteArray :=
  if maxPathSize < path.utf8ByteSize then .error .nameTooLong
  else
    let start := if path.startsWith "/" then .outside else .directory []
    match (names path).foldlM files.step start with
    | .ok (.file content) => .ok content
    | .ok _ => .error .isDirectory
    | .error error => .error error

end Files

end FormulaKeys.Cli
