import SerialConsole.Fault
import SerialConsole.Files.Path
import SerialConsole.Text.Lines

set_option autoImplicit false

/-!
# Files

A tree of directories and files, and the operations on it that the program uses. A relative path
starts at the working directory. Each operation says which problem it meets first.
-/
namespace SerialConsole

inductive Entry where
  | file (content : Bytes)
  | directory (entries : List (String × Entry))
  deriving Inhabited

namespace Entry

/-- The entry with a name in a directory. -/
def child? : Entry → String → Option Entry
  | .file _, _ => none
  | .directory entries, name => (entries.find? fun e => e.1 = name).map (·.2)

def isDirectory : Entry → Bool
  | .file _ => false
  | .directory _ => true

def names : Entry → List String
  | .file _ => []
  | .directory entries => entries.map (·.1)

/-- The entry at a place below another one. -/
def at? (entry : Entry) : List String → Option Entry
  | [] => some entry
  | name :: rest => (entry.child? name).bind (at? · rest)

/-- Some entries with the one of a name replaced, added or, if there is no new one, removed. -/
def setIn (entries : List (String × Entry)) (name : String) (entry : Option Entry) :
    List (String × Entry) :=
  match entry with
  | none => entries.filter fun e => e.1 ≠ name
  | some entry =>
    if entries.any fun e => e.1 = name then
      entries.map fun e => if e.1 = name then (name, entry) else e
    else entries ++ [(name, entry)]

/-- The entry with what stands at a place below it replaced. -/
def set (entry : Entry) (place : List String) (new : Option Entry) : Entry :=
  match place, entry with
  | [], entry => new.getD entry
  | _ :: _, .file content => .file content
  | name :: rest, .directory entries =>
    let below := ((Entry.directory entries).child? name).getD (.directory [])
    .directory (setIn entries name (if rest.isEmpty then new else some (below.set rest new)))

end Entry

/-- A file system: all entries, and the working directory. -/
structure Files where
  root : Entry := .directory [("home", .directory [])]
  working : List String := ["home"]
  deriving Inhabited

namespace Files

/-- The most bytes that the name of an entry has. -/
def nameLimit : Nat := 255

/-- The most bytes that a path has. -/
def pathLimit : Nat := 4095

def follow (root : Entry) (place : List String) : List String → Except FileProblem (List String)
  | [] => .ok place
  | name :: rest =>
    match root.at? place with
    | none => .error .notFound
    | some (.file _) => .error .notADirectory
    | some (.directory entries) =>
      if name = ".." then follow root place.dropLast rest
      else if nameLimit < name.utf8ByteSize then .error .nameTooLong
      else if entries.any fun e => e.1 = name then follow root (place ++ [name]) rest
      else .error .notFound

/-- The place that a path leads to. -/
def locate (files : Files) (path : Path) : Except FileProblem (List String) :=
  if pathLimit < path.text.utf8ByteSize then .error .nameTooLong
  else follow files.root (if path.isAbsolute then [] else files.working) path.parts

def find (files : Files) (path : Path) : Except FileProblem Entry := do
  let place ← files.locate path
  match files.root.at? place with
  | some entry => .ok entry
  | none => .error .notFound

/-- Whether a problem means only that nothing is there. -/
def isAbsence : FileProblem → Bool
  | .notFound | .notADirectory => true
  | _ => false

def fault (path : Path) (problem : FileProblem) : Fault :=
  .file problem path.text

def exists? (files : Files) (path : Path) : Except Fault Bool :=
  match files.find path with
  | .ok _ => .ok true
  | .error problem => if isAbsence problem then .ok false else .error (fault path problem)

def isDirectory (files : Files) (path : Path) : Bool :=
  match files.find path with
  | .ok entry => entry.isDirectory
  | .error _ => false

def readBytes (files : Files) (path : Path) : Except Fault Bytes :=
  match files.find path with
  | .ok (.file content) => .ok content
  | .ok (.directory _) => .error (fault path .isADirectory)
  | .error problem => .error (fault path problem)

/-- The text of a file, with every line end as a line feed. -/
def readText (files : Files) (path : Path) : Except Fault String := do
  let bytes ← files.readBytes path
  match Utf8.decode bytes with
  | .ok text => .ok (String.ofList (Text.unifyLineEnds text))
  | .error flaw => .error (.badBytes flaw)

/-- The place of a new entry: the place of its directory, and its name. -/
def placeOfNew (files : Files) (path : Path) : Except FileProblem (List String) :=
  if pathLimit < path.text.utf8ByteSize then .error .nameTooLong
  else
    match path.parts.getLast? with
    | none => .error .alreadyThere
    | some name => do
      let place ← files.locate path.parent
      match files.root.at? place with
      | some (.directory _) =>
        if name = ".." then .error .alreadyThere
        else if nameLimit < name.utf8ByteSize then .error .nameTooLong
        else .ok (place ++ [name])
      | some (.file _) => .error .notADirectory
      | none => .error .notFound

def put (files : Files) (place : List String) (entry : Option Entry) : Files :=
  { files with root := files.root.set place entry }

/-- Writes a file, a new one or over an old one. -/
def writeBytes (files : Files) (path : Path) (content : Bytes) : Except Fault Files :=
  match files.find path with
  | .ok (.directory _) => .error (fault path .isADirectory)
  | _ =>
    match files.placeOfNew path with
    | .ok place => .ok (files.put place (some (.file content)))
    | .error problem => .error (fault path problem)

def makeDirectory (files : Files) (path : Path) : Except FileProblem Files :=
  match files.find path with
  | .ok _ => .error .alreadyThere
  | .error _ => do
    let place ← files.placeOfNew path
    .ok (files.put place (some (.directory [])))

/-- Makes a directory with all directories above it; `depth` counts them. What was made before a
problem stays. -/
def makeDirectories (files : Files) : Nat → Path → Files × Except Fault Unit
  | depth, path =>
    match files.makeDirectory path with
    | .ok made => (made, .ok ())
    | .error .notFound =>
      match depth with
      | 0 => (files, .error (fault path .notFound))
      | depth + 1 =>
        match files.makeDirectories depth path.parent with
        | (made, .error refused) => (made, .error refused)
        | (made, .ok ()) =>
          match made.makeDirectory path with
          | .ok made => (made, .ok ())
          | .error problem =>
            (made, if made.isDirectory path then .ok () else .error (fault path problem))
    | .error problem =>
      (files, if files.isDirectory path then .ok () else .error (fault path problem))

def makeParents (files : Files) (path : Path) : Files × Except Fault Unit :=
  files.makeDirectories path.parts.length path.parent

/-- Writes a file, and makes the directories that it is to be in. -/
def writeWithParents (files : Files) (path : Path) (content : Bytes) : Files × Except Fault Unit :=
  match files.makeParents path with
  | (made, .error refused) => (made, .error refused)
  | (made, .ok ()) =>
    match made.writeBytes path content with
    | .ok written => (written, .ok ())
    | .error refused => (made, .error refused)

/-- A fault of the file system as one that says what was to be done; other faults stay. -/
def explain (role : FileRole) (path : Path) (refused : Fault) : Fault :=
  if refused.kind.isSystem then .fileRefused role path.text refused else refused

def save (files : Files) (role : FileRole) (path : Path) (text : String) :
    Files × Except Fault Unit :=
  let (files, result) := files.writeWithParents path (Utf8.encode text.toList)
  (files, result.mapError (explain role path))

/-- Loads a text for some purpose. -/
@[irreducible]
def load (files : Files) (role : FileRole) (path : Path) : Except Fault String :=
  (files.readText path).mapError (explain role path)

def remove (files : Files) (path : Path) : Except Fault Files :=
  match files.find path with
  | .ok (.directory _) => .error (fault path .isADirectory)
  | .ok (.file _) =>
    match files.locate path with
    | .ok place => .ok (files.put place none)
    | .error problem => .error (fault path problem)
  | .error problem => .error (fault path problem)

/-- The names in a directory, in order; nothing if there is no directory. -/
def list? (files : Files) (path : Path) : Option (List String) :=
  match files.find path with
  | .ok (.directory entries) => some (Text.sortOn id (entries.map (·.1)))
  | _ => none

end Files

end SerialConsole
