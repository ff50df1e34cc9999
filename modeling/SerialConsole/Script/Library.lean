import SerialConsole.Files.Tree
import SerialConsole.Script.Parser

set_option autoImplicit false

/-!
# Saved scripts

Scripts that are kept by name: the ones that come with the program, and the operator's own, each a
text file in one directory. A script of the operator's takes the place of one that comes with the
program.
-/
namespace SerialConsole.Script

/-- Scripts by name, in the order in which the names came up. -/
structure Library where
  scripts : List (String × String) := []
  deriving DecidableEq, Repr, Inhabited

namespace Library

def find? (library : Library) (name : String) : Option String :=
  (library.scripts.find? fun s => s.1 = name).map (·.2)

def contains (library : Library) (name : String) : Bool :=
  (library.find? name).isSome

/-- Keeps a script under a name, in the place of the one that had the name. -/
def put (library : Library) (name script : String) : Library :=
  if library.contains name then
    ⟨library.scripts.map fun s => if s.1 = name then (name, script) else s⟩
  else ⟨library.scripts ++ [(name, script)]⟩

def names (library : Library) : List String :=
  Text.sortOn id (library.scripts.map (·.1))

/-- A script that asks a modem for its identity. -/
def probe : String :=
  "# Probe an AT-command modem three times.\n# Run with --line-ending CRLF.\n" ++
    "LOOP 3\nSEND AT\nDELAY 500\nEND\nSEND ATI\n"

/-- A script that sends a sign of life. -/
def heartbeat : String :=
  "# Send a heartbeat once a second for a minute.\nLOOP 60\nSEND \"PING\"\nDELAY 1000\nEND\n"

/-- The scripts that come with the program. -/
def packaged : Library :=
  ⟨[("at_probe", probe), ("heartbeat", heartbeat)]⟩

/-- What the name of a script file ends in. -/
def suffix : List Char := ['.', 't', 'x', 't']

def nameOfFile? (file : String) : Option String :=
  let (stem, ending) := Path.splitName file.toList
  if ending = suffix then some (String.ofList stem) else none

/-- The warning that a script of the operator's hides one that comes with the program. -/
def overrideWarning (name : String) : String :=
  "User script '" ++ name ++ "' overrides packaged script"

/-- The scripts together with the ones in some files of a directory, and the warnings. The first
file that cannot be read ends it; earlier warnings stay. -/
def loadFrom (files : Files) (directory : Path) (library : Library) :
    List String → List String × Except Fault Library
  | [] => ([], .ok library)
  | file :: rest =>
    match nameOfFile? file with
    | none => loadFrom files directory library rest
    | some name =>
      let warning := if library.contains name then [overrideWarning name] else []
      match files.load .readScript (directory.child file) with
      | .error fault => (warning, .error fault)
      | .ok script =>
        let (warnings, result) := loadFrom files directory (library.put name script) rest
        (warning ++ warnings, result)

/-- All scripts, and the warnings. It is an error if the directory cannot be looked up; if there is
none, or a file in its place, there are no scripts of the operator's. -/
def load (files : Files) (directory : Path) : List String × Except Fault Library :=
  match files.exists? directory with
  | .error fault => ([], .error fault)
  | .ok _ => loadFrom files directory packaged ((files.list? directory).getD [])

/-- Whether a character may stand in the name of a script. -/
def isNameChar (c : Char) : Bool :=
  c.isAlphanum || c == '_' || c == '.' || c == '-'

/-- Whether a text may be the name of a script. A line feed at its end is let through. -/
def isName (name : String) : Bool :=
  let bare := if name.toList.getLast? == some '\n' then name.toList.dropLast else name.toList
  !bare.isEmpty && bare.all isNameChar

def fileOf (directory : Path) (name : String) : Except Fault Path :=
  if isName name then .ok (directory.child (name ++ String.ofList suffix))
  else .error (.settings (.badScriptName name))

/-- Writes a script of the operator's. The result is its file. -/
def save (files : Files) (directory : Path) (name script : String) : Files × Except Fault Path :=
  match fileOf directory name with
  | .error fault => (files, .error fault)
  | .ok path =>
    let (files, result) := files.save .writeScript path script
    (files, result.map fun _ => path)

/-- Deletes a script of the operator's. The result says whether there was one. -/
def delete (files : Files) (directory : Path) (name : String) : Except Fault (Files × Bool) := do
  let path ← fileOf directory name
  if ← files.exists? path then do
    let files ← (files.remove path).mapError (Files.explain .deleteScript path)
    .ok (files, true)
  else .ok (files, false)

end Library

end SerialConsole.Script
