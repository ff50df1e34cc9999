import SerialConsole.Text.Blank

set_option autoImplicit false

/-!
# Paths

Paths in normal form: slashes in a row count as one, and the components that stand for the
directory itself are left out. Exactly two slashes at the start are kept, as systems may give them
a meaning of their own.
-/
namespace SerialConsole

/-- A path: how many slashes it starts with, and its components. -/
structure Path where
  slashes : Nat := 0
  parts : List String := []
  deriving DecidableEq, Repr, Inhabited

namespace Path

/-- The components of a text, without the ones that stand for the directory itself. -/
def components (text : List Char) : List String :=
  ((Text.splitAt '/' text).map String.ofList).filter fun part => part ≠ "" && part ≠ "."

/-- The slashes that a path keeps of those it is written with. -/
def keptSlashes (count : Nat) : Nat :=
  if count = 0 then 0 else if count = 2 then 2 else 1

def ofString (text : String) : Path :=
  ⟨keptSlashes (text.toList.takeWhile (· == '/')).length, components text.toList⟩

/-- The text of a path; the path without components is a dot. -/
def text (path : Path) : String :=
  let shown := String.ofList (List.replicate path.slashes '/') ++ "/".intercalate path.parts
  if shown = "" then "." else shown

/-- Whether a path starts at the root. -/
def isAbsolute (path : Path) : Bool :=
  path.slashes ≠ 0

/-- A path seen from another one. -/
def join (path other : Path) : Path :=
  if other.isAbsolute then other else { path with parts := path.parts ++ other.parts }

/-- A path with more components behind it. -/
def child (path : Path) (text : String) : Path :=
  path.join (ofString text)

/-- The directory that holds a path. -/
def parent (path : Path) : Path :=
  { path with parts := path.parts.dropLast }

/-- A name before its last dot, and from there on; a dot at either end does not count. -/
def splitName (name : List Char) : List Char × List Char :=
  let after := name.reverse.takeWhile (· != '.')
  let stem := name.take (name.length - after.length - 1)
  if after.isEmpty || stem.isEmpty || after.length == name.length then (name, [])
  else (stem, '.' :: after.reverse)

/-- Whether a text names a directory by its form: it ends in a slash or in a dot component. -/
def namesDirectory (text : String) : Bool :=
  match (Text.splitAt '/' text.toList).getLast? with
  | some last => text.contains '/' && (last.isEmpty || last == ['.'])
  | none => false

end Path

/-- Where the program keeps its files. -/
structure Places where
  config : Path
  data : Path
  deriving DecidableEq, Repr

namespace Places

def configDirectory (places : Places) : Path :=
  places.config.child "serterm"

def settings (places : Places) : Path :=
  places.configDirectory.child "settings.yaml"

/-- The directory of the operator's scripts. -/
def scripts (places : Places) : Path :=
  places.data.child "serterm/scripts"

/-- The home directory that an entry names; one that starts with a tilde is none. -/
def home? (entry : String) : Option Path :=
  let bare := String.ofList (entry.toList.reverse.dropWhile (· == '/')).reverse
  if bare.startsWith "~" then none
  else some (Path.ofString (if bare = "" then "/" else bare))

/-- The places that the entries of an environment give. The home directory has to be known, even
when no place depends on it. -/
def ofEntries? (home : String) (config data : Option String) : Option Places := do
  let home ← home? home
  let place (entry : Option String) (usual : String) : Path :=
    match entry with
    | some text => Path.ofString text
    | none => home.child usual
  pure ⟨place config ".config", place data ".local/share"⟩

end Places

end SerialConsole
