import SerialConsole.Files.Tree

set_option autoImplicit false

/-!
# Changes to files

What leads from one tree of files to another, as steps that can be done one after the other, and
the places that have to be known to follow a path.
-/
namespace SerialConsole

/-- A step that changes a tree of files. -/
inductive Change where
  | makeDirectory (place : List String)
  | writeFile (place : List String) (content : Bytes)
  | remove (place : List String)
  deriving DecidableEq, Repr, Inhabited

namespace Change

/-- The removal of what is no longer among some entries. -/
def removals (place : List String) (old new : List (String × Entry)) : List Change :=
  (old.filter fun e => ((Entry.directory new).child? e.1).isNone).map fun e => .remove (place ++ [e.1])

mutual

/-- The steps that lead from what stood at a place, if anything did, to an entry. -/
def toEntry (place : List String) (old : Option Entry) : Entry → List Change
  | .file content =>
    match old with
    | some (.file before) => if before = content then [] else [.writeFile place content]
    | _ => [.writeFile place content]
  | .directory entries =>
    match old with
    | some (.directory before) =>
      removals place before entries ++ toEntries place before entries
    | _ => .makeDirectory place :: toEntries place [] entries

/-- The steps that lead from some entries of a directory to others. -/
def toEntries (place : List String) (old : List (String × Entry)) :
    List (String × Entry) → List Change
  | [] => []
  | (name, entry) :: rest =>
    toEntry (place ++ [name]) ((Entry.directory old).child? name) entry ++ toEntries place old rest

end

/-- The steps that lead from some files to others. -/
def between (old new : Files) : List Change :=
  toEntry [] (some old.root) new.root

end Change

namespace Path

/-- The places on the way from a place along some components. -/
def trailFrom (place : List String) : List String → List (List String)
  | [] => [place]
  | name :: rest =>
    place :: trailFrom (if name = ".." then place.dropLast else place ++ [name]) rest

/-- The places on the way that a path takes, from the root or a working directory on. -/
def trail (path : Path) (working : List String) : List (List String) :=
  trailFrom (if path.isAbsolute then [] else working) path.parts

end Path

end SerialConsole
