import SerialConsole.CommandLine.Execution
import SerialConsole.Files.Change

set_option autoImplicit false

/-!
# The program

The outer layer of the command line: it reads what stands at the places that a command may use,
runs the command on that, prints its report and does to the files what the command did. The system
lists no serial ports.
-/
namespace SerialConsole

open CommandLine

/-- The names in a directory of the system. -/
def namesAt? (place : String) : IO (Option (List String)) := do
  try
    let directory ← IO.FS.realPath place
    let entries ← directory.readDir
    pure (some (entries.toList.map (·.fileName)))
  catch _ => pure none

/-- The bytes of a file of the system. -/
def bytesAt? (place : String) : IO (Option Bytes) := do
  try
    let content ← IO.FS.readBinFile place
    pure (some content.toList)
  catch _ => pure none

def textOfPlace (place : List String) : String :=
  (Path.mk 1 place).text

/-- The root with what stands at a place of the system. A directory comes without its entries. -/
def loadPlace (root : Entry) (place : List String) : IO Entry := do
  if (root.at? place).isSome then pure root
  else if (← namesAt? (textOfPlace place)).isSome then
    pure (root.set place (some (.directory [])))
  else
    match ← bytesAt? (textOfPlace place) with
    | some content => pure (root.set place (some (.file content)))
    | none => pure root

/-- The part of the system's files that some paths lead to, with the entries of directories at
their ends. -/
def loadFiles (working : List String) (paths : List Path) : IO Files := do
  let mut root := Entry.directory []
  for path in paths do
    let trail := path.trail working
    for place in trail do
      root ← loadPlace root place
    let last := trail.getLastD []
    for name in (← namesAt? (textOfPlace last)).getD [] do
      root ← loadPlace root (last ++ [name])
  pure { root, working }

/-- Does to the system's files what a step says. -/
def applyChange : Change → IO Unit
  | .makeDirectory place => IO.FS.createDirAll (textOfPlace place)
  | .writeFile place content =>
    IO.FS.writeBinFile (textOfPlace place) ⟨content.toArray⟩
  | .remove place => IO.FS.removeFile (textOfPlace place)

/-- The places that the environment gives. -/
def readPlaces? : IO (Option Places) := do
  let home := (← IO.getEnv "HOME").getD "/root"
  pure (Places.ofEntries? home (← IO.getEnv "XDG_CONFIG_HOME") (← IO.getEnv "XDG_DATA_HOME"))

def printReport (report : Report) : IO Unit := do
  report.out.forM IO.println
  report.err.forM IO.eprintln
  if report.exit = Report.usage.exit then
    IO.eprintln "Usage: serterm [--verbose] COMMAND [OPTIONS] [OPERANDS]"
  match report.fault with
  | some fault => IO.eprintln fault.message
  | none => pure ()

end SerialConsole

open SerialConsole in
/-- Runs the command line. -/
def main (arguments : List String) : IO UInt32 := do
  match ← readPlaces? with
  | none =>
    IO.eprintln "The home directory is not known"
    pure 1
  | some places =>
    let paths := (CommandLine.Command.ofWords? arguments).elim [] (·.paths places)
    let files ← loadFiles (Path.ofString (← IO.currentDir).toString).parts paths
    let (after, report) :=
      CommandLine.execute { files, places, platform := .simulated {} } arguments
    (Change.between files after.files).forM applyChange
    printReport report
    pure (UInt32.ofNat report.exit)
