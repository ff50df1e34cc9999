import SerialConsole.Loop.Run
import SerialConsole.Script.Library
import SerialConsole.Settings.Document

set_option autoImplicit false

/-!
# The console

A console has settings, saved scripts and a log. It stands in a workplace: files, the places where
the program keeps its own, a platform with devices, the ports that the platform lists, and a clock.
-/
namespace SerialConsole

/-- What a console works with, and the records it has made. -/
structure Workplace where
  files : Files := {}
  places : Places
  platform : Loop.Platform := default
  ports : Option (List Port) := none
  clock : Log.Clock := .stopped
  notes : Array Note := #[]

/-- Settings, saved scripts with the warnings about them, and a log. -/
structure Console where
  settings : Settings := {}
  library : Script.Library := {}
  warnings : List String := []
  log : Log.Ring := {}
  deriving Inhabited

namespace Workplace

/-- Makes a record. -/
def note (w : Workplace) (level : Level) (text : String) : Workplace :=
  { w with notes := w.notes.push ⟨level, text⟩ }

/-- Loads all scripts; each warning is put on record. -/
def loadScripts (w : Workplace) : Workplace × List String × Except Fault Script.Library :=
  let (warnings, result) := Script.Library.load w.files w.places.scripts
  (warnings.foldl (fun w text => w.note .warning text) w, warnings, result)

/-- Opens a console, with the given settings or those of the settings file. -/
def openConsole (w : Workplace) (settings : Option Settings) : Workplace × Except Fault Console :=
  let found : Except Fault Settings := match settings with
    | some settings => .ok settings
    | none => Settings.load w.files w.places.settings
  match found with
  | .error fault => (w, .error fault)
  | .ok settings =>
    let (w, warnings, library) := w.loadScripts
    (w, library.map fun library => { settings, library, warnings, log := { clock := w.clock } })

def listPorts (w : Workplace) : List Port :=
  match w.platform with
  | .simulated line => line.listPorts
  | .scripted _ => w.ports.getD []

end Workplace

/-- Changes to the line settings. -/
structure LineOverrides where
  baudRate : Option Int := none
  dataBits : Option Int := none
  stopBits : Option Int := none
  parity : Option String := none
  flowControl : Option String := none
  deriving DecidableEq, Repr, Inhabited

def LineSettings.override (line : LineSettings) (changes : LineOverrides) : LineSettings :=
  { baudRate := changes.baudRate.getD line.baudRate
    dataBits := changes.dataBits.getD line.dataBits
    stopBits := changes.stopBits.getD line.stopBits
    parity := changes.parity.getD line.parity
    flowControl := changes.flowControl.getD line.flowControl }

namespace Console

/-- The script in a file or the saved one with a name; exactly one of the two is given. -/
def resolveScript (c : Console) (w : Workplace) (file : Option Path) (name : Option String) :
    Except Fault String :=
  match file, name with
  | some _, some _ => .error .twoScripts
  | some path, none => w.files.load .readScript path
  | none, some name =>
    match c.library.find? name with
    | some script => .ok script
    | none => .error (.unknownScript name c.library.names)
  | none, none => .error .noScript

def resolveCommand (c : Console) (name : String) : Except Fault SavedCommand :=
  match c.settings.command? name with
  | some command => .ok command
  | none => .error (.unknownSavedCommand name (c.settings.sortedCommands.map SavedCommand.name))

/-- Saves a script under a name; it is valid. -/
def keepScript (c : Console) (w : Workplace) (name script : String) :
    Workplace × Console × Except Fault Path :=
  let (files, result) := Script.Library.save w.files w.places.scripts name script
  let w := { w with files }
  match result with
  | .error fault => (w, c, .error fault)
  | .ok path =>
    (w.note .info ("Saved script '" ++ name ++ "' to " ++ path.text),
      { c with library := c.library.put name script }, .ok path)

/-- Saves a script under a name if it is valid. -/
def saveScript (c : Console) (w : Workplace) (name script : String) :
    Workplace × Console × Except Fault Path :=
  match Script.validate script.toList with
  | .error fault => (w, c, .error fault)
  | .ok verdict =>
    match verdict.reason with
    | some reason => (w, c, .error (.invalidScript name reason))
    | none => c.keepScript w name script

/-- Deletes a script of the operator's; if there was one, all scripts are loaded again. -/
def deleteScript (c : Console) (w : Workplace) (name : String) :
    Workplace × Console × Except Fault Bool :=
  match Script.Library.delete w.files w.places.scripts name with
  | .error fault => (w, c, .error fault)
  | .ok (_, false) => (w, c, .ok false)
  | .ok (files, true) =>
    let (w, _, result) := { w with files }.loadScripts
    match result with
    | .error fault => (w, c, .error fault)
    | .ok library => (w, { c with library }, .ok true)

/-- Writes the log to a file. -/
def exportLog (c : Console) (w : Workplace) (path : Path) (display : Log.Display) :
    Workplace × Except Fault Unit :=
  let (files, made) := w.files.makeParents path
  let w := { w with files }
  match made with
  | .error fault => (w, .error (Files.explain .writeLog path fault))
  | .ok () =>
    match c.log.exportText display with
    | .error fault => (w, .error (Files.explain .writeLog path fault))
    | .ok text =>
      match w.files.writeBytes path (Utf8.encode (text ++ ['\n'])) with
      | .error fault => (w, .error (Files.explain .writeLog path fault))
      | .ok files => ({ w with files }, .ok ())

end Console

end SerialConsole
