import SerialConsole.Files.Tree
import SerialConsole.Settings.Basic
import SerialConsole.Settings.Schema
import SerialConsole.Yaml.Construction
import SerialConsole.Yaml.Writer

set_option autoImplicit false

/-!
# The settings file

Reading settings from a document and writing them as one. What the document leaves out keeps its
usual value. A document that is empty leaves out everything.
-/
namespace SerialConsole.Settings

open Yaml

/-! ## Reading -/

def flawFault (source : String) : Flaw → Fault
  | .malformed => .settings (.notYaml source)
  | .duplicateKey key => .settings (.duplicateKey key)
  | flaw => .document flaw

def part? (document : Document) (value : Value) (key : String) : Option Value :=
  Check.valueAt? document.objects value key

def textOf? : Value → Option String
  | .text s => some s
  | _ => none

def wholeOf? : Value → Option Int
  | .int n => some n
  | .float x => x.toInt?
  | _ => none

/-- The line settings that a mapping gives. -/
def lineOf (document : Document) (value : Value) : LineSettings :=
  let whole (key : String) (usual : Int) : Int :=
    ((part? document value key).bind wholeOf?).getD usual
  let word (key usual : String) : String :=
    ((part? document value key).bind textOf?).getD usual
  let usual : LineSettings := {}
  { baudRate := whole "baud_rate" usual.baudRate
    dataBits := whole "data_bits" usual.dataBits
    stopBits := whole "stop_bits" usual.stopBits
    parity := word "parity" usual.parity
    flowControl := word "flow_control" usual.flowControl }

/-- The command that a mapping gives. -/
def commandOf (document : Document) (value : Value) : SavedCommand :=
  let text? (key : String) : Option String := (part? document value key).bind textOf?
  { name := (text? "name").getD ""
    data := (text? "data").getD ""
    format := (text? "format").getD "text"
    description := text? "description" }

/-- The settings that a document with the right form gives. -/
def ofDocument (document : Document) : Settings :=
  let top := document.value
  { line := (part? document top "serial").elim {} (lineOf document)
    port := (part? document top "port").bind textOf?
    commands :=
      (((part? document top "commands").bind (Value.items? document.objects)).getD []).map
        (commandOf document) }

/-- The settings that a document gives if its form is right. -/
def checked (source : String) (document : Document) : Except Fault Settings :=
  match documentCheck document.objects document.value with
  | some violation => .error (.settings (.schema source violation.place violation.text))
  | none =>
    let settings := ofDocument document
    match problemIn source [] 0 settings.commands with
    | some problem => .error (.settings problem)
    | none => .ok settings

/-- The settings that a text gives; `source` is the name of its file. -/
def ofText (source : String) (text : String) : Except Fault Settings :=
  match Document.ofText text.toList with
  | .error flaw => .error (flawFault source flaw)
  | .ok document =>
    if document.value = .null then .ok {}
    else if (document.value.pairs? document.objects).isNone then
      .error (.settings (.notAMapping source))
    else checked source document

/-- The settings in a file; the usual ones if there is no file. -/
def load (files : Files) (path : Path) : Except Fault Settings := do
  if ← files.exists? path then ofText path.text (← files.load .readSettings path) else .ok {}

/-! ## Writing -/

/-- A line with a key and a text, in a mapping with the given indentation. -/
def textLine (indent : Nat) (key value : String) : List Char :=
  key.toList ++ ':' :: ' ' ::
    writeText (indent + key.length + 2) (indent + 2) value.toList ++ ['\n']

def numberLine (key : String) (value : Int) : List Char :=
  key.toList ++ ':' :: ' ' :: (toString value).toList ++ ['\n']

def lineLines (line : LineSettings) : List (List Char) :=
  ["serial:\n".toList] ++
    [numberLine "baud_rate" line.baudRate, numberLine "data_bits" line.dataBits,
      numberLine "stop_bits" line.stopBits, textLine 2 "parity" line.parity,
      textLine 2 "flow_control" line.flowControl].map ([' ', ' '] ++ ·)

/-- The lines of a command; a dash marks the first one. -/
def commandLines (command : SavedCommand) : List (List Char) :=
  let rest := [textLine 2 "data" command.data, textLine 2 "format" command.format] ++
    (command.description.map (textLine 2 "description")).toList
  ('-' :: ' ' :: textLine 2 "name" command.name) :: rest.map ([' ', ' '] ++ ·)

/-- The document that settings are written as. An empty port is left out like no port. -/
def render (settings : Settings) : String :=
  let port := match settings.port with
    | some port => if port = "" then [] else [textLine 0 "port" port]
    | none => []
  let commands :=
    if settings.commands.isEmpty then []
    else "commands:\n".toList :: settings.commands.flatMap commandLines
  String.ofList (lineLines settings.line ++ port ++ commands).flatten

def save (files : Files) (path : Path) (settings : Settings) : Files × Except Fault Unit :=
  files.save .writeSettings path settings.render

end SerialConsole.Settings
