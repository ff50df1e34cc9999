import SerialConsole.CommandLine.Command
import SerialConsole.Size

set_option autoImplicit false

/-!
# Running commands

What a command prints, what it does to the workplace and how it ends. Faults of the console's own
families are printed as errors; others leave the command. Whatever happens, `run` and `monitor`
write the log file that was asked for.
-/
namespace SerialConsole.CommandLine

/-- How a command ended, the lines it printed, and the fault that left it, if one did. -/
structure Report where
  exit : Nat := 0
  out : List String := []
  err : List String := []
  fault : Option Fault := none
  deriving Repr, Inhabited

namespace Report

def usage : Report :=
  { exit := 2 }

def print (r : Report) (line : String) : Report :=
  { r with out := r.out ++ [line] }

/-- A report with a line printed as a message. -/
def say (r : Report) (line : String) : Report :=
  { r with err := r.err ++ [line] }

/-- A report that ends with an error. -/
def fail (r : Report) (text : String) : Report :=
  { r.say ("Error: " ++ text) with exit := 1 }

/-- A report that ends with a fault: an own one is printed, an interrupt ends the program quietly,
and any other fault leaves it. -/
def failWith (r : Report) (fault : Fault) : Report :=
  if fault.isOwn then r.fail fault.message
  else if fault.kind = .interrupt then { r with exit := 130 }
  else { r with exit := 1, fault := some fault }

end Report

abbrev Outcome := Workplace × Report

/-- Opens a console, prints the warnings about its scripts and goes on. -/
def withConsole (w : Workplace) (go : Workplace → Console → Report → Outcome) : Outcome :=
  let (w, result) := w.openConsole none
  match result with
  | .error fault => (w, ({} : Report).failWith fault)
  | .ok console =>
    go w console (console.warnings.foldl (fun r warning => r.say ("Warning: " ++ warning)) {})

/-- How log data is shown. -/
def display (link : LinkOptions) : Log.Display :=
  if link.hexDisplay then .hex else .text

def printEntries (r : Report) (link : LinkOptions) (entries : List Log.Entry) : Report :=
  entries.foldl (fun r entry =>
    match entry.render (display link) with
    | .ok line => r.print (String.ofList line)
    | .error _ => r) r

def printSteps (r : Report) (steps : List (Nat × Nat)) : Report :=
  steps.foldl (fun r (position, total) =>
    r.say ("[step " ++ toString position ++ "/" ++ toString total ++ "]")) r

/-- The contact that options ask for. -/
def contactOf (c : Console) (link : LinkOptions) : Contact :=
  { line := some (c.settings.line.override link.line), port := link.port, watched := true }

def writeLog (w : Workplace) (c : Console) (r : Report) (link : LinkOptions)
    (logFile : Option String) : Outcome :=
  match logFile with
  | none => (w, r)
  | some file =>
    let path := Path.ofString file
    let (w, result) := c.exportLog w path (display link)
    match result with
    | .ok () =>
      (w, r.say ("Log written to " ++ path.text ++ " (" ++ toString c.log.size ++ " entries)"))
    | .error fault =>
      (w, if fault.isOwn then r.say ("Error: " ++ fault.message)
        else { r with exit := 1, fault := some fault })

def runPorts (w : Workplace) (_ : Console) (r : Report) : Outcome :=
  let ports := w.listPorts
  let lines := ports.map fun port => port.device ++ " " ++ port.description ++ " [" ++
    port.hardware ++ "]"
  (w, (if lines.isEmpty then ["No serial ports found"] else lines).foldl Report.print r)

/-- What is said about a script that was checked. -/
def verdictOf (script : String) : Except Fault (Except String Nat) :=
  (Script.validate script.toList).map fun verdict =>
    match verdict.reason with
    | some reason => .error reason
    | none => .ok verdict.commands

def runValidate (file : String) (w : Workplace) (c : Console) (r : Report) : Outcome :=
  let verdict := (c.resolveScript w (some (Path.ofString file)) none).bind verdictOf
  (w, match verdict with
    | .error fault => r.failWith fault
    | .ok (.error reason) => r.fail reason
    | .ok (.ok count) => r.print ("OK (" ++ toString count ++ " commands)"))

def reportRun (r : Report) : Except Fault Script.Tally → Report
  | .ok tally => r.say ("Script finished: " ++ toString tally.steps ++ " steps, " ++
      toString tally.sends ++ " sends")
  | .error fault =>
    if fault.kind.isExecution then r.fail ("script stopped at " ++ fault.message)
    else if fault.kind = .interrupt then { r.say "Interrupted" with exit := 130 }
    else r.failWith fault

def runRun (o : RunOptions) (w : Workplace) (c : Console) (r : Report) : Outcome :=
  match c.resolveScript w (o.file.map Path.ofString) o.script with
  | .error fault => writeLog w c (reportRun r (.error fault)) o.link o.logFile
  | .ok script =>
    let x := c.runScript w (contactOf c o.link) script (if o.hex then "hex" else "text") o.ending
      o.settle
    let r := printEntries r o.link x.entries
    let r := if o.progress then printSteps r x.steps else r
    writeLog x.workplace x.console (reportRun r x.result) o.link o.logFile

/-- The data to send and its format. -/
def payloadOf (o : SendOptions) (c : Console) : Except Fault (String × String) :=
  match o.command with
  | some name => (c.resolveCommand name).map fun command => (command.data, command.format)
  | none => .ok (o.data.getD "", if o.hex then "hex" else "text")

/-- A report on data that was sent. -/
def reportSend (r : Report) : Except Fault Log.Entry → Report
  | .ok entry =>
    match Size.format entry.data.length with
    | .ok size => r.say ("Sent " ++ size ++ ": " ++ String.ofList (Hex.encode entry.data))
    | .error fault => r.failWith fault
  | .error fault => r.failWith fault

def runSend (o : SendOptions) (w : Workplace) (c : Console) (r : Report) : Outcome :=
  match payloadOf o c with
  | .error fault => (w, r.failWith fault)
  | .ok (data, format) =>
    let ending := if format = "text" then o.ending else "none"
    let x := c.send w (contactOf c o.link) data format ending o.listen
    (x.workplace, reportSend (printEntries r o.link x.entries) x.result)

/-- A report on traffic that was followed. -/
def reportMonitor (r : Report) : Except Fault Nat → Report
  | .ok count => r.say ("Received " ++ toString count ++ " chunks")
  | .error fault => if fault.kind = .interrupt then r.say "Interrupted" else r.failWith fault

def runMonitor (o : MonitorOptions) (w : Workplace) (c : Console) (r : Report) : Outcome :=
  let x := c.monitor w (contactOf c o.link) o.duration
  let r := reportMonitor (printEntries r o.link x.entries) x.result
  writeLog x.workplace x.console r o.link o.logFile

/-- The lines about scripts, up to the first that cannot be checked. -/
def printScripts (c : Console) (r : Report) : List String → Report
  | [] => r
  | name :: rest =>
    match verdictOf ((c.library.find? name).getD "") with
    | .error fault => r.failWith fault
    | .ok verdict =>
      let status := match verdict with
        | .ok count => toString count ++ " commands"
        | .error reason => "invalid: " ++ reason
      printScripts c (r.print (name ++ ": " ++ status)) rest

def runScripts (w : Workplace) (c : Console) (r : Report) : Outcome :=
  (w, if c.library.names.isEmpty then r.print "No scripts saved"
    else printScripts c r c.library.names)

/-- The line of a saved command; an empty description is left out. -/
def commandLine (command : SavedCommand) : String :=
  let line := command.name ++ " [" ++ command.format ++ "]: " ++ command.data
  match command.description with
  | some description => if description = "" then line else line ++ "  # " ++ description
  | none => line

def runCommands (w : Workplace) (c : Console) (r : Report) : Outcome :=
  let lines := c.settings.sortedCommands.map commandLine
  (w, (if lines.isEmpty then ["No commands saved"] else lines).foldl Report.print r)

def runSaveScript (name file : String) (w : Workplace) (c : Console) (r : Report) : Outcome :=
  match c.resolveScript w (some (Path.ofString file)) none with
  | .error fault => (w, r.failWith fault)
  | .ok script =>
    let (w, _, result) := c.saveScript w name script
    (w, match result with
      | .ok path => r.print ("Saved '" ++ name ++ "' to " ++ path.text)
      | .error fault => r.failWith fault)

def runDeleteScript (name : String) (w : Workplace) (c : Console) (r : Report) : Outcome :=
  let (w, _, result) := c.deleteScript w name
  (w, match result with
    | .ok true => r.print ("Deleted '" ++ name ++ "'")
    | .ok false => r.fail ("no user script named '" ++ name ++ "'")
    | .error fault => r.failWith fault)

def isScriptFile (files : Files) (file : String) : Bool :=
  match files.find (Path.ofString file) with
  | .ok (.file _) => !file.isEmpty && !Path.namesDirectory file
  | _ => false

def Command.perform (w : Workplace) : Command → Outcome
  | .ports => withConsole w runPorts
  | .validate file => withConsole w (runValidate file)
  | .run options => withConsole w (runRun options)
  | .send options =>
    if options.data.isNone == options.command.isNone then
      (w, ({} : Report).fail "pass either DATA or --command NAME")
    else withConsole w (runSend options)
  | .monitor options => withConsole w (runMonitor options)
  | .scripts => withConsole w runScripts
  | .commands => withConsole w runCommands
  | .saveScript name file => withConsole w (runSaveScript name file)
  | .deleteScript name => withConsole w (runDeleteScript name)

/-- Runs the command that some words write. -/
def execute (w : Workplace) (arguments : List String) : Outcome :=
  match Command.ofWords? arguments with
  | none => (w, .usage)
  | some command =>
    if command.scriptFile?.all (isScriptFile w.files) then command.perform w else (w, .usage)

end SerialConsole.CommandLine
