import SerialConsole.CommandLine.Options
import SerialConsole.Console.Exchange
import SerialConsole.Numeral.Decimal

set_option autoImplicit false

/-!
# Commands

The commands of the program and how they are written. What cannot be read is a usage error.
-/
namespace SerialConsole.CommandLine

/-- The options that say how to reach a device and how to show the traffic. -/
structure LinkOptions where
  port : Option String := none
  line : LineOverrides := {}
  hexDisplay : Bool := false
  deriving DecidableEq, Repr, Inhabited

structure RunOptions where
  file : Option String := none
  script : Option String := none
  hex : Bool := false
  ending : String := "none"
  settle : Double := Double.ofFraction false 5 10
  progress : Bool := false
  logFile : Option String := none
  link : LinkOptions := {}
  deriving DecidableEq, Repr, Inhabited

structure SendOptions where
  data : Option String := none
  command : Option String := none
  hex : Bool := false
  ending : String := "none"
  listen : Double := Double.ofInt 1
  link : LinkOptions := {}
  deriving DecidableEq, Repr, Inhabited

structure MonitorOptions where
  duration : Option Double := none
  logFile : Option String := none
  link : LinkOptions := {}
  deriving DecidableEq, Repr, Inhabited

inductive Command where
  | ports
  | validate (file : String)
  | run (options : RunOptions)
  | send (options : SendOptions)
  | monitor (options : MonitorOptions)
  | scripts
  | commands
  | saveScript (name file : String)
  | deleteScript (name : String)
  deriving DecidableEq, Repr

/-! ## Options of the commands -/

def valued (key : String) (spellings : List String) : OptionSpec :=
  { key, spellings }

/-- An option that takes no value. -/
def flag (key : String) (spellings : List String) : OptionSpec :=
  { key, spellings, takesValue := false }

/-- The options that come before a command. -/
def generalSpecs : List OptionSpec :=
  [flag "verbose" ["--verbose", "-v"]]

/-- The options that say how to reach a device and how to show the traffic. -/
def linkSpecs : List OptionSpec :=
  [flag "hex-display" ["--hex-display"], valued "port" ["--port", "-p"],
    valued "baud" ["--baud", "-b"], valued "data-bits" ["--data-bits"],
    valued "stop-bits" ["--stop-bits"], valued "parity" ["--parity"],
    valued "flow-control" ["--flow-control"]]

def runSpecs : List OptionSpec :=
  [valued "script" ["--script", "-s"], flag "hex" ["--hex"],
    valued "line-ending" ["--line-ending"], valued "settle" ["--settle"],
    flag "progress" ["--progress"], valued "log-file" ["--log-file"]] ++ linkSpecs

def sendSpecs : List OptionSpec :=
  [valued "command" ["--command", "-c"], flag "hex" ["--hex"],
    valued "line-ending" ["--line-ending"], valued "listen" ["--listen"]] ++ linkSpecs

def monitorSpecs : List OptionSpec :=
  [valued "duration" ["--duration", "-d"], valued "log-file" ["--log-file"]] ++ linkSpecs

/-! ## Values -/

/-- The value of an option read by a function; nothing is read if the option is not given. -/
def readValue? {α : Type} (words : Words) (key : String) (read : List Char → Option α) :
    Option (Option α) :=
  match words.value? key with
  | none => some none
  | some text => (read text.toList).map some

def whole? (text : List Char) : Option Int :=
  (Whole.read text).toOption

def linkOptions? (words : Words) : Option LinkOptions := do
  let baudRate ← readValue? words "baud" whole?
  let dataBits ← readValue? words "data-bits" whole?
  let stopBits ← readValue? words "stop-bits" whole?
  let parity := words.value? "parity"
  let flowControl := words.value? "flow-control"
  pure
    { port := words.value? "port"
      line := { baudRate, dataBits, stopBits, parity, flowControl }
      hexDisplay := words.has "hex-display" }

def lineEndings : List String := ["none", "LF", "CR", "CRLF"]

def lineEnding? (words : Words) : Option String :=
  let ending := (words.value? "line-ending").getD "none"
  if lineEndings.contains ending then some ending else none

def atMostOne (operands : List String) : Option (Option String) :=
  match operands with
  | [] => some none
  | [operand] => some (some operand)
  | _ => none

/-! ## Reading commands -/

def readRun (arguments : List String) : Option Command := do
  let words ← parseWords runSpecs false arguments
  let file ← atMostOne words.operands
  let ending ← lineEnding? words
  let settle ← readValue? words "settle" Decimal.read?
  let link ← linkOptions? words
  let usual : RunOptions := {}
  pure (.run
    { file
      script := words.value? "script"
      hex := words.has "hex"
      ending
      settle := settle.getD usual.settle
      progress := words.has "progress"
      logFile := words.value? "log-file"
      link })

def readSend (arguments : List String) : Option Command := do
  let words ← parseWords sendSpecs false arguments
  let data ← atMostOne words.operands
  let ending ← lineEnding? words
  let listen ← readValue? words "listen" Decimal.read?
  let link ← linkOptions? words
  let usual : SendOptions := {}
  pure (.send
    { data
      command := words.value? "command"
      hex := words.has "hex"
      ending
      listen := listen.getD usual.listen
      link })

def readMonitor (arguments : List String) : Option Command := do
  let words ← parseWords monitorSpecs false arguments
  let duration ← readValue? words "duration" Decimal.read?
  let link ← linkOptions? words
  if words.operands.isEmpty then
    pure (.monitor { duration, logFile := words.value? "log-file", link })
  else none

/-- A command with operands only. -/
def readPlain (name : String) (arguments : List String) : Option Command := do
  let words ← parseWords [] false arguments
  match name, words.operands with
  | "ports", [] => some .ports
  | "validate", [file] => some (.validate file)
  | "scripts", [] => some .scripts
  | "commands", [] => some .commands
  | "save-script", [name, file] => some (.saveScript name file)
  | "delete-script", [name] => some (.deleteScript name)
  | _, _ => none

def Command.ofWords? (arguments : List String) : Option Command := do
  let words ← parseWords generalSpecs true arguments
  match words.operands with
  | [] => none
  | "run" :: rest => readRun rest
  | "send" :: rest => readSend rest
  | "monitor" :: rest => readMonitor rest
  | name :: rest => readPlain name rest

/-- The script file that has to be there before a command starts. -/
def Command.scriptFile? : Command → Option String
  | .validate file => some file
  | .run options => options.file
  | .saveScript _ file => some file
  | _ => none

def Command.logFile? : Command → Option String
  | .run options => options.logFile
  | .monitor options => options.logFile
  | _ => none

/-- The paths of all files that a command may use, apart from the scripts in their directory. -/
def Command.paths (places : Places) (command : Command) : List Path :=
  [places.settings, places.scripts] ++
    (command.scriptFile?.toList ++ command.logFile?.toList).map Path.ofString

end SerialConsole.CommandLine
