import SerialConsole.Text.Utf8
import SerialConsole.Yaml.Flaw

set_option autoImplicit false

/-!
# Faults

Everything that can go wrong, by cause, with the family that a fault belongs to and its message.
Faults of the console's own families are reported to the operator; the others come from outside
(a device, the file system, a number that is too long) and pass through unless a rule names them.
-/
namespace SerialConsole

/-- The number that a script command takes. -/
inductive NumberRole where
  | delay
  | loopCount
  deriving DecidableEq, Repr

/-- What the operator calls the number. -/
def NumberRole.name : NumberRole → String
  | .delay => "delay"
  | .loopCount => "loop count"

/-- Why a script line is refused. -/
inductive LineProblem where
  | unmatchedEnd
  | unknownCommand (text : String)
  | missingData
  | emptyData
  | missingNumber (role : NumberRole)
  | invalidNumber (role : NumberRole) (text : String)
  | negativeDelay (ms : Int)
  | longDelay (ms : Int)
  | smallCount (count : Int)
  | largeCount (count : Int)
  | unclosedLoops (count : Nat) (line : Nat)
  deriving DecidableEq, Repr

/-- The longest delay, in milliseconds. -/
def maxDelay : Int := 60000

/-- The smallest loop count. -/
def minCount : Int := 1

/-- The largest loop count. -/
def maxCount : Int := 10000

namespace LineProblem

/-- Whether the line is well formed and only its number is out of range. -/
def isRange : LineProblem → Bool
  | negativeDelay _ | longDelay _ | smallCount _ | largeCount _ => true
  | _ => false

/-- The wording of a refusal. -/
def message : LineProblem → String
  | unmatchedEnd => "unmatched END (no open LOOP)"
  | unknownCommand text => "unknown command: " ++ text
  | missingData => "SEND is missing data"
  | emptyData => "SEND payload is empty"
  | missingNumber role => "missing " ++ role.name
  | invalidNumber role text => "invalid " ++ role.name ++ ": " ++ text
  | negativeDelay ms => "invalid delay: " ++ toString ms ++ " (must not be negative)"
  | longDelay ms =>
    "delay too large: " ++ toString ms ++ "ms (max " ++ toString maxDelay ++ "ms)"
  | smallCount count =>
    "invalid loop count: " ++ toString count ++ " (min " ++ toString minCount ++ ")"
  | largeCount count =>
    "loop count too large: " ++ toString count ++ " (max " ++ toString maxCount ++ ")"
  | unclosedLoops count line =>
    "missing " ++ toString count ++ " END (LOOP at line " ++ toString line ++ " is never closed)"

end LineProblem

/-- Why the file system refuses an operation. -/
inductive FileProblem where
  | notFound
  | alreadyThere
  | notADirectory
  | isADirectory
  | nameTooLong
  deriving DecidableEq, Repr

namespace FileProblem

/-- The system's number and words for the problem. -/
def text : FileProblem → String
  | notFound => "[Errno 2] No such file or directory"
  | alreadyThere => "[Errno 17] File exists"
  | notADirectory => "[Errno 20] Not a directory"
  | isADirectory => "[Errno 21] Is a directory"
  | nameTooLong => "[Errno 36] File name too long"

def kind : FileProblem → Kind
  | notFound => .fileNotFound
  | alreadyThere => .fileExists
  | notADirectory => .notADirectory
  | isADirectory => .isADirectory
  | nameTooLong => .osError

end FileProblem

/-- What a settings document says wrong. -/
inductive SettingsProblem where
  | duplicateKey (key : String)
  | notYaml (path : String)
  | notAMapping (path : String)
  | schema (path : String) (place : List String) (text : String)
  | duplicateCommand (name path : String)
  | badHex (index : Nat) (name data path : String)
  | badScriptName (name : String)
  deriving DecidableEq, Repr

/-- The wording of what is wrong with a settings document. -/
def SettingsProblem.message : SettingsProblem → String
  | duplicateKey key => "Duplicate key '" ++ key ++ "' in YAML document"
  | notYaml path => "Invalid YAML in " ++ path
  | notAMapping path => "Settings file " ++ path ++ " must contain a mapping at root"
  | schema path place text =>
    let joined := ".".intercalate place
    let suffix := if joined.isEmpty then "" else " (" ++ joined ++ ")"
    "Schema validation failed for " ++ path ++ suffix ++ ": " ++ text
  | duplicateCommand name path => "Duplicate command name '" ++ name ++ "' in " ++ path
  | badHex index name data path =>
    "commands." ++ toString index ++ " (" ++ name ++ ") has invalid hex data '" ++ data ++
      "' in " ++ path
  | badScriptName name =>
    "Script name '" ++ name ++ "' may only contain letters, digits, '.', '_' and '-'"

/-- A file that could not be used, and for what. -/
inductive FileRole where
  | readSettings
  | writeSettings
  | readScript
  | writeScript
  | deleteScript
  | writeLog
  deriving DecidableEq, Repr

def FileRole.action : FileRole → String
  | readSettings => "read settings file"
  | writeSettings => "write settings file"
  | readScript => "read script file"
  | writeScript => "write script file"
  | deleteScript => "delete script file"
  | writeLog => "write log file"

/-- A fault, by its cause. -/
inductive Fault where
  -- Payloads
  | noHexDigits
  | oddHexDigits (count : Nat)
  | hexPayload (text : String)
  | dataFormat (name : String)
  | lineEnding (name : String)
  -- Scripts
  | emptyScript
  | scriptLine (line : Nat) (problem : LineProblem)
  | scriptBusy
  -- Execution
  | noCommands
  | stopped (index total : Nat) (inDelay : Bool)
  | runaway (index total : Nat) (limit : Int)
  | sendFailed (index total : Nat) (cause : Fault)
  | strayEnd (index total : Nat)
  | crossedEnd (index total : Nat) (named opened : Int)
  | unknownCommand (index total : Nat) (name : String)
  | openLoops (index total count : Nat)
  -- Session
  | notConnected
  | connectionLost
  | emptyPayload
  | sessionBusy (device phase : String)
  | badBaudRate (rate : Int)
  | badDataBits (bits : Int)
  | badStopBits (bits : Int)
  | badParity (parity : String)
  | badFlowControl (control : String)
  | openRefused (device : String) (cause : Fault)
  | writeRefused (device : String) (cause : Fault)
  -- Serial line
  | unsupportedSetting (device : String) (cause : Fault)
  | writeTimedOut (device : String)
  | portNotOpen (device : String)
  | noPorts
  | severalPorts (devices : List String)
  | severalMatches (hint : String) (ports : List String)
  -- Service
  | readingFailed (cause : Fault)
  | twoScripts
  | noScript
  | unknownScript (name : String) (available : List String)
  | invalidScript (name : String) (reason : String)
  | unknownSavedCommand (name : String) (available : List String)
  -- Settings and files
  | settings (problem : SettingsProblem)
  | fileRefused (role : FileRole) (path : String) (cause : Fault)
  -- From outside
  | file (problem : FileProblem) (path : String)
  | badBytes (flaw : Utf8.Flaw)
  | longNumber (digits : Nat)
  | document (flaw : Yaml.Flaw)
  | noSuchKey (shown : String)
  | cancelled
  | external (kind : Kind) (text : String)
  deriving Repr

namespace Fault

def kind : Fault → Kind
  | noHexDigits | oddHexDigits _ | hexPayload _ => .hexFormat
  | dataFormat _ | lineEnding _ => .format
  | emptyScript | noCommands => .emptyScript
  | scriptLine _ problem => if problem.isRange then .scriptRange else .scriptSyntax
  | scriptBusy => .scriptBusy
  | stopped _ _ _ => .executionCancelled
  | runaway _ _ _ => .runaway
  | sendFailed _ _ _ => .sendFailed
  | strayEnd _ _ | crossedEnd _ _ _ _ | unknownCommand _ _ _ | openLoops _ _ _ => .unbalanced
  | notConnected | connectionLost => .notConnected
  | emptyPayload => .emptyPayload
  | sessionBusy _ _ => .sessionBusy
  | badBaudRate _ | badDataBits _ | badStopBits _ | badParity _ | badFlowControl _
  | openRefused _ _ | unsupportedSetting _ _ => .openFailed
  | writeRefused _ _ | writeTimedOut _ | portNotOpen _ => .writeFailed
  | noPorts | severalPorts _ | severalMatches _ _ => .unavailable
  | readingFailed _ => .transport
  | twoScripts | noScript | unknownScript _ _ | invalidScript _ _ => .script
  | unknownSavedCommand _ _ => .settings
  | settings _ => .settingsInvalid
  | fileRefused _ _ _ => .settingsLoad
  | file problem _ => problem.kind
  | badBytes _ => .decode
  | longNumber _ => .value
  | document flaw => flaw.kind
  | noSuchKey _ => .key
  | cancelled => .cancelled
  | external kind _ => kind

/-- Names in a row, or a word for none. -/
def listing (names : List String) : String :=
  if names.isEmpty then "<none>" else ", ".intercalate names

/-- Where in a script an execution stopped. -/
def atStep (index total : Nat) (text : String) : String :=
  "step " ++ toString (index + 1) ++ " of " ++ toString total ++ ": " ++ text

def message : Fault → String
  | noHexDigits => "Hex string contains no hex digits"
  | oddHexDigits count =>
    "Hex string must have an even number of digits (got " ++ toString count ++ ")"
  | hexPayload text => "Invalid hex payload '" ++ text ++ "'"
  | dataFormat name => "Unsupported data format '" ++ name ++ "'"
  | lineEnding name =>
    "Unsupported line ending '" ++ name ++ "'. Allowed: none, LF, CR, CRLF"
  | emptyScript => "Script is empty"
  | scriptLine line problem => "line " ++ toString line ++ ": " ++ problem.message
  | scriptBusy => "A script is already running"
  | noCommands => "No commands to execute"
  | stopped index total inDelay =>
    atStep index total (if inDelay then "execution cancelled during delay" else "execution cancelled")
  | runaway index total limit =>
    atStep index total ("exceeded " ++ toString limit ++ " steps (possible runaway loop)")
  | sendFailed index total cause => atStep index total ("send failed: " ++ cause.message)
  | strayEnd index total => atStep index total "END without an open LOOP"
  | crossedEnd index total named opened =>
    atStep index total ("END pairs with command " ++ toString (named + 1) ++
      ", open LOOP is command " ++ toString (opened + 1))
  | unknownCommand index total name => atStep index total ("unknown command type " ++ name)
  | openLoops index total count =>
    atStep index total (toString count ++ " loop(s) still open at end of script")
  | notConnected => "Serial port is not connected"
  | connectionLost => "Serial port disconnected before the write started"
  | emptyPayload => "Refusing to send an empty payload"
  | sessionBusy device phase => "Session already holds " ++ device ++ " (" ++ phase ++ ")"
  | badBaudRate rate => "Invalid baud rate " ++ toString rate
  | badDataBits bits => "Invalid data bits " ++ toString bits ++ " (allowed: 7, 8)"
  | badStopBits bits => "Invalid stop bits " ++ toString bits ++ " (allowed: 1, 2)"
  | badParity parity => "Invalid parity '" ++ parity ++ "' (allowed: none, even, odd)"
  | badFlowControl control =>
    "Invalid flow control '" ++ control ++ "' (allowed: none, hardware)"
  | openRefused device cause => "Could not open " ++ device ++ ": " ++ cause.message
  | writeRefused device cause => "Write to " ++ device ++ " failed: " ++ cause.message
  | unsupportedSetting device cause =>
    "Unsupported serial setting " ++ cause.message ++ " for " ++ device
  | writeTimedOut device => "Write to " ++ device ++ " timed out"
  | portNotOpen device => device ++ " is not open"
  | noPorts => "No serial ports found. Connect a device or pass --port."
  | severalPorts devices =>
    "Multiple serial ports found: " ++ ", ".intercalate devices ++ ". Use --port to choose one."
  | severalMatches hint ports =>
    "Multiple ports match '" ++ hint ++ "': " ++ ", ".intercalate ports ++
      ". Use the full device path."
  | readingFailed cause => "Reading failed: " ++ cause.message
  | twoScripts => "Pass either a script file or a saved script name, not both"
  | noScript => "No script given. Pass a script file or --script NAME"
  | unknownScript name available =>
    "Unknown script '" ++ name ++ "'. Available: " ++ listing available
  | invalidScript name reason =>
    "Refusing to save invalid script '" ++ name ++ "': " ++ reason
  | unknownSavedCommand name available =>
    "Unknown command '" ++ name ++ "'. Available: " ++ listing available
  | settings problem => problem.message
  | fileRefused role path cause =>
    "Could not " ++ role.action ++ " " ++ path ++ ": " ++ cause.message
  | file problem path => problem.text ++ ": " ++ Text.quotedString path
  | badBytes flaw => flaw.message
  | longNumber digits => Whole.tooLongMessage digits
  | document flaw => flaw.message
  | noSuchKey shown => shown
  | cancelled => ""
  | external kind text => if kind = .key then Text.quotedString text else text

/-- The script line that a fault points at. -/
def line? : Fault → Option Nat
  | scriptLine line _ => some line
  | _ => none

/-- The command that an execution stopped at, and the number of commands. -/
def place? : Fault → Option (Nat × Nat)
  | stopped index total _ | runaway index total _ | sendFailed index total _
  | strayEnd index total | crossedEnd index total _ _ | unknownCommand index total _
  | openLoops index total _ => some (index, total)
  | _ => none

/-- The fault that a failed send or a refused open carries with it. -/
def cause? : Fault → Option Fault
  | sendFailed _ _ cause | openRefused _ cause | unsupportedSetting _ cause => some cause
  | _ => none

/-- Whether a fault belongs to the console's own families. -/
def isOwn (fault : Fault) : Bool :=
  fault.kind.isOwn

/-- Whether a fault is an ordinary failure. -/
def isOrdinary (fault : Fault) : Bool :=
  fault.kind.isOrdinary

end Fault

end SerialConsole
