import SerialConsole.Hex
import SerialConsole.LineSettings

set_option autoImplicit false

/-!
# Settings

What the operator keeps in the settings file: how the line is set up, the usual port, and commands
that can be sent by name.
-/
namespace SerialConsole

/-- A command that is sent by name. -/
structure SavedCommand where
  name : String
  data : String
  format : String := "text"
  description : Option String := none
  deriving DecidableEq, Repr, Inhabited

structure Settings where
  line : LineSettings := {}
  port : Option String := none
  commands : List SavedCommand := []
  deriving DecidableEq, Repr, Inhabited

namespace Settings

def command? (settings : Settings) (name : String) : Option SavedCommand :=
  settings.commands.find? fun command => command.name = name

/-- The commands in the order of their names. -/
def sortedCommands (settings : Settings) : List SavedCommand :=
  Text.sortOn SavedCommand.name settings.commands

/-- Whether the data of a command can be sent in its format. -/
def isSendable (command : SavedCommand) : Bool :=
  command.format ≠ "hex" || Hex.isValid command.data.toList

/-- The first command that has the name of an earlier one, or whose data cannot be sent; `index`
is the number of the first command in the list and `seen` holds the earlier names. -/
def problemIn (source : String) (seen : List String) (index : Nat) :
    List SavedCommand → Option SettingsProblem
  | [] => none
  | command :: rest =>
    if seen.contains command.name then some (.duplicateCommand command.name source)
    else if !isSendable command then some (.badHex index command.name command.data source)
    else problemIn source (command.name :: seen) (index + 1) rest

end Settings

end SerialConsole
