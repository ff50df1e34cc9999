import SerialConsole.Script.Execution
import SerialConsole.Script.Parser
import SerialConsole.Session.Basic

set_option autoImplicit false

/-!
# Script runners

A runner executes one script at a time on a session. It remembers whether a stop was requested
and the place of the current step.
-/
namespace SerialConsole

/-- A script that is being run: its commands and how its data is sent. -/
structure Job where
  plan : Script.Plan
  format : String
  ending : String

structure Runner where
  running : Bool := false
  stopRequested : Bool := false
  position : Nat × Nat := (0, 0)
  deriving DecidableEq, Repr, Inhabited

namespace Runner

/-- Starts a script, unless one is running or the script is not valid. -/
def start (runner : Runner) (script format ending : String) :
    Except Fault (Runner × Job × Note) :=
  if runner.running then .error .scriptBusy
  else
    match Script.parse script.toList with
    | .error fault => .error fault
    | .ok commands =>
      .ok ({ runner with running := true, stopRequested := false },
        ⟨{ commands := commands.toArray }, format, ending⟩,
        ⟨.info, "Running script with " ++ toString commands.length ++ " commands"⟩)

/-- Requests a stop. It has an effect on the script that is running, if one is. -/
def stop (runner : Runner) : Runner × List Note :=
  ({ runner with stopRequested := true },
    if runner.running then [⟨.info, "Stop requested for running script"⟩] else [])

def announce (runner : Runner) (position total : Nat) : Runner :=
  { runner with position := (position, total) }

/-- The runner after a script has ended, in whatever way. -/
def finish (runner : Runner) : Runner :=
  { runner with running := false, position := (0, 0) }

end Runner

end SerialConsole
