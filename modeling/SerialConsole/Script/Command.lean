import SerialConsole.Fault

set_option autoImplicit false

/-!
# Script commands

A script is a flat row of commands in which every LOOP knows the place of its END and every END
the place of its LOOP. Places are counted from zero.
-/
namespace SerialConsole.Script

/-- One command and the script line that it comes from. -/
inductive Command where
  | send (value : String) (line : Nat)
  | delay (ms : Int) (line : Nat)
  | loop (count : Int) (endAt : Int) (line : Nat)
  | loopEnd (startAt : Int) (line : Nat)
  | unknown (name : String)
  deriving DecidableEq, Repr, Inhabited

def Command.line : Command → Nat
  | .send _ line => line
  | .delay _ line => line
  | .loop _ _ line => line
  | .loopEnd _ line => line
  | .unknown _ => 0

/-- The command with the place of its END set, if it is a LOOP. -/
def Command.closeAt (place : Nat) : Command → Command
  | .loop count _ line => .loop count place line
  | other => other

end SerialConsole.Script
