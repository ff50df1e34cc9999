import SerialConsole.Fault
import SerialConsole.Text.Lowercase

set_option autoImplicit false

/-!
# Serial ports

The ports of a machine, and the choice of one by a hint: the full device name, a part of one of
the three texts of a port, or a name that is not listed. The choice does not depend on the order
in which the ports are found.
-/
namespace SerialConsole

/-- A serial port and what is known about it. -/
structure Port where
  device : String
  description : String
  hardware : String
  deriving DecidableEq, Repr, Inhabited

namespace Port

/-- The ports in the order of their device names. -/
def sorted (ports : List Port) : List Port :=
  Text.sortOn Port.device ports

/-- Whether one text holds another, small and capital letters being alike. -/
def holds (part text : String) : Bool :=
  Text.contains (Text.lower part.toList) (Text.lower text.toList)

/-- Whether one of the three texts of a port holds the hint. -/
def fits (hint : String) (port : Port) : Bool :=
  holds hint port.device || holds hint port.description || holds hint port.hardware

def title (port : Port) : String :=
  port.device ++ " (" ++ port.description ++ ")"

/-- The device name that a hint means; `ports` are in order. -/
def chooseBy (ports : List Port) (hint : String) : Except Fault String :=
  if ports.any fun port => port.device = hint then .ok hint
  else
    match ports.filter (fits hint) with
    | [] => .ok hint
    | [port] => .ok port.device
    | several => .error (.severalMatches hint (several.map title))

/-- The only port, when there is no hint; `ports` are in order. -/
def chooseOnly (ports : List Port) : Except Fault String :=
  match ports with
  | [] => .error .noPorts
  | [port] => .ok port.device
  | several => .error (.severalPorts (several.map Port.device))

/-- The device name to use, with ports found in any order. An empty hint is no hint. -/
def choose (found : List Port) (hint : Option String) : Except Fault String :=
  match hint with
  | none => chooseOnly (sorted found)
  | some hint =>
    if hint = "" then chooseOnly (sorted found) else chooseBy (sorted found) hint

end Port

end SerialConsole
