import SerialConsole.Fault
import SerialConsole.Numeral.Double

set_option autoImplicit false

/-!
# Sizes

Numbers of bytes with two decimals and a unit. The quotient by the unit is taken as a double, and
its exact value is rounded to hundredths, a half going to the even neighbour.
-/
namespace SerialConsole.Size

def units : List String := ["B", "KB", "MB", "GB"]

/-- The number of times a size fits the factor 1024, at most three. -/
def exponent (size : Int) : Nat :=
  if size < 1024 then 0 else if size < 1048576 then 1 else if size < 1073741824 then 2 else 3

/-- A double with two decimals. -/
def hundredths (negative : Bool) (num den : Nat) : String :=
  let count := Double.roundHalfEven (num * 100) den
  let cents := count % 100
  (if negative then "-" else "") ++ toString (count / 100) ++ "." ++
    toString (cents / 10) ++ toString (cents % 10)

/-- The text of a size, or a fault if it is beyond the range of doubles. -/
def format (size : Int) : Except Fault String :=
  if size = 0 then .ok "0 B"
  else if size = 1 then .ok "1 B"
  else
    let power := exponent size
    match Double.ofFraction (size < 0) size.natAbs (Nat.pow 1024 power) with
    | .finite negative amount =>
      .ok (hundredths negative amount Double.one ++ " " ++ units.getD power "")
    | _ => .error (.external .overflow "integer division result too large for a float")

end SerialConsole.Size
