set_option autoImplicit false

/-!
# Binary floating point, exactly

A finite double is a whole number of units of 2 to the power -1074. Sums, products and quotients
are taken exactly on units and then rounded to fifty-three significant bits, a half going to the
even neighbour.
-/
namespace SerialConsole

/-- A double: not a number, infinite, or a sign and a number of units. -/
inductive Double where
  | nan
  | infinite (negative : Bool)
  | finite (negative : Bool) (units : Nat)
  deriving DecidableEq, Repr, Inhabited

namespace Double

/-- The number of units in one. -/
def one : Nat := Nat.pow 2 1074

/-- The first number of units that is too large for a finite double. -/
def limit : Nat := Nat.pow 2 2098

/-- The whole number nearest to a quotient, a half going to the even neighbour. -/
def roundHalfEven (num den : Nat) : Nat :=
  let quotient := num / den
  let twice := 2 * (num % den)
  if twice < den then quotient
  else if den < twice then quotient + 1
  else quotient + quotient % 2

/-- The number of bits of a quotient beyond the fifty-third. -/
def excessBits (quotient : Nat) : Nat :=
  if quotient < Nat.pow 2 53 then 0 else quotient.log2 - 52

/-- The representable number of units nearest to a quotient. -/
def roundUnits (num den : Nat) : Nat :=
  let shift := excessBits (num / den)
  roundHalfEven num (den * Nat.pow 2 shift) * Nat.pow 2 shift

/-- A quotient of units as a double, infinite when it is too large. -/
def ofUnits (negative : Bool) (num den : Nat) : Double :=
  let units := roundUnits num den
  if units < limit then .finite negative units else .infinite negative

/-- The double nearest to a fraction. -/
def ofFraction (negative : Bool) (num den : Nat) : Double :=
  ofUnits negative (num * one) den

/-- The double nearest to a whole number. -/
def ofInt (n : Int) : Double :=
  ofFraction (n < 0) n.natAbs 1

/-- A double from its sign and a number of units that is representable. -/
def ofSigned (units : Int) : Double :=
  ofUnits (units < 0) units.natAbs 1

def signedUnits? : Double → Option Int
  | .finite negative units => some (if negative then -(units : Int) else units)
  | _ => none

/-- Whether the sign of a double is minus. -/
def isNegative : Double → Bool
  | .nan => false
  | .infinite negative => negative
  | .finite negative _ => negative

def neg : Double → Double
  | .nan => .nan
  | .infinite negative => .infinite (!negative)
  | .finite negative units => .finite (!negative) units

/-- Sum of two doubles. -/
def add : Double → Double → Double
  | .nan, _ => .nan
  | _, .nan => .nan
  | .infinite a, .infinite b => if a == b then .infinite a else .nan
  | .infinite a, _ => .infinite a
  | _, .infinite b => .infinite b
  | .finite a m, .finite b n =>
    if a == b then ofUnits a (m + n) 1
    else if n < m then ofUnits a (m - n) 1
    else if m < n then ofUnits b (n - m) 1
    else .finite false 0

/-- Difference of two doubles. -/
def sub (x y : Double) : Double :=
  add x (neg y)

/-- Product of a finite double with a natural number, rounded once. -/
def scale (x : Double) (n : Nat) : Double :=
  match x with
  | .finite negative units => ofUnits negative (units * n) 1
  | other => other

/-- Whether one double is below another; never with one that is not a number. -/
def lt : Double → Double → Bool
  | .nan, _ => false
  | _, .nan => false
  | .infinite a, .infinite b => a && !b
  | .infinite a, .finite _ _ => a
  | .finite _ _, .infinite b => !b
  | .finite a m, .finite b n =>
    let x : Int := if a then -(m : Int) else m
    let y : Int := if b then -(n : Int) else n
    x < y

def zero : Double := .finite false 0

def isFinite : Double → Bool
  | .finite _ _ => true
  | _ => false

/-- Whether a double is above zero. -/
def isPositive (x : Double) : Bool :=
  lt zero x

/-- The smaller of two doubles, the first when they are equal. -/
def min (x y : Double) : Double :=
  if lt y x then y else x

/-- The sixty-four bits of a double. -/
def toBits (x : Double) : Nat :=
  let sign := if x.isNegative then Nat.pow 2 63 else 0
  match x with
  | .nan => 0x7FF8000000000000
  | .infinite _ => sign + 0x7FF0000000000000
  | .finite _ units =>
    if units < Nat.pow 2 52 then sign + units
    else
      let shift := units.log2 - 52
      sign + (shift + 1) * Nat.pow 2 52 + (units / Nat.pow 2 shift - Nat.pow 2 52)

/-- The double with the given sixty-four bits. -/
def ofBits (bits : Nat) : Double :=
  let negative := decide (bits / Nat.pow 2 63 % 2 = 1)
  let field := bits / Nat.pow 2 52 % Nat.pow 2 11
  let fraction := bits % Nat.pow 2 52
  if field = 0x7FF then
    if fraction = 0 then .infinite negative else .nan
  else if field = 0 then .finite negative fraction
  else .finite negative ((Nat.pow 2 52 + fraction) * Nat.pow 2 (field - 1))

def isWhole : Double → Bool
  | .finite _ units => units % one = 0
  | _ => false

/-- The whole part of a finite double, toward zero. -/
def toInt? : Double → Option Int
  | .finite negative units => some (if negative then -(units / one : Nat) else (units / one : Nat))
  | _ => none

end Double

end SerialConsole
