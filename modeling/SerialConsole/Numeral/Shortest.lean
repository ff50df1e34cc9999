import SerialConsole.Numeral.Double

set_option autoImplicit false

/-!
# Shortest decimals

The decimal that a double is shown with: the fewest significant digits that read back as the same
double, and of those the nearest to it. A double stands for the numbers between the midpoints to
its two neighbours; a midpoint belongs to it when its significand is even.
-/
namespace SerialConsole.Double

/-- A positive decimal number: `digits` times ten to the power `exponent`. -/
structure Decimal where
  digits : Nat
  exponent : Int
  deriving DecidableEq, Repr, Inhabited

/-- The distance from a number of units to the next larger representable one. -/
def spacing (units : Nat) : Nat :=
  Nat.pow 2 (units.log2 - 52)

/-- The distance from a number of units to the next smaller representable one. -/
def spacingBelow (units : Nat) : Nat :=
  if units = Nat.pow 2 units.log2 ∧ 53 ≤ units.log2 then spacing units / 2 else spacing units

/-- Whether the number of half units `num / den` reads back as the given number of units. -/
def readsBack (units num den : Nat) : Bool :=
  let low := (2 * units - spacingBelow units) * den
  let high := (2 * units + spacing units) * den
  if units / spacing units % 2 = 0 then low ≤ num && num ≤ high else low < num && num < high

/-- The decimal exponent of a positive number of units: the power of ten of its first digit. -/
def leadingExponent (units : Nat) : Int :=
  if one ≤ units then ((toString (units / one)).length : Int) - 1
  else
    match (List.range 400).find? fun k => one ≤ units * Nat.pow 10 (k + 1) with
    | some k => -((k : Int) + 1)
    | none => -400

/-- The number of half units of a decimal, as a fraction. -/
def halfUnits (decimal : Decimal) : Nat × Nat :=
  if 0 ≤ decimal.exponent then (decimal.digits * Nat.pow 10 decimal.exponent.toNat * 2 * one, 1)
  else (decimal.digits * 2 * one, Nat.pow 10 (-decimal.exponent).toNat)

/-- Whether a decimal reads back as the given number of units. -/
def isWrittenAs (units : Nat) (decimal : Decimal) : Bool :=
  let (num, den) := halfUnits decimal
  readsBack units num den

/-- The decimal of at most `count` significant digits that reads back and is nearest. -/
def withDigits? (units count : Nat) : Option Decimal :=
  let exponent := leadingExponent units - (count : Int) + 1
  let num := if 0 ≤ exponent then units else units * Nat.pow 10 (-exponent).toNat
  let den := if 0 ≤ exponent then one * Nat.pow 10 exponent.toNat else one
  let near := roundHalfEven num den
  let far := if near = num / den then near + 1 else num / den
  [near, far].map (Decimal.mk · exponent) |>.find? (isWrittenAs units)

/-- The decimal without zeros at its end. -/
def dropZeros : Nat → Decimal → Decimal
  | 0, decimal => decimal
  | fuel + 1, decimal =>
    if decimal.digits ≠ 0 ∧ decimal.digits % 10 = 0 then
      dropZeros fuel ⟨decimal.digits / 10, decimal.exponent + 1⟩
    else decimal

/-- The shortest decimal of a positive number of units. -/
def shortest (units : Nat) : Decimal :=
  let found := (List.range 17).findSome? fun n => withDigits? units (n + 1)
  dropZeros 20 (found.getD ⟨0, 0⟩)

/-- The decimal exponents that are written without an exponent: from the first to before the
second. -/
def positional : Int × Int := (-4, 16)

/-- Digits with a point behind the digit of the given power of ten. -/
def pointed (digits : List Char) (power : Int) : List Char :=
  if power < 0 then
    '0' :: '.' :: (List.replicate (-power - 1).toNat '0' ++ digits)
  else
    let whole := digits.take (power.toNat + 1)
    let rest := digits.drop (power.toNat + 1)
    whole ++ List.replicate (power.toNat + 1 - whole.length) '0' ++
      '.' :: (if rest.isEmpty then ['0'] else rest)

/-- An exponent, with a sign and at least two digits. -/
def exponentText (power : Int) : List Char :=
  let shown := (toString power.natAbs).toList
  'e' :: (if power < 0 then '-' else '+') :: (List.replicate (2 - shown.length) '0' ++ shown)

/-- Digits with an exponent; a point follows the first digit if there are more. -/
def scientific (digits : List Char) (power : Int) : List Char :=
  match digits with
  | [] => []
  | [digit] => digit :: exponentText power
  | digit :: rest => digit :: '.' :: rest ++ exponentText power

/-- The text of a positive number of units. -/
def unitsText (units : Nat) : List Char :=
  let decimal := shortest units
  let digits := (toString decimal.digits).toList
  let power := decimal.exponent + (digits.length : Int) - 1
  if positional.1 ≤ power ∧ power < positional.2 then pointed digits power
  else scientific digits power

def text (x : Double) : List Char :=
  let sign := if x.isNegative then ['-'] else []
  match x with
  | .nan => ['n', 'a', 'n']
  | .infinite _ => sign ++ ['i', 'n', 'f']
  | .finite _ units => sign ++ (if units = 0 then ['0', '.', '0'] else unitsText units)

end SerialConsole.Double
