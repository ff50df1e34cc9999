import SerialConsole.Numeral.Double
import SerialConsole.Text.Blank
import SerialConsole.Text.Digit

set_option autoImplicit false

/-!
# Decimal numbers in text

Reading a decimal number, with a point and an exponent, as the nearest double. Single underscores
may stand between two digits, blanks around the number, and the words for infinity and for no
number are known in small and capital letters.
-/
namespace SerialConsole.Decimal

/-- The digits at the start of a text, with single underscores between them, and the rest. -/
def takeDigits : List Char → List Nat × List Char
  | [] => ([], [])
  | c :: rest =>
    match Text.digitValue? c with
    | none => ([], c :: rest)
    | some digit =>
      match rest with
      | '_' :: next :: rest =>
        if Text.isDigit next then
          let (digits, rest) := takeDigits (next :: rest)
          (digit :: digits, rest)
        else ([digit], '_' :: next :: rest)
      | rest =>
        let (digits, rest) := takeDigits rest
        (digit :: digits, rest)

def takeSign : List Char → Bool × List Char
  | '-' :: rest => (true, rest)
  | '+' :: rest => (false, rest)
  | text => (false, text)

/-- The power beyond which a number is infinite or zero whatever its digits are. -/
def powerLimit : Int := 400

/-- The double nearest to digits times a power of ten. -/
def scaled (negative : Bool) (digits : List Nat) (exponent : Int) : Double :=
  let significant := digits.dropWhile (· == 0)
  let power := (significant.length : Int) + exponent
  if significant.isEmpty then .finite negative 0
  else if powerLimit < power then .infinite negative
  else if power < -powerLimit then .finite negative 0
  else
    let value := Text.digitsValue significant
    if 0 ≤ exponent then Double.ofFraction negative (value * Nat.pow 10 exponent.toNat) 1
    else Double.ofFraction negative value (Nat.pow 10 (-exponent).toNat)

/-- An exponent that takes up the whole rest of a text. -/
def exponent? : List Char → Option Int
  | [] => some 0
  | mark :: rest =>
    if mark = 'e' ∨ mark = 'E' then
      let (negative, rest) := takeSign rest
      match takeDigits rest with
      | ([], _) => none
      | (digits, []) =>
        let value : Int := Text.digitsValue digits
        some (if negative then -value else value)
      | _ => none
    else none

/-- A number without its sign. -/
def unsigned? (negative : Bool) (text : List Char) : Option Double :=
  let (whole, rest) := takeDigits text
  let (part, rest) := match rest with
    | '.' :: rest => takeDigits rest
    | rest => ([], rest)
  if whole.isEmpty && part.isEmpty then none
  else (exponent? rest).map fun exponent =>
    scaled negative (whole ++ part) (exponent - part.length)

/-- The letters of a text in their small form. -/
def small (text : List Char) : String :=
  String.ofList (text.map Char.toLower)

/-- A decimal number as a person types it. -/
def read? (text : List Char) : Option Double :=
  let (negative, rest) := takeSign (Text.trim text)
  match small rest with
  | "inf" | "infinity" => some (.infinite negative)
  | "nan" => some .nan
  | _ => unsigned? negative rest

end SerialConsole.Decimal
