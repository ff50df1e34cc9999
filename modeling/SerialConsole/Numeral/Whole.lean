import SerialConsole.Text.Blank
import SerialConsole.Text.Digit

set_option autoImplicit false

/-!
# Whole numbers in text

Reading a whole number in base ten, with digits of any script, and the limit on its length.
-/
namespace SerialConsole.Whole

/-- The most digits that a number in base ten may have. -/
def digitLimit : Nat := 4300

/-- Why a text is not taken as a whole number. -/
inductive Refusal where
  | malformed
  | tooLong (digits : Nat)
  deriving DecidableEq, Repr

def splitSign : List Char → Bool × List Char
  | '-' :: rest => (true, rest)
  | '+' :: rest => (false, rest)
  | text => (false, text)

/-- The digits of a text that holds nothing else. -/
def digits? (text : List Char) : Option (List Nat) :=
  text.mapM Text.digitValue?

/-- The number with a sign and digits, unless there are too many. -/
def ofDigits (negative : Bool) (digits : List Nat) : Except Refusal Int :=
  if digitLimit < digits.length then .error (.tooLong digits.length)
  else
    let value := Text.digitsValue digits
    .ok (if negative then -(value : Int) else value)

/-- The digits of a text in which single underscores may stand between two digits. -/
def groupedDigits? : List Char → Option (List Nat)
  | [] => none
  | [c] => (Text.digitValue? c).map ([·])
  | c :: '_' :: rest => do
    let digit ← Text.digitValue? c
    let digits ← groupedDigits? rest
    pure (digit :: digits)
  | c :: rest => do
    let digit ← Text.digitValue? c
    let digits ← groupedDigits? rest
    pure (digit :: digits)

/-- A whole number as a person types it: blanks around it, a sign, and digits that may be grouped
by underscores. -/
def read (text : List Char) : Except Refusal Int :=
  let (negative, rest) := splitSign (Text.trim text)
  match groupedDigits? rest with
  | some digits => ofDigits negative digits
  | none => .error .malformed

/-- The message for a number that has too many digits. -/
def tooLongMessage (digits : Nat) : String :=
  "Exceeds the limit (" ++ toString digitLimit ++
    " digits) for integer string conversion: value has " ++ toString digits ++
    " digits; use sys.set_int_max_str_digits() to increase the limit"

end SerialConsole.Whole
