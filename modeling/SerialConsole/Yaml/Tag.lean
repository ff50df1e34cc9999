import SerialConsole.Text.Blank

set_option autoImplicit false

/-!
# Tags

The tags that documents use, and the tag of a plain scalar, which its text decides. Words such as
`on` and `true` are text.
-/
namespace SerialConsole.Yaml

def standardTag (name : String) : String :=
  "tag:yaml.org,2002:" ++ name

def standardName? (tag : String) : Option String :=
  let start := (standardTag "").toList
  if start.isPrefixOf tag.toList then some (String.ofList (tag.toList.drop start.length)) else none

namespace Plain

/-- A text without one line feed at its end. -/
def dropLineFeed (text : List Char) : List Char :=
  if text.getLast? == some '\n' then text.dropLast else text

/-- Whether a character is a digit or an underscore. -/
def isGrouped (c : Char) : Bool :=
  c.isDigit || c == '_'

/-- A text without a sign before it. -/
def unsigned : List Char → List Char
  | '-' :: rest => rest
  | '+' :: rest => rest
  | text => text

/-- Whether a text starts with a digit and goes on with characters that fit. -/
def startsDigit (fits : Char → Bool) : List Char → Bool
  | c :: rest => c.isDigit && rest.all fits
  | [] => false

/-- Whether a text is empty or an exponent with a sign. -/
def isExponent : List Char → Bool
  | [] => true
  | mark :: sign :: digits =>
    (mark == 'e' || mark == 'E') && (sign == '-' || sign == '+') && !digits.isEmpty &&
      digits.all Char.isDigit
  | _ => false

/-- Whether a text is one or two digits below sixty. -/
def isSixtieth (text : List Char) : Bool :=
  match text with
  | [c] => c.isDigit
  | [tens, c] => '0' ≤ tens && tens ≤ '5' && c.isDigit
  | _ => false

/-- Whether pieces between colons are a whole number in base sixty. -/
def isSexagesimal (first : Char → Bool) : List (List Char) → Bool
  | (c :: more) :: part :: parts =>
    first c && more.all isGrouped && (part :: parts).all isSixtieth
  | _ => false

/-- Whether a text is a number with a point. -/
def isPointed (text : List Char) : Bool :=
  let whole := text.takeWhile (· != '.')
  match text.dropWhile (· != '.') with
  | _ :: rest =>
    if whole.isEmpty then
      match rest with
      | c :: more => c.isDigit && isExponent (more.dropWhile isGrouped)
      | [] => false
    else
      (startsDigit isGrouped whole && isExponent (rest.dropWhile isGrouped)) ||
        (isSexagesimal Char.isDigit (Text.splitAt ':' whole) && rest.all isGrouped)
  | [] => false

/-- Whether a text is a floating-point number. A number that starts with its point has no sign. -/
def isFloat (text : List Char) : Bool :=
  let rest := unsigned text
  let word := String.ofList rest
  [".inf", ".Inf", ".INF"].contains word ||
    (rest.length == text.length && [".nan", ".NaN", ".NAN"].contains word) ||
    ((rest.length == text.length || rest.head? != some '.') && isPointed rest)

/-- Whether a text is a whole number, in base two, eight, ten, sixteen or sixty. -/
def isInteger (text : List Char) : Bool :=
  match unsigned text with
  | [] => false
  | ['0'] => true
  | '0' :: 'b' :: digits => !digits.isEmpty && digits.all fun c => c == '0' || c == '1' || c == '_'
  | '0' :: 'x' :: digits =>
    !digits.isEmpty && digits.all fun c => isGrouped c || ('a' ≤ c && c ≤ 'f') || ('A' ≤ c && c ≤ 'F')
  | '0' :: digits => digits.all fun c => ('0' ≤ c && c ≤ '7') || c == '_'
  | first :: rest =>
    first.isDigit && (rest.all isGrouped ||
      isSexagesimal (fun c => '1' ≤ c && c ≤ '9') (Text.splitAt ':' (first :: rest)))

/-- Whether a text writes nothing. -/
def isNull (text : List Char) : Bool :=
  ["", "~", "null", "Null", "NULL"].contains (String.ofList text)

end Plain

/-- The parts of a date, and of a time of day if there is one, as they are written. -/
structure DateText where
  year : List Char
  month : List Char
  day : List Char
  time : Option (List Char × List Char × List Char × List Char) := none
  utc : Bool := false
  offset : Option (Char × List Char × List Char) := none
  deriving Repr

namespace DateText

/-- A number of digits at the start of a text, and the rest. -/
def digits? (least most : Nat) (text : List Char) : Option (List Char × List Char) :=
  let found := (text.takeWhile Char.isDigit).take most
  if least ≤ found.length then some (found, text.drop found.length) else none

/-- A text after a character that it has to start with. -/
def after? (mark : Char) : List Char → Option (List Char)
  | c :: rest => if c == mark then some rest else none
  | [] => none

/-- A date before a time zone: nothing, `Z`, or a sign with hours and perhaps minutes. -/
def zone? (date : DateText) (text : List Char) : Option DateText :=
  match text.dropWhile fun c => c == ' ' || c == '\t' with
  | ['Z'] => some { date with utc := true }
  | sign :: rest =>
    if sign == '-' || sign == '+' then do
      let (hour, rest) ← digits? 1 2 rest
      match rest with
      | [] => some { date with offset := some (sign, hour, []) }
      | rest => do
        let rest ← after? ':' rest
        let (minute, rest) ← digits? 2 2 rest
        if rest.isEmpty then some { date with offset := some (sign, hour, minute) } else none
    else none
  | [] => if text.isEmpty then some date else none

/-- A date before a time of day. -/
def time? (date : DateText) (text : List Char) : Option DateText := do
  let rest ← match text with
    | 'T' :: rest => some rest
    | 't' :: rest => some rest
    | c :: rest => if c == ' ' || c == '\t' then
        some (rest.dropWhile fun c => c == ' ' || c == '\t') else none
    | [] => none
  let (hour, rest) ← digits? 1 2 rest
  let rest ← after? ':' rest
  let (minute, rest) ← digits? 2 2 rest
  let rest ← after? ':' rest
  let (second, rest) ← digits? 2 2 rest
  let (fraction, rest) := match rest with
    | '.' :: rest => (rest.takeWhile Char.isDigit, rest.dropWhile Char.isDigit)
    | rest => ([], rest)
  zone? { date with time := some (hour, minute, second, fraction) } rest

/-- The parts of a text that is a date, with or without a time of day. -/
def ofText? (text : List Char) : Option DateText := do
  let text := Plain.dropLineFeed text
  let (year, rest) ← digits? 4 4 text
  let rest ← after? '-' rest
  let (month, rest) ← digits? 1 2 rest
  let rest ← after? '-' rest
  let (day, rest) ← digits? 1 2 rest
  let date : DateText := { year, month, day }
  if rest.isEmpty then some date else date.time? rest

/-- Whether a plain text is a date. Without a time of day, month and day have two digits each. -/
def isDate (text : List Char) : Bool :=
  match ofText? text with
  | some date => date.time.isSome || (date.month.length == 2 && date.day.length == 2)
  | none => false

end DateText

/-- The name of the tag that the text of a plain scalar gives it. -/
def plainTag (text : List Char) : String :=
  let bare := Plain.dropLineFeed text
  if text.head? == some '\n' then "str"
  else if Plain.isFloat bare then "float"
  else if Plain.isInteger bare then "int"
  else if bare == ['<', '<'] then "merge"
  else if Plain.isNull bare then "null"
  else if DateText.isDate text then "timestamp"
  else if bare == ['='] then "value"
  else "str"

end SerialConsole.Yaml
