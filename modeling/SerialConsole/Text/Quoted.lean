import SerialConsole.Text.Printable

set_option autoImplicit false

/-!
# Quoted text

The form in which a message shows a text value: single quotes unless the text holds one and no
double quote, and escapes for all that is not printable.
-/
namespace SerialConsole.Text

/-- One hexadecimal digit, in small letters. -/
def hexDigitLower (n : Nat) : Char :=
  if n < 10 then Char.ofNat (48 + n) else Char.ofNat (87 + n)

/-- The last `width` hexadecimal digits of a number, in small letters. -/
def hexLower : Nat → Nat → List Char
  | 0, _ => []
  | width + 1, n => hexLower width (n / 16) ++ [hexDigitLower (n % 16)]

/-- A character inside quotes. -/
def quoteChar (quote c : Char) : List Char :=
  let n := c.toNat
  if c == quote || c == '\\' then ['\\', c]
  else if c == '\n' then ['\\', 'n']
  else if c == '\r' then ['\\', 'r']
  else if c == '\t' then ['\\', 't']
  else if isPrintable c then [c]
  else if n ≤ 0xFF then '\\' :: 'x' :: hexLower 2 n
  else if n ≤ 0xFFFF then '\\' :: 'u' :: hexLower 4 n
  else '\\' :: 'U' :: hexLower 8 n

/-- The quote mark that a text is shown with. -/
def quoteMark (text : List Char) : Char :=
  if text.contains (Char.ofNat 39) && !text.contains (Char.ofNat 34) then Char.ofNat 34
  else Char.ofNat 39

/-- A text as a message shows it. -/
def quoted (text : List Char) : List Char :=
  quoteMark text :: text.flatMap (quoteChar (quoteMark text)) ++ [quoteMark text]

/-- A text as a message shows it, as a string. -/
def quotedString (text : String) : String :=
  String.ofList (quoted text.toList)

end SerialConsole.Text
