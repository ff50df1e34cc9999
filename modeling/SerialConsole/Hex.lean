import SerialConsole.Fault

set_option autoImplicit false

/-!
# Hexadecimal text

Bytes as pairs of hexadecimal digits. Reading drops every character that is not a digit;
validation allows digits and blanks only.
-/
namespace SerialConsole.Hex

def digitValue? (c : Char) : Option Nat :=
  let n := c.toNat
  if 48 ≤ n && n ≤ 57 then some (n - 48)
  else if 65 ≤ n && n ≤ 70 then some (n - 55)
  else if 97 ≤ n && n ≤ 102 then some (n - 87)
  else none

/-- Whether a character is a hexadecimal digit. -/
def isDigit (c : Char) : Bool :=
  (digitValue? c).isSome

/-- The hexadecimal digits of a text, as numbers. -/
def digits (text : List Char) : List Nat :=
  text.filterMap digitValue?

/-- Two digits to a byte; a last single digit is dropped. -/
def pairUp : List Nat → Bytes
  | high :: low :: rest => UInt8.ofNat (16 * high + low) :: pairUp rest
  | _ => []

/-- The bytes that the hexadecimal digits of a text write. -/
def decode (text : List Char) : Except Fault Bytes :=
  if text.isEmpty then .ok []
  else
    let found := digits text
    if found.isEmpty then .error .noHexDigits
    else if found.length % 2 != 0 then .error (.oddHexDigits found.length)
    else .ok (pairUp found)

/-- One hexadecimal digit, in capital letters. -/
def digit (n : Nat) : Char :=
  if n < 10 then Char.ofNat (48 + n) else Char.ofNat (55 + n)

/-- The two digits of a byte. -/
def pair (b : UInt8) : List Char :=
  [digit (b.toNat / 16), digit (b.toNat % 16)]

/-- The bytes as pairs of digits with a space between each two. -/
def encode (bytes : Bytes) : List Char :=
  Text.joinWith [' '] (bytes.map pair)

/-- Whether a text holds nothing but blanks and an even, positive number of digits. -/
def isValid (text : List Char) : Bool :=
  let kept := text.filter fun c => !Text.isBlank c
  !kept.isEmpty && kept.length % 2 == 0 && kept.all isDigit

end SerialConsole.Hex
