import SerialConsole.Hex

set_option autoImplicit false

/-!
# Payloads

What the operator types, turned into the bytes for the device, and bytes turned into text that is
safe to display.
-/
namespace SerialConsole

def textToBytes (text : String) : Bytes :=
  Utf8.encode text.toList

/-- Whether a character would disturb a display: a control other than tab and line ends. -/
def isControl (c : Char) : Bool :=
  let n := c.toNat
  n ≤ 0x08 || n == 0x0B || n == 0x0C || (0x0E ≤ n && n ≤ 0x1F) || (0x7F ≤ n && n ≤ 0x9F)

/-- Bytes for display: their text, or their hexadecimal form if the text has control characters. -/
def displayText (bytes : Bytes) : List Char :=
  let text := Utf8.decodeLenient (Utf8.dropMark bytes)
  if text.any isControl then Hex.encode bytes else text

def bytesToText (bytes : Bytes) : String :=
  String.ofList (displayText bytes)

namespace Payload

/-- The text appended for each name of a line ending. -/
def lineEnding? : String → Option String
  | "none" => some ""
  | "LF" => some "\n"
  | "CR" => some "\r"
  | "CRLF" => some "\r\n"
  | _ => none

/-- The bytes to write for what the operator typed. Text gets the line ending; hexadecimal data
must be valid and gets none. -/
def encode (data format ending : String) : Except Fault Bytes :=
  if format = "hex" then
    if Hex.isValid data.toList then Hex.decode data.toList else .error (.hexPayload data)
  else if format = "text" then
    match lineEnding? ending with
    | some suffix => .ok (textToBytes (data ++ suffix))
    | none => .error (.lineEnding ending)
  else .error (.dataFormat format)

end Payload

end SerialConsole
