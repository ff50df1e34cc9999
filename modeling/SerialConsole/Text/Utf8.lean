import SerialConsole.Text.Quoted

set_option autoImplicit false

/-!
# UTF-8

Writing text as bytes and reading bytes as text. Reading is strict, where a flaw is reported with
its place, or lenient, where each flaw becomes one replacement character. Both take one step,
`readHead`, that looks at the first character of the input.
-/
namespace SerialConsole

abbrev Bytes := List UInt8

namespace Utf8

/-- What is wrong with the bytes at some place. -/
inductive Defect where
  | badStart
  | badContinuation
  | cutShort
  deriving DecidableEq, Repr

/-- The first thing in a byte sequence: a character, or a flaw, and how many bytes it takes. -/
inductive Reading where
  | char (c : Char) (width : Nat)
  | flaw (width : Nat) (defect : Defect)
  deriving DecidableEq, Repr

/-- The number of bytes that a reading takes. -/
def Reading.width : Reading → Nat
  | .char _ width => width
  | .flaw width _ => width

/-- Whether a byte continues a character. -/
def isContinuation (b : UInt8) : Bool :=
  0x80 ≤ b.toNat && b.toNat < 0xC0

/-- Whether a second byte may follow the first of a character of three bytes. -/
def fitsThree (first second : UInt8) : Bool :=
  isContinuation second &&
    !(if second.toNat < 0xA0 then first.toNat == 0xE0 else first.toNat == 0xED)

/-- Whether a second byte may follow the first of a character of four bytes. -/
def fitsFour (first second : UInt8) : Bool :=
  isContinuation second &&
    !(if second.toNat < 0x90 then first.toNat == 0xF0 else first.toNat == 0xF4)

/-- The six bits that a continuation byte carries. -/
def payload (b : UInt8) : Nat :=
  b.toNat - 0x80

/-- Reads the rest of a character of two bytes. -/
def readTwo (first : UInt8) : Bytes → Reading
  | [] => .flaw 1 .cutShort
  | second :: _ =>
    if isContinuation second then
      .char (Char.ofNat ((first.toNat - 0xC0) * 64 + payload second)) 2
    else .flaw 1 .badContinuation

/-- Reads the rest of a character of three bytes. -/
def readThree (first : UInt8) : Bytes → Reading
  | [] => .flaw 1 .cutShort
  | second :: rest =>
    if fitsThree first second then
      match rest with
      | [] => .flaw 2 .cutShort
      | third :: _ =>
        if isContinuation third then
          .char (Char.ofNat (((first.toNat - 0xE0) * 64 + payload second) * 64 + payload third)) 3
        else .flaw 2 .badContinuation
    else .flaw 1 .badContinuation

/-- Reads the rest of a character of four bytes. -/
def readFour (first : UInt8) : Bytes → Reading
  | [] => .flaw 1 .cutShort
  | second :: rest =>
    if fitsFour first second then
      match rest with
      | [] => .flaw 2 .cutShort
      | third :: rest =>
        if isContinuation third then
          match rest with
          | [] => .flaw 3 .cutShort
          | fourth :: _ =>
            if isContinuation fourth then
              .char (Char.ofNat ((((first.toNat - 0xF0) * 64 + payload second) * 64 +
                payload third) * 64 + payload fourth)) 4
            else .flaw 3 .badContinuation
        else .flaw 2 .badContinuation
    else .flaw 1 .badContinuation

/-- Reads the character or flaw that starts with the byte `first`. -/
def readHead (first : UInt8) (rest : Bytes) : Reading :=
  let n := first.toNat
  if n < 0x80 then .char (Char.ofNat n) 1
  else if n < 0xC2 then .flaw 1 .badStart
  else if n < 0xE0 then readTwo first rest
  else if n < 0xF0 then readThree first rest
  else if n < 0xF5 then readFour first rest
  else .flaw 1 .badStart

/-- The character that stands for a flaw. -/
def replacement : Char := Char.ofNat 0xFFFD

/-- The text of a byte sequence, each flaw replaced by one character. -/
def decodeLenient : Bytes → List Char
  | [] => []
  | first :: rest =>
    match readHead first rest with
    | .char c width => c :: decodeLenient (rest.drop (width - 1))
    | .flaw width _ => replacement :: decodeLenient (rest.drop (width - 1))
termination_by bytes => bytes.length
decreasing_by all_goals simp only [List.length_drop, List.length_cons]; omega

/-- A flaw and its place in the whole sequence. -/
structure Flaw where
  first : UInt8
  position : Nat
  width : Nat
  defect : Defect
  deriving DecidableEq, Repr

/-- The text of a byte sequence that starts at `position`, or its first flaw. -/
def decodeFrom (position : Nat) : Bytes → Except Flaw (List Char)
  | [] => .ok []
  | first :: rest =>
    match readHead first rest with
    | .char c width =>
      (decodeFrom (position + width) (rest.drop (width - 1))).map (c :: ·)
    | .flaw width defect => .error ⟨first, position, width, defect⟩
termination_by bytes => bytes.length
decreasing_by all_goals simp only [List.length_drop, List.length_cons]; omega

/-- The text of a byte sequence, or its first flaw. -/
def decode (bytes : Bytes) : Except Flaw (List Char) :=
  decodeFrom 0 bytes

def encode (text : List Char) : Bytes :=
  text.flatMap String.utf8EncodeChar

/-- The sequence without the byte-order mark at its start. -/
def dropMark : Bytes → Bytes
  | 0xEF :: 0xBB :: 0xBF :: rest => rest
  | bytes => bytes

def Defect.reason : Defect → String
  | .badStart => "invalid start byte"
  | .badContinuation => "invalid continuation byte"
  | .cutShort => "unexpected end of data"

/-- The message for a flaw: the byte itself if it is one byte, else the range of places. -/
def Flaw.message (flaw : Flaw) : String :=
  let place :=
    if flaw.width == 1 then
      "byte 0x" ++ String.ofList (Text.hexLower 2 flaw.first.toNat) ++ " in position " ++
        toString flaw.position
    else
      "bytes in position " ++ toString flaw.position ++ "-" ++
        toString (flaw.position + flaw.width - 1)
  "'utf-8' codec can't decode " ++ place ++ ": " ++ flaw.defect.reason

end Utf8

end SerialConsole
