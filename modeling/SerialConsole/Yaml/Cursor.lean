import SerialConsole.Yaml.Flaw

set_option autoImplicit false

/-!
# Places in a document

The classes of characters that the form of a document depends on, and a cursor that knows the
line and the column it has come to. The mark that may start a file takes up no column.
-/
namespace SerialConsole.Yaml

/-- Whether a character ends a line. -/
def isBreak (c : Char) : Bool :=
  c == '\n' || c == '\r' || c.toNat == 0x85 || c.toNat == 0x2028 || c.toNat == 0x2029

/-- Whether a character is a space or a tab. -/
def isWhite (c : Char) : Bool :=
  c == ' ' || c == '\t'

/-- Whether a place is the end of a line or of the document. -/
def endsLine (c : Option Char) : Bool :=
  c.all isBreak

/-- Whether a place is a space or the end of a line. -/
def endsSpaced (c : Option Char) : Bool :=
  c.all fun c => c == ' ' || isBreak c

/-- Whether a place is a space, a tab or the end of a line. -/
def endsWord (c : Option Char) : Bool :=
  c.all fun c => isWhite c || isBreak c

/-- Whether a document may hold a character. -/
def isAllowed (c : Char) : Bool :=
  let n := c.toNat
  n == 0x09 || n == 0x0A || n == 0x0D || (0x20 ≤ n && n ≤ 0x7E) || n == 0x85 ||
    (0xA0 ≤ n && n ≤ 0xD7FF) || (0xE000 ≤ n && n ≤ 0xFFFD) || 0x10000 ≤ n

/-- Whether a character may stand in the name of an anchor or of a directive. -/
def isNameChar (c : Char) : Bool :=
  c.isAlphanum || c == '-' || c == '_'

/-- Whether a character may stand in a tag. -/
def isTagChar (c : Char) : Bool :=
  c.isAlphanum || "-;/?:@&=+$,_.!~*'()[]".toList.contains c

/-- The value of a hexadecimal digit. -/
def hexValue? (c : Char) : Option Nat :=
  if c.isDigit then some (c.toNat - 48)
  else if 'a' ≤ c ∧ c ≤ 'f' then some (c.toNat - 87)
  else if 'A' ≤ c ∧ c ≤ 'F' then some (c.toNat - 55)
  else none

def fileMark : Char := Char.ofNat 0xFEFF

/-- A place in a document: what follows it, how many characters precede it, its line and its
column. -/
structure Cursor where
  rest : List Char
  index : Nat := 0
  line : Nat := 0
  column : Nat := 0
  deriving Repr, Inhabited

namespace Cursor

/-- The character at the place. -/
def peek (c : Cursor) : Option Char :=
  c.rest.head?

/-- A character after the place. -/
def peekAt (c : Cursor) (n : Nat) : Option Char :=
  c.rest[n]?

/-- The place after one character. A carriage return before a line feed does not end a line. -/
def next (c : Cursor) : Cursor :=
  match c.rest with
  | [] => c
  | x :: rest =>
    if isBreak x && !(x == '\r' && rest.head? == some '\n') then
      ⟨rest, c.index + 1, c.line + 1, 0⟩
    else if x == fileMark then ⟨rest, c.index + 1, c.line, c.column⟩
    else ⟨rest, c.index + 1, c.line, c.column + 1⟩

/-- The place after some characters. -/
def skip : Nat → Cursor → Cursor
  | 0, c => c
  | n + 1, c => skip n c.next

/-- The characters up to the first that does not fit, and the place of that one. -/
def takeWhile (c : Cursor) (fits : Char → Bool) : List Char × Cursor :=
  let text := c.rest.takeWhile fits
  (text, c.skip text.length)

/-- The place of the first character that does not fit. -/
def skipWhile (c : Cursor) (fits : Char → Bool) : Cursor :=
  (c.takeWhile fits).2

/-- The place after spaces. -/
def skipSpaces (c : Cursor) : Cursor :=
  c.skipWhile (· == ' ')

/-- The place after spaces and tabs. -/
def skipWhites (c : Cursor) : Cursor :=
  c.skipWhile isWhite

/-- The place after a comment, if one starts here. -/
def skipComment (c : Cursor) : Cursor :=
  if c.peek == some '#' then c.skipWhile (!isBreak ·) else c

/-- The line break at a place and the place after it. The two Unicode separators stand for
themselves and all other breaks for a line feed. -/
def takeBreak? (c : Cursor) : Option (Char × Cursor) :=
  match c.rest with
  | '\r' :: '\n' :: _ => some ('\n', c.skip 2)
  | x :: _ =>
    if x.toNat == 0x2028 || x.toNat == 0x2029 then some (x, c.next)
    else if isBreak x then some ('\n', c.next)
    else none
  | [] => none

/-- The place after a line break, if one is here. -/
def skipBreak (c : Cursor) : Cursor :=
  match c.takeBreak? with
  | some (_, c) => c
  | none => c

/-- Whether three characters stand at the place as a word. -/
def startsMark (c : Cursor) (mark : Char) : Bool :=
  c.rest.take 3 == [mark, mark, mark] && endsWord (c.peekAt 3)

/-- Whether one of the two document marks stands at the place. -/
def startsDocumentMark (c : Cursor) : Bool :=
  c.startsMark '-' || c.startsMark '.'

/-- The end of a line that may hold spaces and a comment. -/
def endLine (c : Cursor) : Except Flaw Cursor :=
  let c := c.skipSpaces.skipComment
  if endsLine c.peek then .ok c.skipBreak else .error .malformed

end Cursor

end SerialConsole.Yaml
