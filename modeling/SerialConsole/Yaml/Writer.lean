import SerialConsole.Text.Quoted
import SerialConsole.Yaml.Cursor
import SerialConsole.Yaml.Tag

set_option autoImplicit false

/-!
# Writing scalars

The form in which a text is written as a value: plain if that reads back as the same text, else in
single quotes if it is ASCII without control characters, else in double quotes. A line that has
become longer than eighty columns is broken at the next single space.
-/
namespace SerialConsole.Yaml

/-- The column behind which lines are broken. -/
def lineWidth : Nat := 80

/-- The words that some readers take for truth values. -/
def truthWordForms : List String :=
  ["yes", "Yes", "YES", "no", "No", "NO", "true", "True", "TRUE", "false", "False", "FALSE",
   "on", "On", "ON", "off", "Off", "OFF"]

/-- Whether a plain text is read back as text, also by readers that know truth values. -/
def readsAsText (text : List Char) : Bool :=
  plainTag text == "str" && !truthWordForms.contains (String.ofList (Plain.dropLineFeed text))

/-- Whether a character breaks lines; a carriage return does not, in a scalar. -/
def isInnerBreak (c : Char) : Bool :=
  c == '\n' || c.toNat == 0x85 || c.toNat == 0x2028 || c.toNat == 0x2029

/-- Whether a character can only be written in double quotes. -/
def isSpecial (c : Char) : Bool :=
  !(c == '\n' || (0x20 ≤ c.toNat && c.toNat ≤ 0x7E))

/-- Whether the first character of a text has a meaning of its own there. -/
def leadsAsMark (first : Char) (next : Option Char) : Bool :=
  "#,[]\x7b\x7d&*!|>'\"%@`".toList.contains first || ("?:-".toList.contains first && endsWord next)

/-- Whether a later character has a meaning of its own: a colon before white space, or a number
sign after it. -/
def hasInnerMark : List Char → Bool
  | a :: b :: rest =>
    (b == ':' && endsWord rest.head?) || (b == '#' && endsWord (some a)) ||
      hasInnerMark (b :: rest)
  | _ => false

def startsAsDocumentMark (text : List Char) : Bool :=
  ['-', '-', '-'].isPrefixOf text || ['.', '.', '.'].isPrefixOf text

/-- Whether a text has marks that keep it from being written plainly. -/
def hasMarks (text : List Char) : Bool :=
  startsAsDocumentMark text || hasInnerMark text ||
    match text with
    | first :: rest => leadsAsMark first rest.head?
    | [] => false

/-- Whether a text holds two neighbours that fit. -/
def hasNeighbours (fits : Char → Char → Bool) : List Char → Bool
  | a :: b :: rest => fits a b || hasNeighbours fits (b :: rest)
  | _ => false

def fitsSingleQuotes (text : List Char) : Bool :=
  !text.any isSpecial && !hasNeighbours (fun a b => a == ' ' && isInnerBreak b) text &&
    !hasNeighbours (fun a b => isInnerBreak a && b == ' ') text

def fitsPlain (text : List Char) : Bool :=
  readsAsText text && fitsSingleQuotes text && !text.any isInnerBreak && !hasMarks text &&
    text.head? != some ' ' && text.getLast? != some ' '

def newLine (indent : Nat) : List Char :=
  '\n' :: List.replicate indent ' '

/-- Writes the words of a plain text. `inner` says whether something precedes. -/
def plainFrom (indent : Nat) : Nat → Bool → List Char → List Char
  | _, _, [] => []
  | column, afterSpace, c :: rest =>
    if c == ' ' && !afterSpace && rest.head? != some ' ' && lineWidth < column then
      newLine indent ++ plainFrom indent indent true rest
    else c :: plainFrom indent (column + 1) (c == ' ') rest

/-- Writes a text inside single quotes. -/
def singleFrom (indent : Nat) : Nat → Option Char → List Char → List Char
  | _, _, [] => []
  | column, before, c :: rest =>
    if c == ' ' then
      if before.any (· != ' ') && rest.head?.any (· != ' ') && lineWidth < column then
        newLine indent ++ singleFrom indent indent (some c) rest
      else c :: singleFrom indent (column + 1) (some c) rest
    else if c == '\n' then
      let opening := if before == some '\n' then [] else ['\n']
      let closing := if rest.head? == some '\n' then [] else List.replicate indent ' '
      opening ++ '\n' :: closing ++ singleFrom indent indent (some c) rest
    else if c == '\'' then '\'' :: '\'' :: singleFrom indent (column + 2) (some c) rest
    else c :: singleFrom indent (column + 1) (some c) rest

/-- The letter that stands for a character after a backslash. -/
def escapeLetter? (c : Char) : Option Char :=
  match c.toNat with
  | 0x00 => some '0'
  | 0x07 => some 'a'
  | 0x08 => some 'b'
  | 0x09 => some 't'
  | 0x0A => some 'n'
  | 0x0B => some 'v'
  | 0x0C => some 'f'
  | 0x0D => some 'r'
  | 0x1B => some 'e'
  | 0x22 => some '"'
  | 0x5C => some '\\'
  | 0x85 => some 'N'
  | 0xA0 => some '_'
  | 0x2028 => some 'L'
  | 0x2029 => some 'P'
  | _ => none

/-- A character as a backslash and what follows it. -/
def escapeOf (c : Char) : List Char :=
  let code (letter : Char) (width : Nat) : List Char :=
    '\\' :: letter :: (Text.hexLower width c.toNat).map Char.toUpper
  match escapeLetter? c with
  | some letter => ['\\', letter]
  | none =>
    if c.toNat ≤ 0xFF then code 'x' 2
    else if c.toNat ≤ 0xFFFF then code 'u' 4
    else code 'U' 8

/-- Whether a character is escaped in double quotes. -/
def isEscaped (c : Char) : Bool :=
  c == '"' || c == '\\' || !(0x20 ≤ c.toNat && c.toNat ≤ 0x7E)

/-- A line end inside double quotes; a space after it is escaped. -/
def doubleBreak (indent : Nat) (next : Option Char) : List Char :=
  '\\' :: newLine indent ++ (if next == some ' ' then ['\\'] else [])

/-- Writes a text inside double quotes. `first` marks the first character, and `fresh` one that
follows an escape. Neither the first nor the last character breaks a line. -/
def doubleFrom (indent : Nat) : Nat → Bool → Bool → List Char → List Char
  | _, _, _, [] => []
  | column, first, fresh, c :: rest =>
    let mayBreak := !first && !rest.isEmpty
    let start (next : Option Char) : Nat := if next == some ' ' then indent + 1 else indent
    if isEscaped c then
      let column := column + (escapeOf c).length
      if mayBreak && lineWidth < column - 1 then
        escapeOf c ++ doubleBreak indent rest.head? ++
          doubleFrom indent (start rest.head?) false true rest
      else escapeOf c ++ doubleFrom indent column false true rest
    else if mayBreak && (c == ' ' || fresh) && lineWidth < column then
      doubleBreak indent (some c) ++ c :: doubleFrom indent (start (some c) + 1) false false rest
    else c :: doubleFrom indent (column + 1) false false rest

/-- A text as a value that starts at a column; further lines are indented. -/
def writeText (column indent : Nat) (text : List Char) : List Char :=
  if fitsPlain text then plainFrom indent column false text
  else if fitsSingleQuotes text then '\'' :: singleFrom indent (column + 1) none text ++ ['\'']
  else '"' :: doubleFrom indent (column + 1) true true text ++ ['"']

end SerialConsole.Yaml
