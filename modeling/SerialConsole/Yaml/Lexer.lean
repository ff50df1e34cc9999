import SerialConsole.Text.Utf8
import SerialConsole.Yaml.Scalar
import SerialConsole.Yaml.Token

set_option autoImplicit false

/-!
# From text to tokens

A document is read from left to right. Outside brackets the column of a token opens and closes
block collections. A key need not be marked: every place where a key may start is remembered until
a colon shows that one did. Such a key lies within one line and 1024 characters.
-/
namespace SerialConsole.Yaml

/-- A place where a key may have started: how many tokens precede it, whether it has to be a key,
and where it is. -/
structure KeyPlace where
  tokens : Nat
  required : Bool
  index : Nat
  line : Nat
  column : Nat
  deriving DecidableEq, Repr

/-- The state of reading: the brackets that are open, the columns of the open block collections,
whether a key may start here, and the places where one may have started, by bracket depth. -/
structure Lexer where
  place : Cursor
  depth : Nat := 0
  indent : Int := -1
  outer : List Int := []
  keyAllowed : Bool := true
  keys : List (Nat × KeyPlace) := []
  tokens : Array Token := #[]
  finished : Bool := false

namespace Lexer

/-- The most characters that a key without a mark takes up. -/
def keyLength : Nat := 1024

def push (l : Lexer) (token : Token) : Lexer :=
  { l with tokens := l.tokens.push token }

/-- Adds a token that takes up some characters. -/
def pushOver (l : Lexer) (token : Token) (length : Nat) : Lexer :=
  { l.push token with place := l.place.skip length }

/-- Whether brackets are open. -/
def inFlow (l : Lexer) : Bool :=
  l.depth != 0

/-- The place where a key of the current depth may have started. -/
def key? (l : Lexer) : Option KeyPlace :=
  (l.keys.find? fun k => k.1 = l.depth).map (·.2)

/-- Forgets the place where a key of the current depth may have started; a required key is then
missing. -/
def dropKey (l : Lexer) : Except Flaw Lexer :=
  if l.key?.any KeyPlace.required then .error .malformed
  else .ok { l with keys := l.keys.filter fun k => k.1 ≠ l.depth }

/-- Whether a place is too far back for a key. -/
def isStale (l : Lexer) (key : KeyPlace) : Bool :=
  key.line ≠ l.place.line || key.index + keyLength < l.place.index

/-- Forgets the places that are too far back. -/
def dropStale (l : Lexer) : Except Flaw Lexer :=
  if l.keys.any fun k => l.isStale k.2 && k.2.required then .error .malformed
  else .ok { l with keys := l.keys.filter fun k => !l.isStale k.2 }

/-- Remembers that a key may start here. -/
def markKey (l : Lexer) : Except Flaw Lexer :=
  if l.keyAllowed then do
    let l ← l.dropKey
    let key : KeyPlace :=
      { tokens := l.tokens.size
        required := !l.inFlow && l.indent == l.place.column
        index := l.place.index
        line := l.place.line
        column := l.place.column }
    .ok { l with keys := (l.depth, key) :: l.keys }
  else .ok l

/-- Closes the block collections that are indented deeper than a column. -/
def unwind (column : Int) : List Int → Lexer → Lexer
  | [], l => l
  | indent :: outer, l =>
    if column < l.indent then
      unwind column outer { l.push .blockEnd with indent, outer }
    else l

/-- Closes the block collections that end before a column; in brackets there are none to close. -/
def unwindTo (l : Lexer) (column : Int) : Lexer :=
  if l.inFlow then l else unwind column l.outer l

/-- Opens a block collection at a column unless one is open there. -/
def opensAt (l : Lexer) (column : Nat) : Option Lexer :=
  if l.indent < column then some { l with outer := l.indent :: l.outer, indent := column }
  else none

/-- Opens a block collection at the current column unless one is open there. -/
def openBlock (l : Lexer) (token : Token) : Lexer :=
  match l.opensAt l.place.column with
  | some l => l.push token
  | none => l

/-- The place of the next token, after spaces, comments and line breaks. Outside brackets a key may
start on a new line. -/
def toNextToken : Nat → Lexer → Lexer
  | 0, l => l
  | fuel + 1, l =>
    let place := l.place.skipSpaces.skipComment
    match place.takeBreak? with
    | some (_, place) =>
      toNextToken fuel { l with place, keyAllowed := l.keyAllowed || !l.inFlow }
    | none => { l with place }

/-! ## Directives, anchors and tags -/

def versionNumber (c : Cursor) : Except Flaw (Nat × Cursor) :=
  let (digits, c) := c.takeWhile Char.isDigit
  if digits.isEmpty then .error .malformed
  else .ok (digits.foldl (fun n d => 10 * n + (d.toNat - 48)) 0, c)

def versionDirective (c : Cursor) : Except Flaw (Directive × Cursor) := do
  let (major, c) ← versionNumber c.skipSpaces
  if c.peek == some '.' then do
    let (minor, c) ← versionNumber c.next
    if endsSpaced c.peek then .ok (.version major minor, c) else .error .malformed
  else .error .malformed

/-- The handle of a tag: an exclamation mark, or a name between two of them. -/
def tagHandle (c : Cursor) : Except Flaw (String × Cursor) :=
  if c.peek != some '!' then .error .malformed
  else if c.peekAt 1 == some ' ' then .ok ("!", c.next)
  else
    let (name, after) := c.next.takeWhile isNameChar
    if after.peek == some '!' then .ok (String.ofList ('!' :: name ++ ['!']), after.next)
    else .error .malformed

/-- Bytes written as percent signs with two hexadecimal digits. -/
def escapedBytes : Nat → Cursor → Except Flaw (Bytes × Cursor)
  | 0, c => .ok ([], c)
  | fuel + 1, c =>
    if c.peek == some '%' then
      match (c.rest.drop 1).take 2 |>.mapM hexValue? with
      | some [high, low] => do
        let (bytes, c) ← escapedBytes fuel (c.skip 3)
        .ok (UInt8.ofNat (16 * high + low) :: bytes, c)
      | _ => .error .malformed
    else .ok ([], c)

/-- The text of a tag; escaped bytes have to be UTF-8. -/
def tagText : Nat → Cursor → Except Flaw (List Char × Cursor)
  | 0, c => .ok ([], c)
  | fuel + 1, c =>
    let (text, c) := c.takeWhile isTagChar
    if c.peek == some '%' then do
      let (bytes, c) ← escapedBytes (c.rest.length + 1) c
      match Utf8.decode bytes with
      | .ok more => do
        let (rest, c) ← tagText fuel c
        .ok (text ++ more ++ rest, c)
      | .error _ => .error .malformed
    else .ok (text, c)

/-- The text of a tag, which may not be empty. -/
def tagSuffix (c : Cursor) : Except Flaw (String × Cursor) :=
  if c.peek.any fun x => isTagChar x || x == '%' then do
    let (text, c) ← tagText (c.rest.length + 1) c
    .ok (String.ofList text, c)
  else .error .malformed

/-- The value of a directive that gives a tag handle its meaning. -/
def handleDirective (c : Cursor) : Except Flaw (Directive × Cursor) := do
  let (handle, c) ← tagHandle c.skipSpaces
  if c.peek == some ' ' then do
    let (start, c) ← tagSuffix c.skipSpaces
    if endsSpaced c.peek then .ok (.tagHandle handle start, c) else .error .malformed
  else .error .malformed

/-- A directive, which takes up a line. -/
def directive (c : Cursor) : Except Flaw (Directive × Cursor) := do
  let (name, c) := c.next.takeWhile isNameChar
  if name.isEmpty || !endsSpaced c.peek then .error .malformed
  else do
    let (value, c) ← match String.ofList name with
      | "YAML" => versionDirective c
      | "TAG" => handleDirective c
      | _ => .ok (.other, c.skipWhile (!isBreak ·))
    let c ← c.endLine
    .ok (value, c)

def anchorName (c : Cursor) : Except Flaw (String × Cursor) :=
  let (name, c) := c.next.takeWhile isNameChar
  if name.isEmpty then .error .malformed
  else if endsWord c.peek || c.peek.any "?:,]\x7d%@`".toList.contains then
    .ok (String.ofList name, c)
  else .error .malformed

/-- Whether a second exclamation mark comes before the next space. -/
def hasHandle (c : Cursor) : Bool :=
  (c.next.rest.takeWhile fun x => !(x == ' ' || isBreak x)).contains '!'

def tag (c : Cursor) : Except Flaw (Token × Cursor) := do
  let (token, c) ←
    if c.peekAt 1 == some '<' then do
      let (suffix, c) ← tagSuffix (c.skip 2)
      if c.peek == some '>' then .ok (Token.tag none suffix, c.next) else .error .malformed
    else if endsWord (c.peekAt 1) then .ok (Token.tag none "!", c.next)
    else do
      let (handle, c) ← if hasHandle c then tagHandle c else .ok ("!", c.next)
      let (suffix, c) ← tagSuffix c
      .ok (Token.tag (some handle) suffix, c)
  if endsSpaced c.peek then .ok (token, c) else .error .malformed

/-! ## One token -/

/-- The end of the document. -/
def finish (l : Lexer) : Except Flaw Lexer := do
  let l ← (l.unwindTo (-1)).dropKey
  .ok { l.push .streamEnd with keyAllowed := false, keys := [], finished := true }

def readDirective (l : Lexer) : Except Flaw Lexer := do
  let l ← (l.unwindTo (-1)).dropKey
  let (value, place) ← directive l.place
  .ok { l.push (.directive value) with place, keyAllowed := false }

def readMark (l : Lexer) (token : Token) : Except Flaw Lexer := do
  let l ← (l.unwindTo (-1)).dropKey
  .ok { l.pushOver token 3 with keyAllowed := false }

/-- An opening bracket, which may start a key. -/
def openFlow (l : Lexer) (token : Token) : Except Flaw Lexer := do
  let l ← l.markKey
  .ok { l.pushOver token 1 with depth := l.depth + 1, keyAllowed := true }

def closeFlow (l : Lexer) (token : Token) : Except Flaw Lexer := do
  let l ← l.dropKey
  if l.inFlow then .ok { l.pushOver token 1 with depth := l.depth - 1, keyAllowed := false }
  else .error .malformed

/-- A comma in brackets. -/
def readFlowEntry (l : Lexer) : Except Flaw Lexer := do
  let l ← l.dropKey
  .ok { l.pushOver .flowEntry 1 with keyAllowed := true }

/-- Opens a block collection for a mark, where a key may start. -/
def openFor (l : Lexer) (token : Token) : Except Flaw Lexer :=
  if l.inFlow then .ok l
  else if l.keyAllowed then .ok (l.openBlock token)
  else .error .malformed

/-- The dash of a sequence entry. -/
def readBlockEntry (l : Lexer) : Except Flaw Lexer := do
  let l ← l.openFor .blockSequenceStart
  let l ← l.dropKey
  .ok { l.pushOver .blockEntry 1 with keyAllowed := true }

def readKey (l : Lexer) : Except Flaw Lexer := do
  let l ← l.openFor .blockMappingStart
  let l ← l.dropKey
  .ok { l.pushOver .key 1 with keyAllowed := !l.inFlow }

/-- The colon after a key that had no mark: the key token, and the token that opens the mapping if
it is a new one, are put before the key. -/
def readValueOf (l : Lexer) (key : KeyPlace) : Lexer :=
  let l := { l with
    keys := l.keys.filter fun k => k.1 ≠ l.depth
    tokens := l.tokens.insertIdxIfInBounds key.tokens .key
    keyAllowed := false }
  let l :=
    if l.inFlow then l
    else
      match l.opensAt key.column with
      | some l => { l with tokens := l.tokens.insertIdxIfInBounds key.tokens .blockMappingStart }
      | none => l
  l.pushOver .value 1

/-- The colon before a value. -/
def readValue (l : Lexer) : Except Flaw Lexer :=
  match l.key? with
  | some key => .ok (l.readValueOf key)
  | none => do
    let l ← l.openFor .blockMappingStart
    let l ← { l with keyAllowed := !l.inFlow }.dropKey
    .ok (l.pushOver .value 1)

/-- An alias or an anchor, which may start a key. -/
def readName (l : Lexer) (token : String → Token) : Except Flaw Lexer := do
  let l ← l.markKey
  let (name, place) ← anchorName l.place
  .ok { l.push (token name) with place, keyAllowed := false }

/-- A tag, which may start a key. -/
def readTag (l : Lexer) : Except Flaw Lexer := do
  let l ← l.markKey
  let (token, place) ← tag l.place
  .ok { l.push token with place, keyAllowed := false }

/-- A block scalar; a key may follow it. -/
def readBlock (l : Lexer) (folded : Bool) : Except Flaw Lexer := do
  let l ← l.dropKey
  let (text, place) ← blockScalar l.place l.indent folded
  .ok { l.push (.scalar (String.ofList text) false) with place, keyAllowed := true }

/-- A quoted scalar, which may be a key. -/
def readQuoted (l : Lexer) (quote : Char) : Except Flaw Lexer := do
  let l ← l.markKey
  let (text, place) ← quotedScalar l.place quote
  .ok { l.push (.scalar (String.ofList text) false) with place, keyAllowed := false }

/-- A plain scalar, which may be a key. -/
def readPlain (l : Lexer) : Except Flaw Lexer := do
  let l ← l.markKey
  let (text, newLine, place) := plainScalar l.place l.inFlow l.indent
  .ok { l.push (.scalar (String.ofList text) true) with place, keyAllowed := newLine }

/-- Whether a plain scalar may start with a character, given the one after it. -/
def startsPlain (l : Lexer) (x : Char) (next : Option Char) : Bool :=
  !(isWhite x || isBreak x || "-?:,[]\x7b\x7d#&*!|>'\"%@`".toList.contains x) ||
    (!endsWord next && (x == '-' || (!l.inFlow && (x == '?' || x == ':'))))

/-- Reads the token that starts with a character. -/
def readFrom (l : Lexer) (x : Char) : Except Flaw Lexer :=
  let next := l.place.peekAt 1
  let atStart := l.place.column = 0
  if x == '%' && atStart then l.readDirective
  else if x == '-' && atStart && l.place.startsMark '-' then l.readMark .documentStart
  else if x == '.' && atStart && l.place.startsMark '.' then l.readMark .documentEnd
  else if x == '[' then l.openFlow .flowSequenceStart
  else if x == '\x7b' then l.openFlow .flowMappingStart
  else if x == ']' then l.closeFlow .flowSequenceEnd
  else if x == '\x7d' then l.closeFlow .flowMappingEnd
  else if x == ',' then l.readFlowEntry
  else if x == '-' && endsWord next then l.readBlockEntry
  else if x == '?' && (l.inFlow || endsWord next) then l.readKey
  else if x == ':' && (l.inFlow || endsWord next) then l.readValue
  else if x == '*' then l.readName .alias
  else if x == '&' then l.readName .anchor
  else if x == '!' then l.readTag
  else if x == '|' && !l.inFlow then l.readBlock false
  else if x == '>' && !l.inFlow then l.readBlock true
  else if x == '\'' || x == '"' then l.readQuoted x
  else if l.startsPlain x next then l.readPlain
  else .error .malformed

/-- Reads the next token. -/
def step (l : Lexer) : Except Flaw Lexer := do
  let l ← (toNextToken (l.place.rest.length + 1) l).dropStale
  let l := l.unwindTo l.place.column
  match l.place.peek with
  | none => l.finish
  | some x => l.readFrom x

/-- Reads at most `fuel` tokens. -/
def run : Nat → Lexer → Except Flaw Lexer
  | 0, l => .ok l
  | fuel + 1, l =>
    if l.finished then .ok l
    else
      match l.step with
      | .ok next => run fuel next
      | .error flaw => .error flaw

end Lexer

/-- The place where a document starts, after the mark that may start a file. -/
def Cursor.ofText (text : List Char) : Cursor :=
  let start : Cursor := { rest := text }
  if start.peek == some fileMark then start.next else start

def Token.ofText (text : List Char) : Except Flaw (List Token) :=
  if text.all isAllowed then do
    let l ← Lexer.run (text.length + 2) { place := Cursor.ofText text }
    .ok l.tokens.toList
  else .error .malformed

end SerialConsole.Yaml
