import SerialConsole.Yaml.Cursor

set_option autoImplicit false

/-!
# Forms of scalars

The three forms in which a scalar is written: quoted, as a block, and plain. Each reader gives the
text of the scalar and the place after it. In quoted and plain scalars a single line break between
words is a space and further breaks are kept.
-/
namespace SerialConsole.Yaml

/-- A piece of text and the place after it. -/
abbrev Piece := List Char × Cursor

/-! ## Quoted scalars -/

/-- The breaks of empty lines, and the place of what follows them. A document mark may not start
any of the lines. -/
def foldedBreaks : Nat → Cursor → Except Flaw Piece
  | 0, c => .ok ([], c)
  | fuel + 1, c =>
    if c.startsDocumentMark then .error .malformed
    else
      let c := c.skipWhites
      match c.takeBreak? with
      | some (x, c) => do
        let (breaks, c) ← foldedBreaks fuel c
        .ok (x :: breaks, c)
      | none => .ok ([], c)

/-- What a line break and the breaks after it stand for. -/
def fold (lineBreak : Char) (breaks : List Char) : List Char :=
  if lineBreak != '\n' then lineBreak :: breaks
  else if breaks.isEmpty then [' ']
  else breaks

def quotedSpaces (c : Cursor) : Except Flaw Piece :=
  let (whites, c) := c.takeWhile isWhite
  match c.takeBreak? with
  | some (x, c) => do
    let (breaks, c) ← foldedBreaks (c.rest.length + 1) c
    .ok (fold x breaks, c)
  | none => if c.peek.isNone then .error .malformed else .ok (whites, c)

/-- What the character after a backslash stands for. -/
def escaped? : Char → Option Char
  | '0' => some (Char.ofNat 0)
  | 'a' => some (Char.ofNat 0x07)
  | 'b' => some (Char.ofNat 0x08)
  | 't' => some '\t'
  | '\t' => some '\t'
  | 'n' => some '\n'
  | 'v' => some (Char.ofNat 0x0B)
  | 'f' => some (Char.ofNat 0x0C)
  | 'r' => some '\r'
  | 'e' => some (Char.ofNat 0x1B)
  | ' ' => some ' '
  | '"' => some '"'
  | '\\' => some '\\'
  | '/' => some '/'
  | 'N' => some (Char.ofNat 0x85)
  | '_' => some (Char.ofNat 0xA0)
  | 'L' => some (Char.ofNat 0x2028)
  | 'P' => some (Char.ofNat 0x2029)
  | _ => none

/-- How many hexadecimal digits follow a letter after a backslash. -/
def codeWidth? : Char → Option Nat
  | 'x' => some 2
  | 'u' => some 4
  | 'U' => some 8
  | _ => none

def charOfCode (code : Nat) : Except Flaw Char :=
  if 0x80000000 ≤ code then .error .hugeCodePoint
  else if 0x110000 ≤ code then .error .badCodePoint
  else if 0xD800 ≤ code ∧ code ≤ 0xDFFF then .ok (Char.ofNat 0xFFFD)
  else .ok (Char.ofNat code)

/-- A character that is given by its code. -/
def coded (c : Cursor) (width : Nat) : Except Flaw Piece :=
  match (c.rest.take width).mapM hexValue? with
  | some digits =>
    if digits.length = width then do
      let x ← charOfCode (digits.foldl (fun code digit => 16 * code + digit) 0)
      .ok ([x], c.skip width)
    else .error .malformed
  | none => .error .malformed

/-- What follows a backslash. -/
def escape (c : Cursor) : Except Flaw Piece :=
  match c.peek with
  | none => .error .malformed
  | some x =>
    match escaped? x, codeWidth? x with
    | some y, _ => .ok ([y], c.next)
    | none, some width => coded c.next width
    | none, none =>
      if isBreak x then foldedBreaks (c.rest.length + 1) c.skipBreak else .error .malformed

def quotedRest (quote : Char) : Nat → Cursor → Except Flaw Piece
  | 0, _ => .error .malformed
  | fuel + 1, c => do
    let goOn (piece : Piece) : Except Flaw Piece := do
      let (text, c) ← quotedRest quote fuel piece.2
      .ok (piece.1 ++ text, c)
    match c.peek with
    | none => .error .malformed
    | some x =>
      if x == quote then
        if x == '\'' && c.peekAt 1 == some '\'' then goOn ([x], c.skip 2) else .ok ([], c.next)
      else if isWhite x || isBreak x then goOn (← quotedSpaces c)
      else if quote == '"' && x == '\\' then goOn (← escape c.next)
      else goOn ([x], c.next)

def quotedScalar (c : Cursor) (quote : Char) : Except Flaw Piece :=
  quotedRest quote (c.rest.length + 1) c.next

/-! ## Block scalars -/

/-- What becomes of the breaks at the end of a block scalar. -/
inductive Chomping where
  | clip
  | strip
  | keep
  deriving DecidableEq, Repr

/-- How a sign in the header of a block scalar treats the breaks at its end. -/
def Chomping.ofSign? : Option Char → Option Chomping
  | some '+' => some .keep
  | some '-' => some .strip
  | _ => none

/-- The indentation digit in the header of a block scalar; zero is not allowed. -/
def indentDigit (c : Cursor) : Except Flaw (Option Nat × Cursor) :=
  match c.peek with
  | some x =>
    if x == '0' then .error .malformed
    else if x.isDigit then .ok (some (x.toNat - 48), c.next)
    else .ok (none, c)
  | none => .ok (none, c)

/-- The header of a block scalar: a sign and a digit in either order, then the end of the line. -/
def blockHeader (c : Cursor) : Except Flaw (Chomping × Option Nat × Cursor) := do
  let (chomping, digit, c) ← match Chomping.ofSign? c.peek with
    | some chomping => do
      let (digit, c) ← indentDigit c.next
      pure (chomping, digit, c)
    | none => do
      let (digit, c) ← indentDigit c
      match digit, Chomping.ofSign? c.peek with
      | some digit, some chomping => pure (chomping, some digit, c.next)
      | digit, _ => pure (.clip, digit, c)
  if endsSpaced c.peek then do
    let c ← c.endLine
    .ok (chomping, digit, c)
  else .error .malformed

/-- The place after at most as many spaces as lead to a column. -/
def skipIndent (c : Cursor) (column : Nat) : Cursor :=
  c.skip (min (column - c.column) (c.rest.takeWhile (· == ' ')).length)

/-- The breaks of empty lines before a line that is indented as far as a column. -/
def blockBreaks (column : Nat) : Nat → Cursor → Piece
  | 0, c => ([], c)
  | fuel + 1, c =>
    let c := skipIndent c column
    match c.takeBreak? with
    | some (x, c) =>
      let (breaks, c) := blockBreaks column fuel c
      (x :: breaks, c)
    | none => ([], c)

/-- The breaks of empty lines before the first line, the widest column they lead to, and the
place of the first line. -/
def leadingBreaks : Nat → Nat → Cursor → List Char × Nat × Cursor
  | 0, widest, c => ([], widest, c)
  | fuel + 1, widest, c =>
    let c := c.skipSpaces
    let widest := max widest c.column
    match c.takeBreak? with
    | some (x, c) =>
      let (breaks, widest, c) := leadingBreaks fuel widest c
      (x :: breaks, widest, c)
    | none => ([], widest, c)

/-- Whether a place is on a line of a block scalar. -/
def isInBlock (c : Cursor) (column : Nat) : Bool :=
  c.column = column && c.peek.isSome

/-- The breaks that a block scalar ends with. -/
def chomp (chomping : Chomping) (lineBreak breaks : List Char) : List Char :=
  match chomping with
  | .clip => lineBreak
  | .strip => []
  | .keep => lineBreak ++ breaks

/-- What stands between two lines of a block scalar. In a folded one a single break between two
lines that do not start with white space is a space. -/
def betweenLines (folded : Bool) (lineBreak breaks : List Char) (opens closes : Bool) :
    List Char :=
  if folded && lineBreak == ['\n'] && opens && closes then
    if breaks.isEmpty then [' '] else []
  else lineBreak

/-- The lines of a block scalar, given the breaks before the first of them. -/
def blockLines (folded : Bool) (chomping : Chomping) (column : Nat) :
    Nat → List Char → Cursor → Piece
  | 0, _, c => ([], c)
  | fuel + 1, breaks, c =>
    let opens := !c.peek.any isWhite
    let (text, c) := c.takeWhile (!isBreak ·)
    let (lineBreak, c) := match c.takeBreak? with
      | some (x, c) => ([x], c)
      | none => ([], c)
    let (after, c) := blockBreaks column (c.rest.length + 1) c
    if isInBlock c column then
      let between := betweenLines folded lineBreak after opens (!c.peek.any isWhite)
      let (rest, c) := blockLines folded chomping column fuel after c
      (breaks ++ text ++ between ++ rest, c)
    else (breaks ++ text ++ chomp chomping lineBreak after, c)

/-- A block scalar in a collection with the given indentation. -/
def blockScalar (c : Cursor) (indent : Int) (folded : Bool) : Except Flaw Piece := do
  let (chomping, digit, c) ← blockHeader c.next
  let least := max 1 (indent + 1)
  let (breaks, column, c) := match digit with
    | none =>
      let (breaks, widest, c) := leadingBreaks (c.rest.length + 1) 0 c
      (breaks, max least.toNat widest, c)
    | some digit =>
      let column := least.toNat + digit - 1
      let (breaks, c) := blockBreaks column (c.rest.length + 1) c
      (breaks, column, c)
  if isInBlock c column then
    .ok (blockLines folded chomping column (c.rest.length + 1) breaks c)
  else .ok (chomp chomping [] breaks, c)

/-! ## Plain scalars -/

/-- Whether a plain scalar stops before a character, given the one after it. -/
def stopsPlain (inFlow : Bool) (x : Char) (next : Option Char) : Bool :=
  isWhite x || isBreak x ||
    (x == ':' && (endsWord next || (inFlow && next.any ",[]\x7b\x7d".toList.contains))) ||
    (inFlow && ",?[]\x7b\x7d".toList.contains x)

/-- The characters of a plain scalar up to the next white space. -/
def plainWord (inFlow : Bool) : List Char → List Char
  | [] => []
  | x :: rest => if stopsPlain inFlow x rest.head? then [] else x :: plainWord inFlow rest

/-- The breaks of empty lines in a plain scalar, or nothing if a document mark follows one. -/
def plainBreaks : Nat → Cursor → Option (List Char) × Cursor
  | 0, c => (some [], c)
  | fuel + 1, c =>
    if c.startsDocumentMark then (none, c)
    else
      let c := c.skipSpaces
      match c.takeBreak? with
      | some (x, c) =>
        let (breaks, c) := plainBreaks fuel c
        (breaks.map (x :: ·), c)
      | none => (some [], c)

/-- What stands between two words of a plain scalar, whether a line ended there, and the place of
the next word. -/
def plainSpaces (c : Cursor) : List Char × Bool × Cursor :=
  let (spaces, c) := c.takeWhile (· == ' ')
  match c.takeBreak? with
  | some (x, c) =>
    match plainBreaks (c.rest.length + 1) c with
    | (some breaks, c) => (fold x breaks, true, c)
    | (none, c) => ([], true, c)
  | none => (spaces, false, c)

/-- A plain scalar from its text so far: its text, whether the place after it follows the end of a
line, and that place. A line that is indented less than `indent` ends it. -/
def plainWords (inFlow : Bool) (indent : Int) :
    Nat → List Char → Bool → Cursor → List Char × Bool × Cursor
  | 0, _, newLine, c => ([], newLine, c)
  | fuel + 1, spaces, newLine, c =>
    let word := if c.peek == some '#' then [] else plainWord inFlow c.rest
    if word.isEmpty then ([], newLine, c)
    else
      let (between, newLine, c) := plainSpaces (c.skip word.length)
      if between.isEmpty || c.peek == some '#' || (!inFlow && (c.column : Int) < indent) then
        (spaces ++ word, newLine, c)
      else
        let (rest, newLine, c) := plainWords inFlow indent fuel between newLine c
        (spaces ++ word ++ rest, newLine, c)

/-- A plain scalar in a collection with the given indentation. -/
def plainScalar (c : Cursor) (inFlow : Bool) (indent : Int) : List Char × Bool × Cursor :=
  plainWords inFlow (indent + 1) (c.rest.length + 1) [] false c

end SerialConsole.Yaml
