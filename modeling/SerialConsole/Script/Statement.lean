import SerialConsole.Script.Command

set_option autoImplicit false

/-!
# Statements

What one line of a script says. A line is trimmed first; blank lines and lines that start with
`#` say nothing. A keyword is separated from its argument by white space.
-/
namespace SerialConsole.Script

/-- What a line of a script asks for. -/
inductive Statement where
  | send (value : List Char)
  | delay (ms : Int)
  | loop (count : Int)
  | loopEnd
  deriving DecidableEq, Repr

/-- The keywords that take an argument. -/
inductive Keyword where
  | send
  | delay
  | loop
  deriving DecidableEq, Repr

def Keyword.spelling : Keyword → List Char
  | .send => ['S', 'E', 'N', 'D']
  | .delay => ['D', 'E', 'L', 'A', 'Y']
  | .loop => ['L', 'O', 'O', 'P']

/-- What stands after a keyword at the start of a trimmed line, if white space or nothing
follows it. -/
def Keyword.argument? (keyword : Keyword) (text : List Char) : Option (List Char) :=
  if keyword.spelling.isPrefixOf text then
    match text.drop keyword.spelling.length with
    | [] => some []
    | c :: rest => if Text.isBlank c then some (Text.trim rest) else none
  else none

/-- The keyword of a trimmed line and its trimmed argument. -/
def splitKeyword? (text : List Char) : Option (Keyword × List Char) :=
  match Keyword.send.argument? text with
  | some argument => some (.send, argument)
  | none =>
    match Keyword.delay.argument? text with
    | some argument => some (.delay, argument)
    | none => (Keyword.loop.argument? text).map (Keyword.loop, ·)

/-- Whether a character is a quote mark. -/
def isQuote (c : Char) : Bool :=
  c.toNat == 34 || c.toNat == 39

/-- Drops a quote mark at the start. -/
def dropQuote : List Char → List Char
  | c :: rest => if isQuote c then rest else c :: rest
  | [] => []

/-- Drops a quote mark at the end. -/
def dropLastQuote : List Char → List Char
  | [] => []
  | [c] => if isQuote c then [] else [c]
  | c :: rest => c :: dropLastQuote rest

/-- The text to send: the argument without a quote mark at either end. -/
def unquote (argument : List Char) : List Char :=
  dropLastQuote (dropQuote argument)

def readData (argument : List Char) : Except LineProblem (List Char) :=
  if argument.isEmpty then .error .missingData
  else if (unquote argument).isEmpty then .error .emptyData
  else .ok (unquote argument)

/-- Reads the number of a DELAY or LOOP at the given line. -/
def readNumber (role : NumberRole) (line : Nat) (argument : List Char) : Except Fault Int :=
  if argument.isEmpty then .error (.scriptLine line (.missingNumber role))
  else
    let (negative, rest) := Whole.splitSign argument
    let malformed := Fault.scriptLine line (.invalidNumber role (String.ofList argument))
    if rest.isEmpty then .error malformed
    else
      match Whole.digits? rest with
      | none => .error malformed
      | some digits =>
        match Whole.ofDigits negative digits with
        | .ok n => .ok n
        | .error (.tooLong count) => .error (.longNumber count)
        | .error .malformed => .error malformed

def checkDelay (ms : Int) : Except LineProblem Int :=
  if ms < 0 then .error (.negativeDelay ms)
  else if maxDelay < ms then .error (.longDelay ms)
  else .ok ms

/-- Checks the range of a loop count. -/
def checkCount (count : Int) : Except LineProblem Int :=
  if count < minCount then .error (.smallCount count)
  else if maxCount < count then .error (.largeCount count)
  else .ok count

/-- What a trimmed line that is neither blank nor a comment says. -/
def readStatement (line : Nat) (text : List Char) : Except Fault Statement :=
  if text = ['E', 'N', 'D'] then .ok .loopEnd
  else
    match splitKeyword? text with
    | none => .error (.scriptLine line (.unknownCommand (String.ofList text)))
    | some (.send, argument) =>
      match readData argument with
      | .ok value => .ok (.send value)
      | .error problem => .error (.scriptLine line problem)
    | some (.delay, argument) => do
      let ms ← readNumber .delay line argument
      match checkDelay ms with
      | .ok ms => .ok (.delay ms)
      | .error problem => .error (.scriptLine line problem)
    | some (.loop, argument) => do
      let count ← readNumber .loopCount line argument
      match checkCount count with
      | .ok count => .ok (.loop count)
      | .error problem => .error (.scriptLine line problem)

/-- Whether a trimmed line says nothing. -/
def isSilent (text : List Char) : Bool :=
  match text with
  | [] => true
  | c :: _ => c == '#'

end SerialConsole.Script
