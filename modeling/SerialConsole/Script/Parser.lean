import SerialConsole.Script.Statement

set_option autoImplicit false

/-!
# Parsing scripts

Lines are read one after the other onto a draft: the commands so far and the places of the LOOPs
that are still open, the innermost first. An END closes the innermost one.
-/
namespace SerialConsole.Script

/-- The commands read so far and the places of the open LOOPs, the innermost first. -/
structure Draft where
  commands : List Command := []
  opened : List Nat := []
  deriving Repr

def Draft.add (draft : Draft) (line : Nat) : Statement → Except Fault Draft
  | .send value =>
    .ok { draft with commands := draft.commands ++ [.send (String.ofList value) line] }
  | .delay ms => .ok { draft with commands := draft.commands ++ [.delay ms line] }
  | .loop count =>
    .ok { commands := draft.commands ++ [.loop count (-1) line]
          opened := draft.commands.length :: draft.opened }
  | .loopEnd =>
    match draft.opened with
    | [] => .error (.scriptLine line .unmatchedEnd)
    | start :: outer =>
      .ok { commands := draft.commands.modify start (Command.closeAt draft.commands.length) ++
              [.loopEnd start line]
            opened := outer }

/-- Reads a line onto a draft. -/
def Draft.read (draft : Draft) (line : Nat) (raw : List Char) : Except Fault Draft :=
  let text := Text.trim raw
  if isSilent text then .ok draft
  else
    match readStatement line text with
    | .ok statement => draft.add line statement
    | .error fault => .error fault

/-- Reads lines onto a draft, the first of them having the given number. -/
def Draft.readAll (draft : Draft) (line : Nat) : List (List Char) → Except Fault Draft
  | [] => .ok draft
  | raw :: rest =>
    match draft.read line raw with
    | .ok next => next.readAll (line + 1) rest
    | .error fault => .error fault

/-- The commands of a draft in which no LOOP is open. -/
def Draft.finish (draft : Draft) : Except Fault (List Command) :=
  match draft.opened with
  | [] => .ok draft.commands
  | start :: _ =>
    let line := ((draft.commands[start]?).map Command.line).getD 0
    .error (.scriptLine line (.unclosedLoops draft.opened.length line))

/-- The commands of a script, or the first fault in it. -/
def parse (script : List Char) : Except Fault (List Command) :=
  if (Text.trim script).isEmpty then .error .emptyScript
  else
    match Draft.readAll {} 1 (Text.splitAt '\n' script) with
    | .ok draft => draft.finish
    | .error fault => .error fault

/-- The outcome of checking a script: what is wrong and where, or the number of commands. -/
structure Verdict where
  reason : Option String
  line : Option Nat
  commands : Nat
  deriving DecidableEq, Repr

/-- Whether the script may be run. -/
def Verdict.isValid (verdict : Verdict) : Bool :=
  verdict.reason.isNone

/-- Checks a script without running it. Only a number that is too long to read is not a verdict. -/
def validate (script : List Char) : Except Fault Verdict :=
  match parse script with
  | .ok commands => .ok ⟨none, none, commands.length⟩
  | .error fault =>
    if fault.isOwn then .ok ⟨some fault.message, fault.line?, 0⟩ else .error fault

end SerialConsole.Script
