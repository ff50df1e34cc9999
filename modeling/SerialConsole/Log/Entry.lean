import SerialConsole.Payload
import SerialConsole.Timestamp

set_option autoImplicit false

/-!
# Log entries

What was sent or received, when, and how it is shown.
-/
namespace SerialConsole.Log

/-- Which way bytes went. -/
inductive Direction where
  | sent
  | received
  deriving DecidableEq, Repr, Inhabited

def Direction.word : Direction → String
  | .sent => "sent"
  | .received => "received"

/-- A piece of traffic. -/
structure Entry where
  id : Nat
  time : Timestamp
  direction : Direction
  data : Bytes
  deriving DecidableEq, Repr, Inhabited

/-- The bytes of an entry as display text. -/
def Entry.text (entry : Entry) : String :=
  bytesToText entry.data

/-- How log data is shown. -/
inductive Display where
  | text
  | hex
  deriving DecidableEq, Repr, Inhabited

/-- The form with the given name; every name but `hex` means text. -/
def Display.ofName (name : String) : Display :=
  if name = "hex" then .hex else .text

def Entry.shown (entry : Entry) : Display → List Char
  | .text => displayText entry.data
  | .hex => Hex.encode entry.data

/-- The line of an entry: its time, its direction and its data. -/
def Entry.render (entry : Entry) (display : Display) : Except Fault (List Char) := do
  let time ← entry.time.format
  pure ('[' :: time ++ ']' :: ' ' :: entry.direction.word.toList ++ ':' :: ' ' ::
    entry.shown display)

end SerialConsole.Log
