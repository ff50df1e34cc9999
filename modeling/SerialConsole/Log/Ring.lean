import SerialConsole.Log.Entry

set_option autoImplicit false

/-!
# The log ring

A bounded log that keeps the latest entries. Entries are numbered from one, and a number is never
used again. Each listener registration is one place in the list of listeners.
-/
namespace SerialConsole.Log

/-- A clock that was read `ticks` times, and what it shows at each reading. -/
structure Clock where
  shows : Nat → Timestamp
  ticks : Nat := 0

/-- A clock that always shows the start of 1970. -/
def Clock.stopped : Clock :=
  { shows := fun _ => .whole 0 }

instance : Inhabited Clock := ⟨.stopped⟩

/-- Who hears of new entries. -/
abbrev Listener := String

/-- The most entries of a log unless another capacity is given. -/
def defaultCapacity : Nat := 1000

/-- A log that keeps at most `capacity` entries, oldest first. -/
structure Ring where
  capacity : Nat := defaultCapacity
  entries : List Entry := []
  added : Nat := 0
  listeners : List Listener := []
  clock : Clock := .stopped
  deriving Inhabited

/-- The last `n` members of a list. -/
def lastOf {α : Type} (n : Nat) (items : List α) : List α :=
  items.drop (items.length - n)

namespace Ring

/-- The entry that the next append makes. -/
def nextEntry (ring : Ring) (direction : Direction) (data : Bytes) : Entry :=
  ⟨ring.added + 1, ring.clock.shows ring.clock.ticks, direction, data⟩

/-- Appends an entry; the oldest one goes when the log is full. -/
def append (ring : Ring) (direction : Direction) (data : Bytes) : Ring :=
  { ring with
    entries := lastOf ring.capacity (ring.entries ++ [ring.nextEntry direction data])
    added := ring.added + 1
    clock := { ring.clock with ticks := ring.clock.ticks + 1 } }

/-- Forgets all entries. -/
def clear (ring : Ring) : Ring :=
  { ring with entries := [] }

/-- Registers a listener behind the others. -/
def subscribe (ring : Ring) (listener : Listener) : Ring :=
  { ring with listeners := ring.listeners ++ [listener] }

/-- Takes out the first registration of a listener, if there is one. -/
def unsubscribe (ring : Ring) (listener : Listener) : Ring :=
  { ring with listeners := ring.listeners.erase listener }

/-- The number of entries. -/
def size (ring : Ring) : Nat :=
  ring.entries.length

/-- The lines of all entries, oldest first. -/
def lines (ring : Ring) (display : Display) : Except Fault (List (List Char)) :=
  ring.entries.mapM fun entry => entry.render display

/-- The lines of all entries as one text. -/
def exportText (ring : Ring) (display : Display) : Except Fault (List Char) := do
  let lines ← ring.lines display
  pure (Text.joinWith ['\n'] lines)

end Ring

end SerialConsole.Log
