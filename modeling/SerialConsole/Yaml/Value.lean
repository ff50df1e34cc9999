import SerialConsole.Numeral.Shortest
import SerialConsole.Text.Utf8
import SerialConsole.Yaml.Flaw

set_option autoImplicit false

/-!
# Values

The values that a document describes. Lists, mappings and sets are objects, given by number, since
one object can be reached on several ways and even hold itself. Two values are the same key when
they are equal numbers, texts, bytes or moments.
-/
namespace SerialConsole.Yaml

structure Date where
  year : Nat
  month : Nat
  day : Nat
  deriving DecidableEq, Repr, Inhabited

/-- A day and a time of day, with the distance from UTC in seconds if it is known. -/
structure Moment where
  date : Date
  hour : Nat
  minute : Nat
  second : Nat
  micros : Nat
  offset : Option Int
  deriving DecidableEq, Repr, Inhabited

inductive Value where
  | null
  | truth (b : Bool)
  | int (n : Int)
  | float (x : Double)
  | text (s : String)
  | bytes (b : Bytes)
  | date (d : Date)
  | moment (m : Moment)
  | pair (key value : Value)
  | object (n : Nat)
  deriving DecidableEq, Repr, Inhabited

inductive Object where
  | list (items : List Value)
  | dict (pairs : List (Value × Value))
  | set (members : List Value)
  deriving DecidableEq, Repr, Inhabited

/-- The objects of a document by number. -/
abbrev Objects := Array (Option Object)

def Objects.at? (objects : Objects) (n : Nat) : Option Object :=
  (objects[n]?).join

def Value.pairs? (objects : Objects) : Value → Option (List (Value × Value))
  | .object n =>
    match objects.at? n with
    | some (.dict pairs) => some pairs
    | _ => none
  | _ => none

def Value.items? (objects : Objects) : Value → Option (List Value)
  | .object n =>
    match objects.at? n with
    | some (.list items) => some items
    | _ => none
  | _ => none

/-! ## Keys -/

namespace Date

def isLeap (year : Nat) : Bool :=
  year % 4 = 0 && (year % 100 ≠ 0 || year % 400 = 0)

def daysIn (year month : Nat) : Nat :=
  if month = 2 then (if isLeap year then 29 else 28)
  else if [4, 6, 9, 11].contains month then 30
  else 31

/-- The number of a day, counted from the first day of year one. -/
def ordinal (d : Date) : Nat :=
  let before := d.year - 1
  before * 365 + before / 4 - before / 100 + before / 400 +
    (List.range (d.month - 1)).foldl (fun n m => n + daysIn d.year (m + 1)) 0 + d.day

end Date

/-- A moment in microseconds, in UTC if its offset is known. -/
def Moment.micros? (m : Moment) : Int :=
  let seconds : Int := m.date.ordinal * 86400 + m.hour * 3600 + m.minute * 60 + m.second
  (seconds - m.offset.getD 0) * 1000000 + m.micros

/-- The number that a value is, in units of the smallest double. -/
def Value.units? : Value → Option Int
  | .truth b => some (if b then Double.one else 0)
  | .int n => some (n * Double.one)
  | .float x => x.signedUnits?
  | _ => none

def Value.isSameKey : Value → Value → Bool
  | .float .nan, .float .nan => true
  | .float (.infinite a), .float (.infinite b) => a == b
  | .moment a, .moment b => a.offset.isSome == b.offset.isSome && a.micros? == b.micros?
  | a, b =>
    match a.units?, b.units? with
    | some m, some n => m == n
    | none, none => a == b
    | _, _ => false

/-! ## Values as messages show them -/

/-- A number with at least `width` digits. -/
def zeroPadded (width n : Nat) : String :=
  let shown := toString n
  String.ofList (List.replicate (width - shown.length) '0') ++ shown

/-- Items with a comma and a space between each two. -/
def listed (items : List String) : String :=
  ", ".intercalate items

/-- A distance from UTC as a message shows it. -/
def zoneText (seconds : Int) : String :=
  if seconds = 0 then "datetime.timezone.utc"
  else "datetime.timezone(" ++ spanText (Int.fdiv seconds 86400) (Int.fmod seconds 86400) ++ ")"

/-- A day as a message shows it. -/
def Date.shown (d : Date) : String :=
  "datetime.date(" ++ listed ([d.year, d.month, d.day].map toString) ++ ")"

/-- A moment as a message shows it: seconds and microseconds that are zero are left out. -/
def Moment.shown (m : Moment) : String :=
  let fine := if m.micros ≠ 0 then [m.second, m.micros] else if m.second ≠ 0 then [m.second] else []
  let parts := [m.date.year, m.date.month, m.date.day, m.hour, m.minute] ++ fine
  let zone := match m.offset with
    | some seconds => ["tzinfo=" ++ zoneText seconds]
    | none => []
  "datetime.datetime(" ++ listed (parts.map toString ++ zone) ++ ")"

/-- A day in plain text. -/
def Date.plain (d : Date) : String :=
  zeroPadded 4 d.year ++ "-" ++ zeroPadded 2 d.month ++ "-" ++ zeroPadded 2 d.day

/-- A distance from UTC in plain text. -/
def offsetPlain (seconds : Int) : String :=
  let minutes := seconds.natAbs / 60
  (if seconds < 0 then "-" else "+") ++ zeroPadded 2 (minutes / 60) ++ ":" ++
    zeroPadded 2 (minutes % 60)

def Moment.plain (m : Moment) : String :=
  m.date.plain ++ " " ++ zeroPadded 2 m.hour ++ ":" ++ zeroPadded 2 m.minute ++ ":" ++
    zeroPadded 2 m.second ++ (if m.micros = 0 then "" else "." ++ zeroPadded 6 m.micros) ++
    (m.offset.map offsetPlain).getD ""

def quotedByte (quote : Char) (b : UInt8) : List Char :=
  if 0x20 ≤ b.toNat ∧ b.toNat ≤ 0x7E then Text.quoteChar quote (Char.ofNat b.toNat)
  else if b = 0x09 ∨ b = 0x0A ∨ b = 0x0D then Text.quoteChar quote (Char.ofNat b.toNat)
  else '\\' :: 'x' :: Text.hexLower 2 b.toNat

/-- Bytes as a message shows them. -/
def quotedBytes (b : Bytes) : String :=
  let quote := Text.quoteMark (b.map fun x => Char.ofNat x.toNat)
  String.ofList ('b' :: quote :: b.flatMap (quotedByte quote) ++ [quote])

/-- A value that is not an object, as a message shows it. -/
def Value.simple : Value → String
  | .null => "None"
  | .truth b => if b then "True" else "False"
  | .int n => toString n
  | .float x => String.ofList x.text
  | .text s => Text.quotedString s
  | .bytes b => quotedBytes b
  | .date d => d.shown
  | .moment m => m.shown
  | _ => ""

/-- A value as a message shows it, inside the given objects. An object inside itself is shown as
dots. -/
def Value.shownIn (objects : Objects) : Nat → List Nat → Value → String
  | 0, _, _ => "..."
  | fuel + 1, inside, value =>
    let shownAt := Value.shownIn objects fuel
    match value with
    | .pair key value => "(" ++ shownAt inside key ++ ", " ++ shownAt inside value ++ ")"
    | .object n =>
      let within := n :: inside
      match objects.at? n with
      | some (.list items) =>
        if inside.contains n then "[...]" else "[" ++ listed (items.map (shownAt within)) ++ "]"
      | some (.dict pairs) =>
        if inside.contains n then "\x7b...\x7d"
        else "\x7b" ++ listed (pairs.map fun p => shownAt within p.1 ++ ": " ++ shownAt within p.2) ++
          "\x7d"
      | some (.set members) =>
        if members.isEmpty then "set()"
        else "\x7b" ++ listed (members.map (shownAt within)) ++ "\x7d"
      | none => ""
    | value => value.simple

/-- A value as a message shows it. -/
def Value.shown (objects : Objects) (value : Value) : String :=
  value.shownIn objects (2 * objects.size + 4) []

/-- A key in plain text. -/
def Value.plain : Value → String
  | .text s => s
  | .date d => d.plain
  | .moment m => m.plain
  | value => value.simple

end SerialConsole.Yaml
