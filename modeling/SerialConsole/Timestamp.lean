import SerialConsole.Fault
import SerialConsole.Numeral.Double

set_option autoImplicit false

/-!
# Timestamps

Seconds since the start of 1970, whole or as a double, shown as the time of day in UTC with
milliseconds. A double is rounded to microseconds, and milliseconds are cut off, not rounded.
-/
namespace SerialConsole

/-- A moment in seconds since the start of 1970. -/
inductive Timestamp where
  | whole (seconds : Int)
  | real (seconds : Double)
  deriving DecidableEq, Repr, Inhabited

namespace Timestamp

/-- Seconds and microseconds of a moment, with 0 ≤ microseconds < 1000000. -/
structure Instant where
  seconds : Int
  micros : Nat
  deriving DecidableEq, Repr

/-- The fault of a moment that the system's clock cannot hold. -/
def outOfRange : Fault :=
  .external .overflow "timestamp out of range for platform time_t"

/-- Whether a number of seconds fits sixty-four bits with sign. -/
def fitsClock (seconds : Int) : Bool :=
  -0x8000000000000000 ≤ seconds && seconds < 0x8000000000000000

/-- The seconds and microseconds of a double with the given sign and units. -/
def splitUnits (negative : Bool) (units : Nat) : Instant :=
  let fraction := (Double.ofUnits false (units % Double.one * 1000000) 1)
  let micros := match fraction with
    | .finite _ part => Double.roundHalfEven part Double.one
    | _ => 0
  let whole := units / Double.one
  if negative then
    if micros = 0 then ⟨-(whole : Int), 0⟩
    else if micros = 1000000 then ⟨-(whole : Int) - 1, 0⟩
    else ⟨-(whole : Int) - 1, 1000000 - micros⟩
  else if micros = 1000000 then ⟨(whole : Int) + 1, 0⟩
  else ⟨whole, micros⟩

/-- The seconds and microseconds of a moment. -/
def instant : Timestamp → Except Fault Instant
  | .whole seconds => if fitsClock seconds then .ok ⟨seconds, 0⟩ else .error outOfRange
  | .real .nan => .error (.external .value "Invalid value NaN (not a number)")
  | .real (.infinite _) => .error outOfRange
  | .real (.finite negative units) =>
    let moment := splitUnits negative units
    if fitsClock moment.seconds then .ok moment else .error outOfRange

/-- The year of the proleptic Gregorian calendar that holds a day, day 0 being 1970-01-01. -/
def yearOfDay (day : Int) : Int :=
  let shifted := day + 719468
  let era := Int.fdiv shifted 146097
  let dayOfEra := Int.fmod shifted 146097
  let yearOfEra :=
    Int.fdiv (dayOfEra - Int.fdiv dayOfEra 1460 + Int.fdiv dayOfEra 36524 -
      Int.fdiv dayOfEra 146096) 365
  let dayOfYear :=
    dayOfEra - (365 * yearOfEra + Int.fdiv yearOfEra 4 - Int.fdiv yearOfEra 100)
  let month := Int.fdiv (5 * dayOfYear + 2) 153
  yearOfEra + era * 400 + (if month < 10 then 0 else 1)

def yearOf (seconds : Int) : Int :=
  yearOfDay (Int.fdiv seconds 86400)

/-- Checks that the calendar holds the moment and the day before it. -/
def checkYear (seconds : Int) : Except Fault Unit :=
  let outside (year : Int) : Bool := year < 1 || 9999 < year
  let refuse (year : Int) : Except Fault Unit :=
    .error (.external .value ("year " ++ toString (Int.bmod year 0x100000000) ++ " is out of range"))
  let year := yearOf seconds
  if year - 1900 < -0x80000000 || 0x80000000 ≤ year - 1900 then
    .error (.external .osError "[Errno 75] Value too large for defined data type")
  else if outside year then refuse year
  else if outside (yearOf (seconds - 86400)) then refuse (yearOf (seconds - 86400))
  else .ok ()

/-- A number with at least `width` digits. -/
def padded (width n : Nat) : List Char :=
  let shown := (toString n).toList
  List.replicate (width - shown.length) '0' ++ shown

/-- The time of day of an instant, with milliseconds. -/
def clockFace (moment : Instant) : List Char :=
  let second := (Int.fmod moment.seconds 86400).toNat
  padded 2 (second / 3600) ++ ':' :: padded 2 (second / 60 % 60) ++ ':' :: padded 2 (second % 60) ++
    '.' :: padded 3 (moment.micros / 1000)

/-- The time of day of a moment, as text. -/
def format (moment : Timestamp) : Except Fault (List Char) := do
  let parts ← moment.instant
  checkYear parts.seconds
  pure (clockFace parts)

end Timestamp

end SerialConsole
