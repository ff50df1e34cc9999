import SerialConsole.Yaml.Value

set_option autoImplicit false

/-!
# The form of a settings document

A check looks at a value and gives the first thing that is wrong, with the place where it is. The
checks of a value are made in a fixed order, and the parts of a mapping are looked at after the
mapping itself.
-/
namespace SerialConsole.Settings

open Yaml

/-- Something that is wrong, and the keys and numbers that lead to it. -/
structure Violation where
  place : List String := []
  text : String
  deriving DecidableEq, Repr

abbrev Check := Objects → Value → Option Violation

namespace Check

/-- Several checks, in order. -/
def all (checks : List Check) : Check := fun objects value =>
  checks.findSome? fun check => check objects value

def wrong (objects : Objects) (value : Value) (text : String) : Option Violation :=
  some { text := value.shown objects ++ text }

/-- The shapes of values that a check can ask for. -/
inductive Shape where
  | object
  | array
  | string
  | integer
  deriving DecidableEq, Repr

def Shape.word : Shape → String
  | .object => "object"
  | .array => "array"
  | .string => "string"
  | .integer => "integer"

/-- Whether a value has a shape. A whole number may be written with a point. -/
def Shape.holds (objects : Objects) (value : Value) : Shape → Bool
  | .object => (value.pairs? objects).isSome
  | .array => (value.items? objects).isSome
  | .string => match value with
    | .text _ => true
    | _ => false
  | .integer => match value with
    | .int _ => true
    | .float x => x.isWhole
    | _ => false

def ofShape (shape : Shape) : Check := fun objects value =>
  if shape.holds objects value then none
  else wrong objects value (" is not of type '" ++ shape.word ++ "'")

def valueAt? (objects : Objects) (value : Value) (key : String) : Option Value :=
  ((value.pairs? objects).getD []).find? (fun p => p.1 = .text key) |>.map (·.2)

/-- A mapping has no keys but the known ones. -/
def noOthers (known : List String) : Check := fun objects value =>
  let keys := ((value.pairs? objects).getD []).map (·.1)
  let others := keys.filter fun key => !known.any fun name => key = .text name
  let shown := (Text.sortOn Value.plain others).map fun key => key.shown objects
  match shown with
  | [] => none
  | [_] => some ⟨[], "Additional properties are not allowed (" ++ listed shown ++
      " was unexpected)"⟩
  | _ => some ⟨[], "Additional properties are not allowed (" ++ listed shown ++
      " were unexpected)"⟩

/-- A mapping has a key. -/
def requires (key : String) : Check := fun objects value =>
  if (valueAt? objects value key).isSome then none
  else some ⟨[], Text.quotedString key ++ " is a required property"⟩

def under (place : String) (violation : Violation) : Violation :=
  { violation with place := place :: violation.place }

/-- The value of a key, if it is there, passes a check. -/
def property (key : String) (check : Check) : Check := fun objects value =>
  (valueAt? objects value key).bind fun inner => (check objects inner).map (under key)

/-- The first violation by the items of a list, which are numbered from `index`. -/
def firstIn (check : Check) (objects : Objects) : Nat → List Value → Option Violation
  | _, [] => none
  | index, item :: rest =>
    match check objects item with
    | some violation => some (under (toString index) violation)
    | none => firstIn check objects (index + 1) rest

/-- All items of a list pass a check. -/
def items (check : Check) : Check := fun objects value =>
  firstIn check objects 0 ((value.items? objects).getD [])

/-- Whether two values are equal as data: truth values are no numbers. -/
def isSame (choice value : Value) : Bool :=
  match value with
  | .truth _ => choice == value
  | _ => choice.isSameKey value

def oneOf (choices : List Value) : Check := fun objects value =>
  if choices.any (isSame · value) then none
  else wrong objects value
    (" is not one of [" ++ listed (choices.map fun choice => choice.shown objects) ++ "]")

/-- The value is a text among some choices. -/
def oneWord (choices : List String) : Check :=
  oneOf (choices.map .text)

/-- The value is a number among some choices. -/
def oneNumber (choices : List Int) : Check :=
  oneOf (choices.map .int)

/-- A number is at least one. -/
def positive : Check := fun objects value =>
  match value.units? with
  | some units =>
    if units < Double.one then wrong objects value " is less than the minimum of 1" else none
  | none => none

def nonEmpty : Check := fun objects value =>
  if value = .text "" then wrong objects value " should be non-empty" else none

def someText : Check :=
  all [ofShape .string, nonEmpty]

end Check

open Check

def lineCheck : Check :=
  all [ofShape .object,
    noOthers ["baud_rate", "data_bits", "stop_bits", "parity", "flow_control"],
    property "baud_rate" (all [ofShape .integer, positive]),
    property "data_bits" (oneNumber [7, 8]),
    property "stop_bits" (oneNumber [1, 2]),
    property "parity" (oneWord ["none", "even", "odd"]),
    property "flow_control" (oneWord ["none", "hardware"])]

def commandCheck : Check :=
  all [ofShape .object,
    noOthers ["name", "data", "format", "description"],
    requires "name",
    requires "data",
    property "name" someText,
    property "data" someText,
    property "format" (oneWord ["text", "hex"]),
    property "description" (ofShape .string)]

def documentCheck : Check :=
  all [ofShape .object,
    noOthers ["serial", "port", "commands"],
    property "serial" lineCheck,
    property "port" someText,
    property "commands" (all [ofShape .array, items commandCheck])]

end SerialConsole.Settings
