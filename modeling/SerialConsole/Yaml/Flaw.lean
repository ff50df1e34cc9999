import SerialConsole.Kind
import SerialConsole.Numeral.Whole
import SerialConsole.Text.Quoted

set_option autoImplicit false

/-!
# Flaws of YAML documents

What can be wrong with a document: its form, a key that is given twice or cannot be a key, and a
scalar that does not say what its tag promises.
-/
namespace SerialConsole.Yaml

/-- The three sorts of nodes. -/
inductive NodeSort where
  | scalar
  | sequence
  | mapping
  deriving DecidableEq, Repr

def NodeSort.title : NodeSort → String
  | .scalar => "ScalarNode"
  | .sequence => "SequenceNode"
  | .mapping => "MappingNode"

/-- The values that cannot be keys. -/
inductive KeySort where
  | list
  | dict
  | set
  deriving DecidableEq, Repr

/-- What a flaw calls a value of the sort. -/
def KeySort.title : KeySort → String
  | .list => "list"
  | .dict => "dict"
  | .set => "set"

/-- A part of a date, a time or an offset that is out of range. -/
inductive DatePart where
  | year (value : Nat)
  | month
  | day
  | hour
  | minute
  | second
  | offset (days seconds : Int)
  deriving DecidableEq, Repr

/-- A timedelta as a message shows it. -/
def spanText (days seconds : Int) : String :=
  let parts := (if days = 0 then [] else ["days=" ++ toString days]) ++
    (if seconds = 0 then [] else ["seconds=" ++ toString seconds])
  "datetime.timedelta(" ++ (if parts.isEmpty then "0" else ", ".intercalate parts) ++ ")"

/-- The wording for a part that is out of range. -/
def DatePart.message : DatePart → String
  | .year value => "year " ++ toString value ++ " is out of range"
  | .month => "month must be in 1..12"
  | .day => "day is out of range for month"
  | .hour => "hour must be in 0..23"
  | .minute => "minute must be in 0..59"
  | .second => "second must be in 0..59"
  | .offset days seconds =>
    "offset must be a timedelta strictly between -timedelta(hours=24) and timedelta(hours=24), " ++
      "not " ++ spanText days seconds ++ "."

/-- What is wrong with a document. -/
inductive Flaw where
  | malformed
  | duplicateKey (shown : String)
  | unhashable (sort : KeySort)
  | shortPair
  | noPair (sort : NodeSort)
  | emptyNumber
  | badInteger (text : String) (base : Nat)
  | longInteger (digits : Nat)
  | badFloat (text : String)
  | badTruth (text : String)
  | notATimestamp
  | badDate (part : DatePart)
  | badCodePoint
  | hugeCodePoint
  deriving DecidableEq, Repr

namespace Flaw

def kind : Flaw → Kind
  | malformed | duplicateKey _ => .settingsInvalid
  | unhashable _ | noPair _ => .type
  | shortPair | badInteger _ _ | longInteger _ | badFloat _ | badDate _ | badCodePoint => .value
  | emptyNumber => .index
  | badTruth _ => .key
  | notATimestamp => .attribute
  | hugeCodePoint => .overflow

def message : Flaw → String
  | malformed => "Invalid YAML"
  | duplicateKey shown => "Duplicate key '" ++ shown ++ "' in YAML document"
  | unhashable sort => "unhashable type: '" ++ sort.title ++ "'"
  | shortPair => "not enough values to unpack (expected 2, got 1)"
  | noPair sort => "cannot unpack non-iterable " ++ sort.title ++ " object"
  | emptyNumber => "string index out of range"
  | badInteger text base =>
    "invalid literal for int() with base " ++ toString base ++ ": " ++ Text.quotedString text
  | longInteger digits => Whole.tooLongMessage digits
  | badFloat text => "could not convert string to float: " ++ Text.quotedString text
  | badTruth text => Text.quotedString text
  | notATimestamp => "'NoneType' object has no attribute 'groupdict'"
  | badDate part => part.message
  | badCodePoint => "chr() arg not in range(0x110000)"
  | hugeCodePoint => "Python int too large to convert to C int"

end Flaw

end SerialConsole.Yaml
