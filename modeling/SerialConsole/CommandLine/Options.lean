import SerialConsole.Text.Blank

set_option autoImplicit false

/-!
# Options

Splitting the words of a command line into options and operands. A long option takes its value from
behind an equals sign or from the next word, a short one from the rest of its word or from the next
word. Several short options without value may share a word, and `--` ends the options.
-/
namespace SerialConsole.CommandLine

/-- An option: its key, its spellings, and whether it takes a value. -/
structure OptionSpec where
  key : String
  spellings : List String
  takesValue : Bool := true
  deriving DecidableEq, Repr

/-- Options with their values, and operands, in the order of the words. -/
structure Words where
  options : List (String × String) := []
  operands : List String := []
  deriving DecidableEq, Repr, Inhabited

namespace Words

def addOption (words : Words) (key value : String) : Words :=
  { words with options := words.options ++ [(key, value)] }

def addOperands (words : Words) (operands : List String) : Words :=
  { words with operands := words.operands ++ operands }

def value? (words : Words) (key : String) : Option String :=
  (words.options.reverse.find? fun o => o.1 = key).map (·.2)

def has (words : Words) (key : String) : Bool :=
  (words.value? key).isSome

end Words

def specOf? (specs : List OptionSpec) (spelling : String) : Option OptionSpec :=
  specs.find? fun spec => spec.spellings.contains spelling

/-- Whether a word is an option by its form. -/
def isOptionWord (word : String) : Bool :=
  word.startsWith "-" && word ≠ "-"

/-- A word before and behind its first equals sign. -/
def splitValue (word : String) : String × Option String :=
  let name := word.toList.takeWhile (· != '=')
  match word.toList.drop name.length with
  | _ :: value => (String.ofList name, some (String.ofList value))
  | [] => (word, none)

/-- Reads a long option, given the words behind it. The result holds the words that are left. -/
def takeLong (specs : List OptionSpec) (words : Words) (word : String) (rest : List String) :
    Option (Words × List String) :=
  let (name, attached) := splitValue word
  match specOf? specs name with
  | none => none
  | some spec =>
    if spec.takesValue then
      match attached, rest with
      | some value, rest => some (words.addOption spec.key value, rest)
      | none, value :: rest => some (words.addOption spec.key value, rest)
      | none, [] => none
    else if attached.isSome then none
    else some (words.addOption spec.key "", rest)

/-- Reads the short options of a word, given the words behind it. -/
def takeShort (specs : List OptionSpec) (rest : List String) :
    Words → List Char → Option (Words × List String)
  | words, [] => some (words, rest)
  | words, letter :: letters =>
    match specOf? specs (String.ofList ['-', letter]) with
    | none => none
    | some spec =>
      if spec.takesValue then
        match letters, rest with
        | _ :: _, rest => some (words.addOption spec.key (String.ofList letters), rest)
        | [], value :: rest => some (words.addOption spec.key value, rest)
        | [], [] => none
      else takeShort specs rest (words.addOption spec.key "") letters

/-- Reads the options of a word, given the words behind it. -/
def takeOption (specs : List OptionSpec) (words : Words) (word : String) (rest : List String) :
    Option (Words × List String) :=
  if word.startsWith "--" then takeLong specs words word rest
  else takeShort specs rest words (word.toList.drop 1)

/-- Splits at most `fuel` words. If operands end the options, what follows the first operand is an
operand. -/
def splitWords (specs : List OptionSpec) (operandsEnd : Bool) :
    Nat → Words → List String → Option Words
  | 0, words, rest => some (words.addOperands rest)
  | _, words, [] => some words
  | fuel + 1, words, word :: rest =>
    if word = "--" then some (words.addOperands rest)
    else if isOptionWord word then
      match takeOption specs words word rest with
      | some (words, rest) => splitWords specs operandsEnd fuel words rest
      | none => none
    else if operandsEnd then some (words.addOperands (word :: rest))
    else splitWords specs operandsEnd fuel (words.addOperands [word]) rest

/-- The options and operands of some words; nothing if an option is unknown or its value is
missing or not wanted. -/
def parseWords (specs : List OptionSpec) (operandsEnd : Bool) (words : List String) :
    Option Words :=
  splitWords specs operandsEnd (words.length + 1) {} words

end SerialConsole.CommandLine
