import SerialConsole.Settings.Document

set_option autoImplicit false

/-!
# Settings as a tree

Settings are written as a tree of mappings, lists, texts and whole numbers. Here are that tree, the
text that is written for it (`render_eq`), and what it means that a document holds it.
-/
namespace SerialConsole.Settings

open Yaml

inductive Tree where
  | text (s : String)
  | whole (n : Int)
  | list (items : List Tree)
  | mapping (pairs : List (String × Tree))

namespace Tree

/-! ## Trees in documents -/

mutual

/-- Whether a value holds a tree, with the keys and items in the same order. -/
def isIn (objects : Objects) : Tree → Value → Bool
  | .text s, value => value == .text s
  | .whole n, value => value == .int n
  | .list items, value => (value.items? objects).any (areItems objects items)
  | .mapping pairs, value => (value.pairs? objects).any (arePairs objects pairs)

/-- Whether values hold the items of a list. -/
def areItems (objects : Objects) : List Tree → List Value → Bool
  | [], [] => true
  | item :: items, value :: values => item.isIn objects value && areItems objects items values
  | _, _ => false

/-- Whether keys and values hold the pairs of a mapping. -/
def arePairs (objects : Objects) : List (String × Tree) → List (Value × Value) → Bool
  | [], [] => true
  | (key, tree) :: pairs, (name, value) :: kept =>
    name == .text key && tree.isIn objects value && arePairs objects pairs kept
  | _, _ => false

end

/-! ## Trees as texts -/

/-- Lines of which all but the first are indented further. -/
def dashed : List (List Char) → List (List Char)
  | [] => []
  | first :: rest => ('-' :: ' ' :: first) :: rest.map ([' ', ' '] ++ ·)

mutual

/-- The lines for the pairs of a mapping; the ones inside are indented further. -/
def pairLines (indent : Nat) : List (String × Tree) → List (List Char)
  | [] => []
  | (key, .text s) :: pairs => textLine indent key s :: pairLines indent pairs
  | (key, .whole n) :: pairs => numberLine key n :: pairLines indent pairs
  | (key, .list items) :: pairs =>
    (key ++ ":\n").toList :: itemLines indent items ++ pairLines indent pairs
  | (key, .mapping inner) :: pairs =>
    (key ++ ":\n").toList :: (pairLines (indent + 2) inner).map ([' ', ' '] ++ ·) ++
      pairLines indent pairs

/-- The lines for the items of a list; a dash marks the first one of each. -/
def itemLines (indent : Nat) : List Tree → List (List Char)
  | [] => []
  | .text s :: items =>
    dashed [writeText (indent + 2) (indent + 2) s.toList ++ ['\n']] ++ itemLines indent items
  | .whole n :: items => dashed [(toString n).toList ++ ['\n']] ++ itemLines indent items
  | .list inner :: items => dashed (itemLines (indent + 2) inner) ++ itemLines indent items
  | .mapping pairs :: items => dashed (pairLines (indent + 2) pairs) ++ itemLines indent items

end

/-- The text for a mapping. -/
def written (pairs : List (String × Tree)) : List Char :=
  (pairLines 0 pairs).flatten

/-- What is written for a mapping is read as a document that holds it. -/
def isRestored (pairs : List (String × Tree)) : Bool :=
  match Document.ofText (written pairs) with
  | .ok document => (Tree.mapping pairs).isIn document.objects document.value
  | .error _ => false

end Tree

/-! ## The tree of some settings -/

def lineParts (line : LineSettings) : List (String × Tree) :=
  [("baud_rate", .whole line.baudRate), ("data_bits", .whole line.dataBits),
    ("stop_bits", .whole line.stopBits), ("parity", .text line.parity),
    ("flow_control", .text line.flowControl)]

/-- A command without a description has no such part. -/
def commandParts (command : SavedCommand) : List (String × Tree) :=
  [("name", .text command.name), ("data", .text command.data), ("format", .text command.format)] ++
    (command.description.map fun description => ("description", Tree.text description)).toList

def commandTree (command : SavedCommand) : Tree :=
  .mapping (commandParts command)

/-- An empty port is left out like no port. -/
def portParts : Option String → List (String × Tree)
  | some port => if port = "" then [] else [("port", .text port)]
  | none => []

def listParts (commands : List SavedCommand) : List (String × Tree) :=
  if commands.isEmpty then [] else [("commands", .list (commands.map commandTree))]

def parts (settings : Settings) : List (String × Tree) :=
  ("serial", .mapping (lineParts settings.line)) ::
    (portParts settings.port ++ listParts settings.commands)

/-! ## The text of some settings -/

theorem Tree.pairLines_append (indent : Nat) (a b : List (String × Tree)) :
    pairLines indent (a ++ b) = pairLines indent a ++ pairLines indent b := by
  induction a with
  | nil => rw [pairLines, List.nil_append, List.nil_append]
  | cons pair rest ih =>
    obtain ⟨key, tree⟩ := pair
    cases tree <;> simp only [List.cons_append, pairLines, ih, List.append_assoc]

theorem pairLines_lineParts (line : LineSettings) :
    "serial:\n".toList :: (Tree.pairLines 2 (lineParts line)).map ([' ', ' '] ++ ·) =
      lineLines line := by
  simp [Tree.pairLines, lineParts, lineLines]

theorem pairLines_portParts (port : Option String) :
    Tree.pairLines 0 (portParts port) =
      match port with
      | some port => if port = "" then [] else [textLine 0 "port" port]
      | none => [] := by
  cases port with
  | none => rw [portParts, Tree.pairLines]
  | some port =>
    by_cases hempty : port = ""
    · simp only [portParts, if_pos hempty, Tree.pairLines]
    · simp only [portParts, if_neg hempty, Tree.pairLines]

theorem dashed_commandParts (command : SavedCommand) :
    Tree.dashed (Tree.pairLines 2 (commandParts command)) = commandLines command := by
  cases hdescription : command.description <;>
    simp [Tree.pairLines, Tree.dashed, commandParts, commandLines, hdescription]

theorem itemLines_commandTree (commands : List SavedCommand) :
    Tree.itemLines 0 (commands.map commandTree) = commands.flatMap commandLines := by
  induction commands with
  | nil => rw [List.map_nil, Tree.itemLines, List.flatMap_nil]
  | cons command rest ih =>
    rw [List.map_cons, commandTree, Tree.itemLines, dashed_commandParts, ih, List.flatMap_cons]

theorem pairLines_listParts (commands : List SavedCommand) :
    Tree.pairLines 0 (listParts commands) =
      if commands.isEmpty then [] else "commands:\n".toList :: commands.flatMap commandLines := by
  unfold listParts
  split
  · rw [Tree.pairLines]
  · rw [Tree.pairLines, itemLines_commandTree, Tree.pairLines, List.append_nil]
    rfl

/-- Settings are written as their tree. -/
theorem render_eq (settings : Settings) :
    settings.render = String.ofList (Tree.written settings.parts) := by
  have hserial (pairs : List (String × Tree)) :
      Tree.pairLines 0 (("serial", .mapping (lineParts settings.line)) :: pairs) =
        lineLines settings.line ++ Tree.pairLines 0 pairs := by
    rw [Tree.pairLines, ← pairLines_lineParts]
    rfl
  rw [Tree.written, parts, hserial, Tree.pairLines_append, pairLines_portParts, pairLines_listParts,
    ← List.append_assoc]
  rfl

end SerialConsole.Settings
