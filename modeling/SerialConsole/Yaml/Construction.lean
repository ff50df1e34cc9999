import SerialConsole.Numeral.Decimal
import SerialConsole.Text.Lowercase
import SerialConsole.Yaml.Graph
import SerialConsole.Yaml.Value

set_option autoImplicit false

/-!
# From nodes to values

A mapping is made at once, with its keys and values. A list or a set is made empty and filled
later, first come, first served, so a list can hold itself but a mapping cannot. A scalar becomes
what its tag says.
-/
namespace SerialConsole.Yaml

/-! ## Scalars -/

def digitIn? (base : Nat) (c : Char) : Option Nat :=
  match Text.digitValue? c with
  | some digit => if digit < base then some digit else none
  | none =>
    let lower := c.toLower
    if 'a' ≤ lower ∧ lower ≤ 'z' ∧ lower.toNat - 87 < base then some (lower.toNat - 87) else none

/-- A text without the mark of a base, such as `0x`. -/
def dropBaseMark (base : Nat) : List Char → List Char
  | '0' :: mark :: rest =>
    let lower := mark.toLower
    if (base = 2 ∧ lower = 'b') ∨ (base = 8 ∧ lower = 'o') ∨ (base = 16 ∧ lower = 'x') then rest
    else '0' :: mark :: rest
  | text => text

/-- A whole number in a base, with blanks around it and a sign. The underscores are gone. -/
def integerIn (base : Nat) (text : List Char) : Except Flaw Int :=
  let (negative, rest) := Whole.splitSign (Text.trim text)
  let digits := dropBaseMark base rest
  match digits.mapM (digitIn? base) with
  | some values =>
    if values.isEmpty then .error (.badInteger (String.ofList text) base)
    else if base = 10 ∧ Whole.digitLimit < values.length then .error (.longInteger values.length)
    else
      let n : Int := (values.foldl (fun n digit => base * n + digit) 0 : Nat)
      .ok (if negative then -n else n)
  | none => .error (.badInteger (String.ofList text) base)

/-- The number whose digits in base sixty are given. -/
def sexagesimal (digits : List Int) : Int :=
  digits.foldl (fun n digit => 60 * n + digit) 0

/-- A text without underscores. -/
def ungrouped (text : List Char) : List Char :=
  text.filter (· != '_')

/-- A text without a sign, and whether that was a minus. -/
def signOf (text : List Char) : Except Flaw (Bool × List Char) :=
  if text.isEmpty then .error .emptyNumber else .ok (Whole.splitSign text)

/-- A whole number without its sign: the mark at its start gives the base. -/
def unsignedInteger (text : List Char) : Except Flaw Int :=
  match text with
  | ['0'] => .ok 0
  | '0' :: 'b' :: digits => integerIn 2 digits
  | '0' :: 'x' :: digits => integerIn 16 digits
  | '0' :: _ => integerIn 8 text
  | [] => .error .emptyNumber
  | _ =>
    if text.contains ':' then do
      let digits ← (Text.splitAt ':' text).mapM (integerIn 10)
      .ok (sexagesimal digits)
    else integerIn 10 text

/-- A whole number. -/
def integer (text : List Char) : Except Flaw Value := do
  let (negative, rest) ← signOf (ungrouped text)
  let n ← unsignedInteger rest
  .ok (.int (if negative then -n else n))

def decimal (text : List Char) : Except Flaw Double :=
  match Decimal.read? text with
  | some x => .ok x
  | none => .error (.badFloat (String.ofList text))

/-- The sum of doubles that are digits in base sixty, the last digit first. -/
def sexagesimalSum (base : Nat) (sum : Double) : List Double → Double
  | [] => sum
  | digit :: digits => sexagesimalSum (base * 60) (sum.add (digit.scale base)) digits

/-- A floating-point number without its sign. -/
def unsignedFloat (text : List Char) : Except Flaw Double :=
  match String.ofList text with
  | ".inf" => .ok (.infinite false)
  | ".nan" => .ok .nan
  | _ =>
    if text.contains ':' then do
      let digits ← (Text.splitAt ':' text).mapM decimal
      .ok (sexagesimalSum 1 Double.zero digits.reverse)
    else decimal text

/-- A floating-point number. -/
def floating (text : List Char) : Except Flaw Value := do
  let (negative, rest) ← signOf (Text.lower (ungrouped text))
  let x ← unsignedFloat rest
  .ok (.float (if negative then x.neg else x))

/-- The words for the two truth values. -/
def truthWords : List (String × Bool) :=
  [("yes", true), ("no", false), ("true", true), ("false", false), ("on", true), ("off", false)]

def truth (text : List Char) : Except Flaw Value :=
  let word := String.ofList (Text.lower text)
  match truthWords.find? fun w => w.1 = word with
  | some (_, b) => .ok (.truth b)
  | none => .error (.badTruth word)

def number (digits : List Char) : Nat :=
  digits.foldl (fun n d => 10 * n + (d.toNat - 48)) 0

/-- A day, if there is such a day. -/
def dateOf (date : DateText) : Except Flaw Date :=
  let year := number date.year
  let month := number date.month
  let day := number date.day
  if year = 0 then .error (.badDate (.year year))
  else if month < 1 ∨ 12 < month then .error (.badDate .month)
  else if day < 1 ∨ Date.daysIn year month < day then .error (.badDate .day)
  else .ok ⟨year, month, day⟩

/-- A distance from UTC, which is less than a day. -/
def offsetOf (sign : Char) (hour minute : List Char) : Except Flaw Int :=
  let size : Int := 3600 * number hour + 60 * number minute
  let seconds := if sign = '-' then -size else size
  if 86400 ≤ size then
    .error (.badDate (.offset (Int.fdiv seconds 86400) (Int.fmod seconds 86400)))
  else .ok seconds

/-- A date with a time of day. The offset is looked at first. -/
def momentOf (date : DateText) (hour minute second fraction : List Char) :
    Except Flaw Moment := do
  let offset ← match date.offset with
    | some (sign, hours, minutes) => some <$> offsetOf sign hours minutes
    | none => .ok (if date.utc then some 0 else none)
  let day ← dateOf date
  if 24 ≤ number hour then .error (.badDate .hour)
  else if 60 ≤ number minute then .error (.badDate .minute)
  else if 60 ≤ number second then .error (.badDate .second)
  else
    let digits := fraction.take 6
    let micros := number (digits ++ List.replicate (6 - digits.length) '0')
    .ok ⟨day, number hour, number minute, number second, micros, offset⟩

/-- A date, with a time of day or without. -/
def timestamp (text : List Char) : Except Flaw Value :=
  match DateText.ofText? text with
  | none => .error .notATimestamp
  | some date =>
    match date.time with
    | none => (dateOf date).map .date
    | some (hour, minute, second, fraction) =>
      (momentOf date hour minute second fraction).map .moment

/-- The value of a digit in base sixty-four. -/
def digit64? (c : Char) : Option Nat :=
  if 'A' ≤ c ∧ c ≤ 'Z' then some (c.toNat - 65)
  else if 'a' ≤ c ∧ c ≤ 'z' then some (c.toNat - 71)
  else if c.isDigit then some (c.toNat + 4)
  else if c = '+' then some 62
  else if c = '/' then some 63
  else none

/-- The digits in base sixty-four up to the padding; other characters do not count. Padding that is
complete ends the text, and incomplete groups are refused. -/
def digits64 : Nat → Nat → List Char → Except Flaw (List Nat)
  | place, _, [] => if place % 4 = 0 then .ok [] else .error .malformed
  | place, pads, c :: rest =>
    if c = '=' then
      if 2 ≤ place % 4 ∧ 4 ≤ place % 4 + pads + 1 then .ok []
      else digits64 place (if 2 ≤ place % 4 then pads + 1 else pads) rest
    else
      match digit64? c with
      | some digit => do
        let digits ← digits64 (place + 1) 0 rest
        .ok (digit :: digits)
      | none => digits64 place pads rest

/-- The bytes of digits in base sixty-four. -/
def bytesOf64 : List Nat → Bytes
  | a :: b :: c :: d :: rest =>
    [a * 4 + b / 16, b % 16 * 16 + c / 4, c % 4 * 64 + d].map UInt8.ofNat ++ bytesOf64 rest
  | [a, b, c] => [a * 4 + b / 16, b % 16 * 16 + c / 4].map UInt8.ofNat
  | [a, b] => [UInt8.ofNat (a * 4 + b / 16)]
  | _ => []

/-- Bytes that are written in base sixty-four. -/
def binary (text : List Char) : Except Flaw Value :=
  if text.all fun c => c.toNat < 128 then (digits64 0 0 text).map (.bytes ∘ bytesOf64)
  else .error .malformed

/-- The value of a scalar with a standard tag, if scalars have that tag. -/
def scalarValue? (name : String) (text : List Char) : Option (Except Flaw Value) :=
  match name with
  | "null" => some (.ok .null)
  | "bool" => some (truth text)
  | "int" => some (integer text)
  | "float" => some (floating text)
  | "binary" => some (binary text)
  | "timestamp" => some (timestamp text)
  | "str" => some (.ok (.text (String.ofList text)))
  | _ => none

/-! ## Nodes -/

/-- The state of making values: the nodes, the values made so far, the nodes being made, the
objects, and the nodes whose objects are still to be filled. -/
structure Making where
  nodes : Array Node
  values : Array (Option Value)
  inside : List Nat := []
  objects : Objects
  unfilled : List Nat := []

/-- A step of making values. -/
abbrev Make (α : Type) := StateT Making (Except Flaw) α

namespace Make

def refuse {α : Type} : Make α :=
  throw .malformed

def nodeAt (n : Nat) : Make Node := do
  pure ((← get).nodes.getD n default)

/-- Puts an object in its place. -/
def setObject (n : Nat) (object : Object) : Make Unit :=
  modify fun m => { m with objects := m.objects.set! n (some object) }

/-- The text of a scalar. A mapping that has a value for `=` stands for that. -/
def scalarText : Nat → Nat → Make String
  | 0, _ => refuse
  | fuel + 1, n => do
    match (← nodeAt n).content with
    | .scalar text => pure text
    | .sequence _ => refuse
    | .mapping pairs => do
      let nodes := (← get).nodes
      match pairs.find? fun p => (nodes.getD p.1 default).tag = standardTag "value" with
      | some (_, value) => scalarText fuel value
      | none => refuse

/-- The sort of a value that cannot be a key. -/
def unhashable? (value : Value) : Make (Option KeySort) := do
  match value with
  | .object n =>
    match (← get).objects.at? n with
    | some (.list _) => pure (some .list)
    | some (.dict _) => pure (some .dict)
    | some (.set _) => pure (some .set)
    | none => pure none
  | _ => pure none

/-- Adds a pair to a mapping that does not have the key. -/
def addKey (pairs : List (Value × Value)) (key : Value) : Make Unit := do
  match ← unhashable? key with
  | some sort => throw (.unhashable sort)
  | none =>
    if pairs.any fun p => p.1.isSameKey key then throw (.duplicateKey key.plain) else pure ()

def pairs (make : Nat → Make Value) (done : List (Value × Value)) :
    List (Nat × Nat) → Make (List (Value × Value))
  | [] => pure done
  | (keyNode, valueNode) :: rest => do
    let key ← make keyNode
    addKey done key
    let value ← make valueNode
    pairs make (done ++ [(key, value)]) rest

/-- Makes a mapping. Only a mapping node has pairs, unless the node is empty. -/
def dict (make : Nat → Make Value) (n : Nat) (content : Content) : Make Unit := do
  match content with
  | .mapping nodes => do
    let done ← pairs make [] nodes
    setObject n (.dict done)
  | .sequence [] => setObject n (.dict [])
  | .sequence (first :: _) => throw (.noPair (← nodeAt first).content.sort)
  | .scalar text => if text = "" then setObject n (.dict []) else throw .shortPair

/-- The standard tags of objects that are filled later, and the empty object of each. -/
def emptyObject? (name : String) : Option Object :=
  match name with
  | "seq" | "omap" | "pairs" => some (.list [])
  | "set" => some (.set [])
  | _ => none

/-- Makes the value of a node that has none yet. -/
def fresh (fuel : Nat) (make : Nat → Make Value) (n : Nat) : Make Value := do
  let node ← nodeAt n
  let name := (standardName? node.tag).getD ""
  if name = "map" then do
    dict make n node.content
    pure (.object n)
  else
    match emptyObject? name with
    | some object => do
      setObject n object
      modify fun m => { m with unfilled := m.unfilled ++ [n] }
      pure (.object n)
    | none =>
      if (scalarValue? name []).isNone then refuse
      else do
        let text ← scalarText fuel n
        match scalarValue? name text.toList with
        | some value => liftM value
        | none => refuse

/-- The value of a node. A node inside itself has none yet and is refused. -/
def value : Nat → Nat → Make Value
  | 0, _ => refuse
  | fuel + 1, n => do
    let m ← get
    match m.values.getD n none with
    | some value => pure value
    | none =>
      if m.inside.contains n then refuse
      else do
        set { m with inside := n :: m.inside }
        let value ← fresh (fuel + 1) (value fuel) n
        modify fun m =>
          { m with values := m.values.set! n (some value), inside := m.inside.erase n }
        pure value

/-- The only pair of each of some mappings. -/
def singlePairs (make : Nat → Make Value) : List Nat → Make (List Value)
  | [] => pure []
  | n :: rest => do
    match (← nodeAt n).content with
    | .mapping [(keyNode, valueNode)] => do
      let key ← make keyNode
      let value ← make valueNode
      let others ← singlePairs make rest
      pure (.pair key value :: others)
    | _ => refuse

/-- The pairs that a merge takes from mappings, the pairs of later ones first. -/
def mergedPairs (flatten : Nat → Make (List (Nat × Nat))) (n : Nat) :
    Make (List (Nat × Nat)) := do
  match (← nodeAt n).content with
  | .mapping _ => flatten n
  | .sequence items => do
    let parts ← items.mapM fun item => do
      match (← nodeAt item).content with
      | .mapping _ => flatten item
      | _ => refuse
    pure parts.reverse.flatten
  | .scalar _ => refuse

/-- The pairs of a mapping, with the pairs it merges before its own. -/
def flatten : Nat → Nat → Make (List (Nat × Nat))
  | 0, _ => refuse
  | fuel + 1, n => do
    match (← nodeAt n).content with
    | .mapping pairs => do
      let nodes := (← get).nodes
      let isMerge (p : Nat × Nat) : Bool := (nodes.getD p.1 default).tag = standardTag "merge"
      let parts ← (pairs.filter isMerge).mapM fun p => mergedPairs (flatten fuel) p.2
      let pairs := parts.flatten ++ pairs.filter (!isMerge ·)
      let asText (node : Node) : Node :=
        if node.tag = standardTag "value" then { node with tag := standardTag "str" } else node
      modify fun m => { m with
        nodes := (pairs.foldl (fun nodes p => nodes.modify p.1 asText) m.nodes).modify n
          fun node => { node with content := .mapping pairs } }
      pure pairs
    | _ => refuse

/-- The keys of a mapping as members of a set; its values are made as well. -/
def members (make : Nat → Make Value) (done : List Value) : List (Nat × Nat) → Make (List Value)
  | [] => pure done
  | (keyNode, valueNode) :: rest => do
    let key ← make keyNode
    if (← unhashable? key).isSome then refuse
    else do
      let _ ← make valueNode
      members make (if done.any key.isSameKey then done else done ++ [key]) rest

/-- Fills the object of a node. -/
def fillObject (fuel : Nat) (n : Nat) : Make Unit := do
  let node ← nodeAt n
  match standardName? node.tag, node.content with
  | some "seq", .sequence items => do
    let values ← items.mapM (value fuel)
    setObject n (.list values)
  | some "omap", .sequence items => do
    let values ← singlePairs (value fuel) items
    setObject n (.list values)
  | some "pairs", .sequence items => do
    let values ← singlePairs (value fuel) items
    setObject n (.list values)
  | some "set", .mapping _ => do
    let pairs ← flatten fuel n
    let values ← members (value fuel) [] pairs
    setObject n (.set values)
  | _, _ => refuse

/-- Fills objects until none is left, in rounds. -/
def fillAll (fuel : Nat) : Nat → Make Unit
  | 0 => pure ()
  | rounds + 1 => do
    let unfilled := (← get).unfilled
    if unfilled.isEmpty then pure ()
    else do
      modify fun m => { m with unfilled := [] }
      for n in unfilled do
        fillObject fuel n
      fillAll fuel rounds

end Make

/-- A value with the objects that it reaches. -/
structure Document where
  value : Value
  objects : Objects
  deriving Repr, Inhabited

/-- The value that a graph describes; an empty document is null. -/
def Document.ofGraph (graph : Graph) : Except Flaw Document := do
  match graph.root with
  | none => .ok ⟨.null, #[]⟩
  | some root =>
    let size := graph.nodes.size
    let fuel := size + 2
    let work : Make Value := do
      let value ← Make.value fuel root
      Make.fillAll fuel fuel
      pure value
    let (value, made) ← work.run
      { nodes := graph.nodes
        values := Array.replicate size none
        objects := Array.replicate size none }
    .ok ⟨value, made.objects⟩

def Document.ofText (text : List Char) : Except Flaw Document := do
  Document.ofGraph (← Graph.ofText text)

end SerialConsole.Yaml
