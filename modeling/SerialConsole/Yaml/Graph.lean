import SerialConsole.Yaml.Lexer
import SerialConsole.Yaml.Tag

set_option autoImplicit false

/-!
# From tokens to nodes

A document is a graph of nodes: scalars, sequences and mappings, each with a tag. An alias stands
for the node that has the anchor, so a node can be reached on several ways, even from within
itself. A file holds at most one document.
-/
namespace SerialConsole.Yaml

/-- What a node holds; other nodes are given by their numbers. -/
inductive Content where
  | scalar (text : String)
  | sequence (items : List Nat)
  | mapping (pairs : List (Nat × Nat))
  deriving DecidableEq, Repr, Inhabited

def Content.sort : Content → NodeSort
  | .scalar _ => .scalar
  | .sequence _ => .sequence
  | .mapping _ => .mapping

structure Node where
  tag : String
  content : Content
  deriving DecidableEq, Repr, Inhabited

/-- The nodes of a document and, unless it is empty, the node that it is. -/
structure Graph where
  nodes : Array Node := #[]
  root : Option Nat := none
  deriving Repr, Inhabited

/-- What is still to be read, and what was read so far. -/
structure Reading where
  tokens : List Token
  nodes : Array Node := #[]
  anchors : List (String × Nat) := []
  handles : List (String × String) := []

abbrev Read (α : Type) := StateT Reading (Except Flaw) α

namespace Read

def refuse {α : Type} : Read α :=
  throw .malformed

/-- The next token, which is not taken. -/
def peek : Read Token := do
  pure ((← get).tokens.head?.getD .streamEnd)

/-- Passes over the next token. -/
def advance : Read Unit :=
  modify fun r => { r with tokens := r.tokens.drop 1 }

/-- Passes over the next token if it is the given one. -/
def skip (token : Token) : Read Bool := do
  if (← peek) = token then do
    advance
    pure true
  else pure false

/-- Passes over a token that has to come next. -/
def expect (token : Token) : Read Unit := do
  if ← skip token then pure () else refuse

def add (node : Node) : Read Nat := do
  let r ← get
  set { r with nodes := r.nodes.push node }
  pure r.nodes.size

def fill (n : Nat) (content : Content) : Read Unit :=
  modify fun r => { r with nodes := r.nodes.modify n fun node => { node with content } }

/-- A plain scalar without text. -/
def empty : Read Nat :=
  add ⟨standardTag "null", .scalar ""⟩

structure Properties where
  anchor : Option String := none
  tag : Option String := none

def fullTag (handle : Option String) (suffix : String) : Read String := do
  match handle with
  | none => pure suffix
  | some handle =>
    match (← get).handles.find? fun h => h.1 = handle with
    | some (_, start) => pure (start ++ suffix)
    | none => refuse

/-- An anchor and a tag, in either order. -/
def properties : Read Properties := do
  match ← peek with
  | .anchor name => do
    advance
    match ← peek with
    | .tag handle suffix => do
      advance
      let tag ← fullTag handle suffix
      pure ⟨some name, some tag⟩
    | _ => pure ⟨some name, none⟩
  | .tag handle suffix => do
    advance
    let next ← peek
    match next with
    | .anchor name => do
      advance
      let tag ← fullTag handle suffix
      pure ⟨some name, some tag⟩
    | _ => do
      let tag ← fullTag handle suffix
      pure ⟨none, some tag⟩
  | _ => pure {}

/-- Gives a node its anchor, which no node may have yet. -/
def name (anchor : Option String) (n : Nat) : Read Unit := do
  match anchor with
  | none => pure ()
  | some anchor => modify fun r => { r with anchors := (anchor, n) :: r.anchors }

/-- Refuses an anchor that a node has already. -/
def checkAnchor (anchor : Option String) : Read Unit := do
  match anchor with
  | none => pure ()
  | some anchor => if (← get).anchors.any fun a => a.1 = anchor then refuse else pure ()

/-- The tag of a scalar: the given one, or the one that its text decides when it is plain. -/
def scalarTag (given : Option String) (plain : Bool) (text : String) : String :=
  match given with
  | none => standardTag (if plain then plainTag text.toList else "str")
  | some "!" => standardTag (plainTag text.toList)
  | some tag => tag

/-- The tag of a collection: the given one, or the usual one. -/
def collectionTag (given : Option String) (usual : String) : String :=
  match given with
  | none => standardTag usual
  | some "!" => standardTag usual
  | some tag => tag

def scalar (p : Properties) (text : String) (plain : Bool) : Read Nat := do
  let n ← add ⟨scalarTag p.tag plain text, .scalar text⟩
  name p.anchor n
  pure n

/-- Adds a collection and then reads its content. -/
def collection (p : Properties) (usual : String) (content : Read Content) : Read Nat := do
  advance
  let n ← add ⟨collectionTag p.tag usual, .scalar ""⟩
  name p.anchor n
  let content ← content
  fill n content
  pure n

/-- The node that an alias stands for. -/
def aliased (anchor : String) : Read Nat := do
  match (← get).anchors.find? fun a => a.1 = anchor with
  | some (_, n) => pure n
  | none => refuse

/-- The kinds of places where a node stands: in brackets, in a block, or after a key in a block,
where the dashes of a sequence need no indentation. -/
inductive Setting where
  | flow
  | block
  | underKey
  deriving DecidableEq

/-- Whether a token ends a key or a value in a block mapping. -/
def endsBlockPart : Token → Bool
  | .key | .value | .blockEnd => true
  | _ => false

mutual

def node : Nat → Setting → Read Nat
  | 0, _ => refuse
  | fuel + 1, setting => do
    match ← peek with
    | .alias anchor => do
      advance
      aliased anchor
    | _ => do
      let p ← properties
      checkAnchor p.anchor
      match ← peek with
      | .scalar text plain => do
        advance
        scalar p text plain
      | .flowSequenceStart =>
        collection p "seq" (return .sequence (← flowItems fuel true))
      | .flowMappingStart =>
        collection p "map" (return .mapping (← flowPairs fuel true))
      | .blockEntry =>
        if setting = .underKey then do
          let n ← add ⟨collectionTag p.tag "seq", .scalar ""⟩
          name p.anchor n
          let items ← bareItems fuel
          fill n (.sequence items)
          pure n
        else emptyNode p
      | .blockSequenceStart =>
        if setting = .flow then emptyNode p
        else collection p "seq" (return .sequence (← blockItems fuel))
      | .blockMappingStart =>
        if setting = .flow then emptyNode p
        else collection p "map" (return .mapping (← blockPairs fuel))
      | _ => emptyNode p

/-- A node of which only the anchor or the tag is written. -/
def emptyNode (p : Properties) : Read Nat :=
  if p.anchor.isSome || p.tag.isSome then scalar p "" true else refuse

/-- The entries of an indented block sequence. -/
def blockItems : Nat → Read (List Nat)
  | 0 => refuse
  | fuel + 1 => do
    if ← skip .blockEntry then do
      let next ← peek
      let item ← if next = .blockEntry ∨ next = .blockEnd then empty else node fuel .block
      let items ← blockItems fuel
      pure (item :: items)
    else do
      expect .blockEnd
      pure []

/-- The entries of a block sequence that is not indented. -/
def bareItems : Nat → Read (List Nat)
  | 0 => refuse
  | fuel + 1 => do
    if ← skip .blockEntry then do
      let next ← peek
      let item ←
        if next = .blockEntry ∨ endsBlockPart next then empty else node fuel .block
      let items ← bareItems fuel
      pure (item :: items)
    else pure []

def blockPairs : Nat → Read (List (Nat × Nat))
  | 0 => refuse
  | fuel + 1 => do
    if ← skip .key then do
      let key ← if endsBlockPart (← peek) then empty else node fuel .underKey
      let value ←
        if ← skip .value then
          if endsBlockPart (← peek) then empty else node fuel .underKey
        else empty
      let pairs ← blockPairs fuel
      pure ((key, value) :: pairs)
    else do
      expect .blockEnd
      pure []

/-- A key and a value as the only pair of a mapping, as an item in brackets. -/
def singlePair : Nat → Read Nat
  | 0 => refuse
  | fuel + 1 => do
    advance
    let n ← add ⟨standardTag "map", .scalar ""⟩
    let next ← peek
    let key ←
      if next = .value ∨ next = .flowEntry ∨ next = .flowSequenceEnd then empty
      else node fuel .flow
    let value ←
      if ← skip .value then do
        let next ← peek
        if next = .flowEntry ∨ next = .flowSequenceEnd then empty else node fuel .flow
      else empty
    fill n (.mapping [(key, value)])
    pure n

/-- The items up to a closing bracket, with commas between them. -/
def flowItems : Nat → Bool → Read (List Nat)
  | 0, _ => refuse
  | fuel + 1, first => do
    if ← skip .flowSequenceEnd then pure []
    else do
      if first then pure () else expect .flowEntry
      let next ← peek
      if next = .flowSequenceEnd then do
        advance
        pure []
      else do
        let item ← if next = .key then singlePair fuel else node fuel .flow
        let items ← flowItems fuel false
        pure (item :: items)

/-- The pairs up to a closing brace, with commas between them. -/
def flowPairs : Nat → Bool → Read (List (Nat × Nat))
  | 0, _ => refuse
  | fuel + 1, first => do
    if ← skip .flowMappingEnd then pure []
    else do
      if first then pure () else expect .flowEntry
      let next ← peek
      if next = .flowMappingEnd then do
        advance
        pure []
      else do
        let pair ←
          if next = .key then do
            advance
            let next ← peek
            let key ←
              if next = .value ∨ next = .flowEntry ∨ next = .flowMappingEnd then empty
              else node fuel .flow
            let value ←
              if ← skip .value then do
                let next ← peek
                if next = .flowEntry ∨ next = .flowMappingEnd then empty else node fuel .flow
              else empty
            pure (key, value)
          else do
            let key ← node fuel .flow
            let value ← empty
            pure (key, value)
        let pairs ← flowPairs fuel false
        pure (pair :: pairs)

end

/-- The tag handles that need no directive. -/
def usualHandles : List (String × String) :=
  [("!", "!"), ("!!", standardTag "")]

/-- The directives before a document: at most one version, which has to be a first one, and each
handle at most once. -/
def directives : Nat → Bool → List (String × String) → Read (List (String × String))
  | 0, _, _ => refuse
  | fuel + 1, versioned, handles => do
    match ← peek with
    | .directive (.version major _) => do
      advance
      if versioned || major != 1 then refuse else directives fuel true handles
    | .directive (.tagHandle handle start) => do
      advance
      if handles.any fun h => h.1 = handle then refuse
      else directives fuel versioned (handles ++ [(handle, start)])
    | .directive .other => do
      advance
      directives fuel versioned handles
    | _ => pure handles

/-- Passes over marks that end documents. -/
def skipEnds : Nat → Read Unit
  | 0 => pure ()
  | fuel + 1 => do
    if ← skip .documentEnd then skipEnds fuel else pure ()

/-- Whether a token ends a document that has no content. -/
def endsDocument : Token → Bool
  | .directive _ | .documentStart | .documentEnd | .streamEnd => true
  | _ => false

/-- A document that starts with directives or a mark. -/
def markedDocument (fuel : Nat) : Read (Option Nat) := do
  skipEnds fuel
  if (← peek) = .streamEnd then pure none
  else do
    let handles ← directives fuel false []
    modify fun r => { r with handles := handles ++ usualHandles }
    expect .documentStart
    let n ← if endsDocument (← peek) then empty else node fuel .block
    pure (some n)

def document (fuel : Nat) : Read (Option Nat) := do
  let root ←
    match ← peek with
    | .directive _ | .documentStart | .streamEnd => markedDocument fuel
    | _ => do
      modify fun r => { r with handles := usualHandles }
      let n ← node fuel .block
      pure (some n)
  let _ ← skip .documentEnd
  skipEnds fuel
  expect .streamEnd
  pure root

end Read

def Graph.ofTokens (tokens : List Token) : Except Flaw Graph := do
  let (root, reading) ← (Read.document (2 * tokens.length + 8)).run { tokens }
  .ok { nodes := reading.nodes, root }

def Graph.ofText (text : List Char) : Except Flaw Graph := do
  Graph.ofTokens (← Token.ofText text)

end SerialConsole.Yaml
