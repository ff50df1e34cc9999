set_option autoImplicit false

/-!
# Tokens of a document

The pieces that a document consists of. Indentation appears as tokens that open and close block
collections.
-/
namespace SerialConsole.Yaml

inductive Directive where
  | version (major minor : Nat)
  | tagHandle (handle start : String)
  | other
  deriving DecidableEq, Repr

/-- A piece of a document. -/
inductive Token where
  | directive (directive : Directive)
  | documentStart
  | documentEnd
  | streamEnd
  | blockSequenceStart
  | blockMappingStart
  | blockEnd
  | flowSequenceStart
  | flowSequenceEnd
  | flowMappingStart
  | flowMappingEnd
  | blockEntry
  | flowEntry
  | key
  | value
  | alias (name : String)
  | anchor (name : String)
  | tag (handle : Option String) (suffix : String)
  | scalar (text : String) (plain : Bool)
  deriving DecidableEq, Repr, Inhabited

end SerialConsole.Yaml
