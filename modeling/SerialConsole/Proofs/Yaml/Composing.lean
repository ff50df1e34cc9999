import SerialConsole.Proofs.Yaml.Scanning
import SerialConsole.Yaml.Graph

set_option autoImplicit false
set_option mvcgen.warning false

/-!
# What composing refuses

Composing the nodes of a document finds no flaw but that the tokens are malformed. So a text whose
graph cannot be read is malformed or has a code in it that is too large.
-/
namespace SerialConsole.Yaml

open Std.Do

namespace Read

/-- Reading on finds no other flaw than that the document is malformed. -/
abbrev Strict {α : Type} (read : Read α) : Prop :=
  ⦃⌜True⌝⦄ read ⦃post⟨fun _ => ⌜True⌝, fun flaw => ⌜flaw = .malformed⌝⟩⦄

theorem Strict.of_error {α : Type} {read : Read α} {r : Reading} {flaw : Flaw} (h : Strict read)
    (hflaw : read.run r = .error flaw) : flaw = .malformed := by
  have hread : (wp⟦read.run r⟧ post⟨fun _ => ⌜True⌝, fun flaw => ⌜flaw = .malformed⌝⟩).down :=
    h r trivial
  rw [hflaw] at hread
  exact hread

@[spec]
theorem refuse_strict {α : Type} : Strict (refuse : Read α) :=
  fun _ _ => rfl

@[spec]
theorem peek_strict : Strict peek := by
  mvcgen [peek]

@[spec]
theorem advance_strict : Strict advance := by
  mvcgen [advance]

@[spec]
theorem skip_strict (token : Token) : Strict (skip token) := by
  mvcgen [skip]

@[spec]
theorem expect_strict (token : Token) : Strict (expect token) := by
  mvcgen [expect]

@[spec]
theorem add_strict (node : Node) : Strict (add node) := by
  mvcgen [add]

@[spec]
theorem fill_strict (n : Nat) (content : Content) : Strict (fill n content) := by
  mvcgen [fill]

@[spec]
theorem empty_strict : Strict empty := by
  mvcgen [empty]

@[spec]
theorem fullTag_strict (handle : Option String) (suffix : String) :
    Strict (fullTag handle suffix) := by
  mvcgen [fullTag]

@[spec]
theorem properties_strict : Strict properties := by
  mvcgen [properties]

@[spec]
theorem name_strict (anchor : Option String) (n : Nat) : Strict (name anchor n) := by
  mvcgen [name]

@[spec]
theorem checkAnchor_strict (anchor : Option String) : Strict (checkAnchor anchor) := by
  mvcgen [checkAnchor]

@[spec]
theorem scalar_strict (p : Properties) (text : String) (plain : Bool) :
    Strict (scalar p text plain) := by
  mvcgen [scalar]

@[spec]
theorem collection_strict (p : Properties) (usual : String) {content : Read Content}
    (h : Strict content) : Strict (collection p usual content) := by
  mvcgen [collection, h]

@[spec]
theorem aliased_strict (anchor : String) : Strict (aliased anchor) := by
  mvcgen [aliased]

@[spec]
theorem emptyNode_strict (p : Properties) : Strict (emptyNode p) := by
  mvcgen [emptyNode]

/-- Reading nodes and their parts is strict with some fuel. -/
structure AllStrict (fuel : Nat) : Prop where
  node (setting : Setting) : Strict (node fuel setting)
  blockItems : Strict (blockItems fuel)
  bareItems : Strict (bareItems fuel)
  blockPairs : Strict (blockPairs fuel)
  singlePair : Strict (singlePair fuel)
  flowItems (first : Bool) : Strict (flowItems fuel first)
  flowPairs (first : Bool) : Strict (flowPairs fuel first)

theorem allStrict (fuel : Nat) : AllStrict fuel := by
  induction fuel with
  | zero =>
    exact
      { node := fun _ => refuse_strict
        blockItems := refuse_strict
        bareItems := refuse_strict
        blockPairs := refuse_strict
        singlePair := refuse_strict
        flowItems := fun _ => refuse_strict
        flowPairs := fun _ => refuse_strict }
  | succ fuel ih =>
    obtain ⟨hnode, hblockItems, hbareItems, hblockPairs, hsinglePair, hflowItems, hflowPairs⟩ := ih
    constructor
    case node =>
      intro setting
      mvcgen [node, hblockItems, hbareItems, hblockPairs, hflowItems, hflowPairs]
    case blockItems => mvcgen [blockItems, hnode, hblockItems]
    case bareItems => mvcgen [bareItems, hnode, hbareItems]
    case blockPairs => mvcgen [blockPairs, hnode, hblockPairs]
    case singlePair => mvcgen [singlePair, hnode]
    case flowItems =>
      intro first
      mvcgen [flowItems, hnode, hsinglePair, hflowItems]
    case flowPairs =>
      intro first
      mvcgen [flowPairs, hnode, hflowPairs]

@[spec]
theorem node_strict (fuel : Nat) (setting : Setting) : Strict (node fuel setting) :=
  (allStrict fuel).node setting

@[spec]
theorem directives_strict (fuel : Nat) (versioned : Bool) (handles : List (String × String)) :
    Strict (directives fuel versioned handles) := by
  induction fuel generalizing versioned handles with
  | zero => exact refuse_strict
  | succ fuel ih => mvcgen [directives, ih]

@[spec]
theorem skipEnds_strict (fuel : Nat) : Strict (skipEnds fuel) := by
  induction fuel with
  | zero => mvcgen [skipEnds]
  | succ fuel ih => mvcgen [skipEnds, ih]

@[spec]
theorem markedDocument_strict (fuel : Nat) : Strict (markedDocument fuel) := by
  mvcgen [markedDocument]

@[spec]
theorem document_strict (fuel : Nat) : Strict (document fuel) := by
  mvcgen [document]

end Read

/-- A text whose graph is refused is malformed or has a code in it that is too large. -/
theorem Graph.scans_of_error {text : List Char} {flaw : Flaw}
    (h : Graph.ofText text = .error flaw) : Scans text flaw := by
  unfold Graph.ofText Graph.ofTokens at h
  cases htokens : Token.ofText text with
  | error met =>
    rw [htokens] at h
    cases h
    exact Token.scans_of_error htokens
  | ok tokens =>
    rw [htokens] at h
    simp only [bind, Except.bind] at h
    split at h
    case h_1 hread =>
      cases h
      exact Or.inl ((Read.document_strict _).of_error hread)
    case h_2 => cases h

end SerialConsole.Yaml
