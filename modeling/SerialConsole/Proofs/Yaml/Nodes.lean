import Mathlib.Data.List.Perm.Subperm
import Mathlib.Logic.Relation
import SerialConsole.Yaml.Construction

set_option autoImplicit false

/-!
# Documents without tags

What a document is in which every node has the tag that its form gives it: its scalars have values,
its mappings have scalars as keys, and no node is inside itself. Two keys of a mapping are the same
if their values are equal, however they are written.
-/
namespace SerialConsole.Yaml

/-! ## Equal values -/

namespace Value

variable {a b : Value}

/-- The same number, the same moment, or the very same value. What is not a number is equal to
nothing. -/
inductive Equals : Value → Value → Prop
  | number {a b : Value} {n : Int} : a.units? = some n → b.units? = some n → Equals a b
  | moment {a b : Moment} : a.offset.isSome = b.offset.isSome → a.micros? = b.micros? →
      Equals (.moment a) (.moment b)
  | same {a : Value} : a ≠ .float .nan → Equals a a

theorem equals_of_isSameKey (h : a ≠ .float .nan) (hsame : a.isSameKey b = true) :
    a.Equals b := by
  unfold isSameKey at hsame
  split at hsame
  case h_1 => exact absurd rfl h
  case h_2 =>
    rw [beq_iff_eq] at hsame
    subst hsame
    exact .same h
  case h_3 =>
    rw [Bool.and_eq_true, beq_iff_eq, beq_iff_eq] at hsame
    exact .moment hsame.1 hsame.2
  case h_4 =>
    split at hsame
    case h_1 ha hb =>
      rw [beq_iff_eq] at hsame
      exact .number ha (hsame ▸ hb)
    case h_2 =>
      rw [beq_iff_eq] at hsame
      subst hsame
      exact .same h
    case h_3 => cases hsame

theorem Equals.isSameKey (h : a.Equals b) : a.isSameKey b = true := by
  cases h with
  | number ha hb =>
    unfold Value.isSameKey
    split
    case h_1 => rfl
    case h_2 => cases ha
    case h_3 => cases ha
    case h_4 => simp only [ha, hb, beq_self_eq_true]
  | moment hzone hmicros =>
    rw [Value.isSameKey, hzone, hmicros, beq_self_eq_true, beq_self_eq_true, Bool.and_self]
  | same =>
    unfold Value.isSameKey
    split
    case h_1 => rfl
    case h_2 => exact beq_self_eq_true _
    case h_3 => rw [beq_self_eq_true, beq_self_eq_true, Bool.and_self]
    case h_4 => cases a.units? <;> exact beq_self_eq_true _

end Value

/-! ## Nodes -/

deriving instance DecidableEq for Graph

/-- The nodes that a node has as its items, keys and values. -/
def Content.parts : Content → List Nat
  | .scalar _ => []
  | .sequence items => items
  | .mapping pairs => pairs.flatMap fun pair => [pair.1, pair.2]

/-- A node with the tag that its form gives it. A scalar that is not plain is a text. -/
def Node.Implicit (node : Node) : Prop :=
  match node.content with
  | .scalar text => node.tag = standardTag "str" ∨ node.tag = standardTag (plainTag text.toList)
  | .sequence _ => node.tag = standardTag "seq"
  | .mapping _ => node.tag = standardTag "map"

namespace Graph

variable {graph : Graph} {n part : Nat} {pairs : List (Nat × Nat)}

def node (graph : Graph) (n : Nat) : Node :=
  graph.nodes.getD n default

/-- A node is an item, a key or a value of another. -/
def Holds (graph : Graph) (n part : Nat) : Prop :=
  part ∈ (graph.node n).content.parts

/-- A node of the document, at whatever depth. -/
def Reaches (graph : Graph) (n : Nat) : Prop :=
  ∃ root, graph.root = some root ∧ Relation.ReflTransGen graph.Holds root n

/-- All nodes that a graph refers to are there. -/
structure Closed (graph : Graph) : Prop where
  root {n : Nat} : graph.root = some n → n < graph.nodes.size
  parts {n part : Nat} : graph.Holds n part → part < graph.nodes.size

/-- The value of a node that is a scalar, if its text has one. -/
def scalar? (graph : Graph) (n : Nat) : Option Value :=
  match (graph.node n).content with
  | .scalar text =>
    (scalarValue? ((standardName? (graph.node n).tag).getD "") text.toList).bind Except.toOption
  | _ => none

/-- A document whose scalars have values and whose keys are scalars, other than what is not a number.
An alias does not lead back to a node that it is in. -/
structure Plain (graph : Graph) : Prop where
  acyclic {n : Nat} : graph.Reaches n → ¬ Relation.TransGen graph.Holds n n
  scalars {n : Nat} {text : String} : graph.Reaches n → (graph.node n).content = .scalar text →
    ∃ value, graph.scalar? n = some value
  keys {n : Nat} {pairs : List (Nat × Nat)} {pair : Nat × Nat} : graph.Reaches n →
    (graph.node n).content = .mapping pairs → pair ∈ pairs →
      ∃ value, graph.scalar? pair.1 = some value ∧ value ≠ .float .nan

/-- Two of the pairs have equal keys. -/
def Repeated (graph : Graph) (pairs : List (Nat × Nat)) : Prop :=
  ∃ (i j : Nat) (first second : Nat × Nat) (a b : Value),
    i < j ∧ pairs[i]? = some first ∧ pairs[j]? = some second ∧
      graph.scalar? first.1 = some a ∧ graph.scalar? second.1 = some b ∧ a.Equals b

/-- A mapping of the document, at whatever depth, has two equal keys. -/
def HasDuplicate (graph : Graph) : Prop :=
  ∃ n pairs, graph.Reaches n ∧ (graph.node n).content = .mapping pairs ∧ graph.Repeated pairs

/-- The document is a mapping. -/
def IsMapping (graph : Graph) : Prop :=
  ∃ root pairs, graph.root = some root ∧ (graph.node root).content = .mapping pairs

/-- The document has no node, or its node is a scalar that says nothing. -/
def IsEmpty (graph : Graph) : Prop :=
  ∀ root, graph.root = some root → graph.scalar? root = some .null

/-- What a document tells: a value for each node, where the values of a sequence are those of its
items, and those of a mapping are its keys and, for each key, the value of its own node. A document
without nodes is null. -/
structure Tells (graph : Graph) (document : Document) (value : Nat → Value) : Prop where
  root : document.value = graph.root.elim .null value
  scalar {n : Nat} {a : Value} : graph.Reaches n → graph.scalar? n = some a → value n = a
  sequence {n : Nat} {items : List Nat} : graph.Reaches n →
    (graph.node n).content = .sequence items →
      (value n).items? document.objects = some (items.map value)
  mapping {n : Nat} {pairs : List (Nat × Nat)} : graph.Reaches n →
    (graph.node n).content = .mapping pairs →
      (value n).pairs? document.objects = some (pairs.map fun pair => (value pair.1, value pair.2))

/-- Whether the parts of a node come after it, and its own scalar and its keys have values as in a
plain document. -/
def isPlainAt (graph : Graph) (n : Nat) : Bool :=
  match (graph.node n).content with
  | .scalar _ => (graph.scalar? n).isSome
  | .sequence items => items.all (n < ·)
  | .mapping pairs => pairs.all fun pair =>
    n < pair.1 && n < pair.2 && (graph.scalar? pair.1).any (· != .float .nan)

theorem Reaches.holds (h : graph.Reaches n) (hpart : graph.Holds n part) : graph.Reaches part := by
  obtain ⟨root, hroot, hpath⟩ := h
  exact ⟨root, hroot, hpath.tail hpart⟩

theorem Reaches.lt_size (h : graph.Reaches n) (hclosed : graph.Closed) : n < graph.nodes.size := by
  obtain ⟨root, hroot, hpath⟩ := h
  cases hpath with
  | refl => exact hclosed.root hroot
  | tail _ hlast => exact hclosed.parts hlast

theorem holds_item {items : List Nat} (hcontent : (graph.node n).content = .sequence items)
    (hitem : part ∈ items) : graph.Holds n part := by
  rwa [Holds, hcontent, Content.parts]

theorem holds_key {pair : Nat × Nat} (hcontent : (graph.node n).content = .mapping pairs)
    (hpair : pair ∈ pairs) : graph.Holds n pair.1 := by
  rw [Holds, hcontent, Content.parts]
  exact List.mem_flatMap.2 ⟨pair, hpair, by simp⟩

theorem holds_value {pair : Nat × Nat} (hcontent : (graph.node n).content = .mapping pairs)
    (hpair : pair ∈ pairs) : graph.Holds n pair.2 := by
  rw [Holds, hcontent, Content.parts]
  exact List.mem_flatMap.2 ⟨pair, hpair, by simp⟩

theorem scalar_eq_some {a : Value} : graph.scalar? n = some a ↔
    ∃ text, (graph.node n).content = .scalar text ∧
      scalarValue? ((standardName? (graph.node n).tag).getD "") text.toList = some (.ok a) := by
  unfold scalar?
  cases hcontent : (graph.node n).content with
  | scalar text =>
    cases hvalue : scalarValue? ((standardName? (graph.node n).tag).getD "") text.toList with
    | none => simp [hvalue]
    | some result => cases result <;> simp [hvalue, Except.toOption]
  | sequence items => simp
  | mapping pairs => simp

theorem lt_of_isPlainAt (h : graph.isPlainAt n = true) (hpart : graph.Holds n part) : n < part := by
  unfold isPlainAt at h
  unfold Holds at hpart
  split at h
  case h_1 hcontent =>
    rw [hcontent] at hpart
    cases hpart
  case h_2 hcontent =>
    rw [hcontent] at hpart
    exact of_decide_eq_true (List.all_eq_true.1 h part hpart)
  case h_3 hcontent =>
    rw [hcontent, Content.parts, List.mem_flatMap] at hpart
    obtain ⟨pair, hpair, hmem⟩ := hpart
    have hat := List.all_eq_true.1 h pair hpair
    simp only [Bool.and_eq_true, decide_eq_true_eq] at hat
    rcases List.mem_pair.1 hmem with rfl | rfl
    · exact hat.1.1
    · exact hat.1.2

/-- A document in which every node comes before its parts is plain if its nodes are. -/
theorem plain_of_nodes (hclosed : graph.Closed)
    (h : ∀ n < graph.nodes.size, graph.isPlainAt n = true) : graph.Plain where
  acyclic {n} hreach hcycle := by
    -- A way along the parts only leads to later nodes, so it does not come back.
    have hdown {l : Nat} (hpath : Relation.TransGen graph.Holds n l) : graph.Reaches l ∧ n < l := by
      induction hpath with
      | single hpart =>
        exact ⟨hreach.holds hpart, lt_of_isPlainAt (h n (hreach.lt_size hclosed)) hpart⟩
      | tail _ hpart ih =>
        have hlast := lt_of_isPlainAt (h _ (ih.1.lt_size hclosed)) hpart
        exact ⟨ih.1.holds hpart, Nat.lt_trans ih.2 hlast⟩
    exact Nat.lt_irrefl n (hdown hcycle).2
  scalars {n} _ hreach hcontent := by
    have hat := h n (hreach.lt_size hclosed)
    unfold isPlainAt at hat
    rw [hcontent] at hat
    exact Option.isSome_iff_exists.1 hat
  keys {n pairs pair} hreach hcontent hpair := by
    have hat := h n (hreach.lt_size hclosed)
    unfold isPlainAt at hat
    rw [hcontent] at hat
    have hkey := List.all_eq_true.1 hat pair hpair
    rw [Bool.and_eq_true, Option.any_eq_true] at hkey
    obtain ⟨value, hvalue, hnan⟩ := hkey.2
    exact ⟨value, hvalue, bne_iff_ne.1 hnan⟩

/-- The nodes that a node is in, the nearest first. -/
structure Under (graph : Graph) (path : List Nat) (n : Nat) : Prop where
  nodup : path.Nodup
  above {k : Nat} : k ∈ path → k < graph.nodes.size ∧ Relation.TransGen graph.Holds k n

theorem under_nil (n : Nat) : graph.Under [] n :=
  ⟨List.nodup_nil, fun h => by cases h⟩

section

variable {path : List Nat} (h : graph.Under path n) (hreach : graph.Reaches n)
  (hplain : graph.Plain)
include h hreach hplain

theorem Under.not_mem : n ∉ path :=
  fun hmem => hplain.acyclic hreach (h.above hmem).2

theorem Under.nodup_cons : (n :: path).Nodup :=
  List.nodup_cons.2 ⟨h.not_mem hreach hplain, h.nodup⟩

theorem Under.length_lt (hclosed : graph.Closed) : path.length < graph.nodes.size := by
  have hbelow : (n :: path) ⊆ List.range graph.nodes.size := by
    intro k hk
    rcases List.mem_cons.1 hk with rfl | hmem
    · exact List.mem_range.2 (hreach.lt_size hclosed)
    · exact List.mem_range.2 (h.above hmem).1
  have hlength := (List.subperm_of_subset (h.nodup_cons hreach hplain) hbelow).length_le
  rw [List.length_range, List.length_cons] at hlength
  omega

/-- The way to a node goes on to its parts. -/
theorem Under.push (hclosed : graph.Closed) (hpart : graph.Holds n part) :
    graph.Under (n :: path) part := by
  refine ⟨h.nodup_cons hreach hplain, fun hk => ?_⟩
  rcases List.mem_cons.1 hk with rfl | hmem
  · exact ⟨hreach.lt_size hclosed, .single hpart⟩
  · exact ⟨(h.above hmem).1, (h.above hmem).2.tail hpart⟩

end

end Graph

end SerialConsole.Yaml
