import SerialConsole.Proofs.Yaml.Composing
import SerialConsole.Yaml.Construction

set_option autoImplicit false
set_option mvcgen.warning false

/-!
# What making values refuses

A node fits when its value can be made: the text of a scalar is one of its tag, what is tagged as a
mapping is one, and no key is a collection. If all nodes of a graph fit, making its values finds no
other flaws than those that are reported as flaws of the settings.
-/
namespace SerialConsole.Yaml

open Std.Do

def Value.isObject : Value → Bool
  | .object _ => true
  | _ => false

/-- Whether the value of a node is an object, which cannot be a key. -/
def Node.isObject (node : Node) : Bool :=
  let name := (standardName? node.tag).getD ""
  name = "map" || (Make.emptyObject? name).isSome

/-- Whether the value of a node of a graph is an object. -/
def Graph.isObject (graph : Graph) (n : Nat) : Bool :=
  (graph.nodes.getD n default).isObject

/-- No key of some pairs is an object. -/
abbrev Graph.PlainKeys (graph : Graph) (pairs : List (Nat × Nat)) : Prop :=
  ∀ pair ∈ pairs, graph.isObject pair.1 = false

/-- A node whose value can be made. A mapping with the tag of a scalar may stand for any text, since
it can have a pair that gives it one. -/
structure Node.Fits (graph : Graph) (node : Node) : Prop where
  text {name : String} {text : String} {flaw : Flaw} : standardName? node.tag = some name →
    node.content = .scalar text ∨ node.content.sort = .mapping →
    scalarValue? name text.toList = some (.error flaw) → flaw.kind.isOwn = true
  mapping : standardName? node.tag = some "map" →
    node.content = .scalar "" ∨ node.content = .sequence [] ∨ node.content.sort = .mapping
  keys {pairs : List (Nat × Nat)} : node.content = .mapping pairs → graph.PlainKeys pairs

/-- All nodes of a graph fit. -/
def Graph.Fits (graph : Graph) : Prop :=
  ∀ node ∈ graph.nodes, node.Fits graph

/-- While the values of a graph are made, its nodes keep their sorts, all of them fit, and only
what is an object was made one. -/
structure Making.Fits (graph : Graph) (m : Making) : Prop where
  nodes (n : Nat) : (m.nodes.getD n default).Fits graph
  objects (n : Nat) : (m.nodes.getD n default).isObject = graph.isObject n
  sorts (n : Nat) :
    (m.nodes.getD n default).content.sort = (graph.nodes.getD n default).content.sort
  values {n : Nat} {value : Value} : m.values.getD n none = some value → value.isObject = true →
    graph.isObject n = true

section

variable {graph : Graph}

theorem standardName_of_getD {tag name : String} (h : (standardName? tag).getD "" = name)
    (hname : name ≠ "") : standardName? tag = some name := by
  cases hfound : standardName? tag with
  | none =>
    rw [hfound] at h
    exact absurd h.symm hname
  | some found => rw [← h, hfound, Option.getD_some]

theorem standardName_empty : standardName? "" = none := by
  decide +kernel

theorem standardName_value : standardName? (standardTag "value") = some "value" := by
  decide +kernel

theorem standardName_str : standardName? (standardTag "str") = some "str" := by
  decide +kernel

theorem fits_default : (default : Node).Fits graph where
  text h := by cases standardName_empty.symm.trans h
  mapping h := by cases standardName_empty.symm.trans h
  keys h := by cases h

/-! ## Scalars -/

theorem isObject_of_truth {text : List Char} {value : Value} (h : truth text = .ok value) :
    value.isObject = false := by
  unfold truth at h
  dsimp only at h
  split at h
  · cases h; rfl
  · cases h

theorem isObject_of_bind {α : Type} {result : Except Flaw α} {f : α → Except Flaw Value}
    {value : Value} (hf : ∀ a, f a = .ok value → value.isObject = false)
    (h : result >>= f = .ok value) : value.isObject = false := by
  cases result with
  | error flaw => cases h
  | ok a => exact hf a h

theorem isObject_of_map {α : Type} {result : Except Flaw α} {f : α → Value} {value : Value}
    (hf : ∀ a, (f a).isObject = false) (h : result.map f = .ok value) :
    value.isObject = false := by
  cases result with
  | error flaw => cases h
  | ok a => cases h; exact hf a

theorem isObject_of_integer {text : List Char} {value : Value} (h : integer text = .ok value) :
    value.isObject = false := by
  refine isObject_of_bind (fun signed h => isObject_of_bind (fun n h => ?_) h) h
  cases h
  rfl

theorem isObject_of_floating {text : List Char} {value : Value} (h : floating text = .ok value) :
    value.isObject = false := by
  refine isObject_of_bind (fun signed h => isObject_of_bind (fun x h => ?_) h) h
  cases h
  rfl

theorem isObject_of_timestamp {text : List Char} {value : Value} (h : timestamp text = .ok value) :
    value.isObject = false := by
  unfold timestamp at h
  split at h
  · cases h
  · split at h
    · exact isObject_of_map (fun _ => rfl) h
    · exact isObject_of_map (fun _ => rfl) h

theorem isObject_of_binary {text : List Char} {value : Value} (h : binary text = .ok value) :
    value.isObject = false := by
  unfold binary at h
  split at h
  · exact isObject_of_map (fun _ => rfl) h
  · cases h

/-- The value of a scalar is not an object. -/
theorem isObject_of_scalarValue {name : String} {text : List Char} {value : Value}
    (h : scalarValue? name text = some (.ok value)) : value.isObject = false := by
  unfold scalarValue? at h
  split at h
  case h_1 => cases h; rfl
  case h_2 => exact isObject_of_truth (Option.some.inj h)
  case h_3 => exact isObject_of_integer (Option.some.inj h)
  case h_4 => exact isObject_of_floating (Option.some.inj h)
  case h_5 => exact isObject_of_binary (Option.some.inj h)
  case h_6 => exact isObject_of_timestamp (Option.some.inj h)
  case h_7 => cases h; rfl
  case h_8 => cases h

/-! ## The state -/

theorem getD_modify {α : Type} (a : Array α) (i j : Nat) (f : α → α) (d : α) :
    (a.modify i f).getD j d = if i = j ∧ j < a.size then f (a.getD j d) else a.getD j d := by
  by_cases hsize : j < a.size
  · by_cases hsame : i = j
    · subst hsame
      simp [hsize, Array.getElem_modify]
    · simp [hsize, hsame, Array.getElem_modify]
  · simp [hsize]

/-- A node whose tag is that of a value key as the text that it is. -/
def Node.asText (node : Node) : Node :=
  if node.tag = standardTag "value" then { node with tag := standardTag "str" } else node

/-- The nodes after the keys of some pairs are taken as texts. -/
def asTexts (nodes : Array Node) (pairs : List (Nat × Nat)) : Array Node :=
  pairs.foldl (fun nodes pair => nodes.modify pair.1 Node.asText) nodes

namespace Node

variable {node : Node}

theorem content_asText (node : Node) : node.asText.content = node.content := by
  unfold asText
  split <;> rfl

theorem isObject_asText (node : Node) : node.asText.isObject = node.isObject := by
  unfold asText
  split
  case isTrue h =>
    unfold isObject
    rw [h, standardName_value, standardName_str]
    decide
  case isFalse => rfl

theorem Fits.asText (h : node.Fits graph) : node.asText.Fits graph := by
  unfold Node.asText
  split
  case isFalse => exact h
  case isTrue =>
    refine ⟨fun hname _ hflaw => ?_, fun hname => ?_, h.keys⟩
    · cases standardName_str.symm.trans hname
      cases hflaw
    · exact absurd (standardName_str.symm.trans hname) (by decide)

theorem isObject_replace (node : Node) (content : Content) :
    ({ node with content } : Node).isObject = node.isObject :=
  rfl

/-- A mapping whose pairs are replaced by others that fit. -/
theorem Fits.replace {pairs : List (Nat × Nat)} (h : node.Fits graph)
    (hmapping : node.content.sort = .mapping) (hpairs : graph.PlainKeys pairs) :
    ({ node with content := .mapping pairs } : Node).Fits graph where
  text hname _ hflaw := h.text hname (Or.inr hmapping) hflaw
  mapping _ := Or.inr (Or.inr rfl)
  keys hcontent := by
    cases hcontent
    exact hpairs

end Node

namespace Making.Fits

variable {m other : Making}

/-- Only the nodes and the values matter. -/
theorem congr (h : m.Fits graph) (hnodes : other.nodes = m.nodes)
    (hvalues : other.values = m.values) : other.Fits graph where
  nodes := hnodes ▸ h.nodes
  objects := hnodes ▸ h.objects
  sorts := hnodes ▸ h.sorts
  values := hvalues ▸ h.values

theorem made {n : Nat} {name : String} (h : m.Fits graph)
    (hname : (standardName? (m.nodes.getD n default).tag).getD "" = name)
    (hobject : name = "map" ∨ (Make.emptyObject? name).isSome = true) : graph.isObject n = true := by
  rw [← h.objects n, Node.isObject, hname, Bool.or_eq_true, decide_eq_true_eq]
  exact hobject

/-- Before a value is made. -/
theorem start (h : graph.Fits) {n : Nat} (objects : Objects) :
    ({ nodes := graph.nodes, values := Array.replicate n none, objects } : Making).Fits graph where
  nodes k := by
    rw [Array.getD_eq_getD_getElem?]
    cases hnode : graph.nodes[k]? with
    | none => exact fits_default
    | some node => exact h node (Array.mem_of_getElem? hnode)
  objects _ := rfl
  sorts _ := rfl
  values {k value} hvalue := by
    rw [Array.getD_eq_getD_getElem?, Array.getElem?_replicate] at hvalue
    split at hvalue <;> cases hvalue

/-- A value that is kept for a node is an object only if the node is one. -/
theorem keep {n : Nat} {value : Value} (h : m.Fits graph)
    (hvalue : value.isObject = true → graph.isObject n = true) (hnodes : other.nodes = m.nodes)
    (hvalues : other.values = m.values.set! n (some value)) : other.Fits graph where
  nodes := hnodes ▸ h.nodes
  objects := hnodes ▸ h.objects
  sorts := hnodes ▸ h.sorts
  values {k kept} hkept := by
    rw [hvalues, Array.set!_eq_setIfInBounds, Array.getD_eq_getD_getElem?,
      Array.getElem?_setIfInBounds] at hkept
    split at hkept
    case isTrue hsame =>
      split at hkept
      case isTrue => cases hkept; exact hsame ▸ hvalue
      case isFalse => cases hkept
    case isFalse => exact h.values (by rwa [Array.getD_eq_getD_getElem?])

/-- A node may change in a way that keeps its fitness, its sort and the sort of its value. -/
theorem modify {n : Nat} {f : Node → Node} (h : m.Fits graph)
    (hfits : (f (m.nodes.getD n default)).Fits graph)
    (hobject : (f (m.nodes.getD n default)).isObject = (m.nodes.getD n default).isObject)
    (hsort : (f (m.nodes.getD n default)).content.sort = (m.nodes.getD n default).content.sort)
    (hnodes : other.nodes = m.nodes.modify n f) (hvalues : other.values = m.values) :
    other.Fits graph := by
  have hnode (k : Nat) : other.nodes.getD k default = m.nodes.getD k default ∨
      k = n ∧ other.nodes.getD k default = f (m.nodes.getD n default) := by
    rw [hnodes, getD_modify]
    split
    case isTrue hsame => exact Or.inr ⟨hsame.1.symm, by rw [hsame.1]⟩
    case isFalse => exact Or.inl rfl
  refine ⟨fun k => ?_, fun k => ?_, fun k => ?_, hvalues ▸ h.values⟩
  all_goals
    obtain hk | ⟨rfl, hk⟩ := hnode k
    all_goals rw [hk]
  · exact h.nodes k
  · exact hfits
  · exact h.objects k
  · exact hobject.trans (h.objects k)
  · exact h.sorts k
  · exact hsort.trans (h.sorts k)

/-- Keys may be taken as texts. -/
theorem asTexts (pairs : List (Nat × Nat)) (h : m.Fits graph) :
    ({ m with nodes := Yaml.asTexts m.nodes pairs } : Making).Fits graph := by
  induction pairs generalizing m with
  | nil => exact h
  | cons pair rest ih =>
    have hfirst : ({ m with nodes := m.nodes.modify pair.1 Node.asText } : Making).Fits graph :=
      h.modify (h.nodes pair.1).asText (Node.isObject_asText _)
        (congrArg Content.sort (Node.content_asText _)) rfl rfl
    exact ih hfirst

/-- A mapping may take over merged pairs. -/
theorem flatten {n : Nat} {pairs : List (Nat × Nat)} (h : m.Fits graph)
    (hmapping : (m.nodes.getD n default).content.sort = .mapping)
    (hpairs : graph.PlainKeys pairs)
    (hnodes : other.nodes = (Yaml.asTexts m.nodes pairs).modify n fun node =>
      { node with content := .mapping pairs })
    (hvalues : other.values = m.values) : other.Fits graph := by
  have hfits := h.asTexts pairs
  have hsort := (hfits.sorts n).trans ((h.sorts n).symm.trans hmapping)
  exact hfits.modify (f := fun node => { node with content := .mapping pairs })
    ((hfits.nodes n).replace hsort hpairs) (Node.isObject_replace _ _) hsort.symm hnodes hvalues

end Making.Fits

namespace Make

/-- Making keeps all nodes fit and finds only flaws that are reported. -/
abbrev Sound {α : Type} (graph : Graph) (make : Make α) (Q : α → Prop) : Prop :=
  ⦃fun m => ⌜m.Fits graph⌝⦄ make
  ⦃post⟨fun a m => ⌜m.Fits graph ∧ Q a⌝, fun flaw => ⌜flaw.kind.isOwn = true⌝⟩⦄

theorem Sound.mono {α : Type} {make : Make α} {Q R : α → Prop} (h : Sound graph make Q)
    (hQ : ∀ a, Q a → R a) : Sound graph make R := by
  mvcgen [h]
  exact fun hfits ha => ⟨hfits, hQ _ ha⟩

/-- What sound making finds from fit nodes is reported. -/
theorem Sound.of_error {α : Type} {make : Make α} {Q : α → Prop} {m : Making} {flaw : Flaw}
    (h : Sound graph make Q) (hfits : m.Fits graph) (hflaw : make.run m = .error flaw) :
    flaw.kind.isOwn = true := by
  have hmake : (wp⟦make.run m⟧ post⟨fun made => ⌜made.2.Fits graph ∧ Q made.1⌝,
      fun flaw => ⌜flaw.kind.isOwn = true⌝⟩).down :=
    h m hfits
  rw [hflaw] at hmake
  exact hmake

@[spec high]
theorem throw_spec {α : Type} {flaw : Flaw} {Q : PostCond α (.arg Making (.except Flaw .pure))} :
    ⦃fun _ => Q.2.1 flaw⦄ (throw flaw : Make α) ⦃Q⦄ :=
  fun _ h => h

@[spec]
theorem refuse_spec {α : Type} {Q : PostCond α (.arg Making (.except Flaw .pure))} :
    ⦃fun _ => Q.2.1 .malformed⦄ (refuse : Make α) ⦃Q⦄ :=
  throw_spec

@[spec]
theorem setObject_sound (n : Nat) (object : Object) :
    Sound graph (setObject n object) fun _ => True := by
  mvcgen [setObject]
  case vc1 h _ => exact h.congr rfl rfl

@[spec]
theorem scalarText_sound (m : Making) (fuel n : Nat) :
    ⦃fun s => ⌜s = m⌝⦄ scalarText fuel n
    ⦃post⟨fun text s => ⌜s = m ∧ ((m.nodes.getD n default).content = .scalar text ∨
        (m.nodes.getD n default).content.sort = .mapping)⌝,
      fun flaw => ⌜flaw.kind.isOwn = true⌝⟩⦄ := by
  induction fuel generalizing n with
  | zero => mvcgen [scalarText]
  | succ fuel ih => mvcgen [scalarText, nodeAt, ih] <;> grind [Content.sort]

@[spec]
theorem unhashable_sound (m : Making) (value : Value) :
    ⦃fun s => ⌜s = m⌝⦄ unhashable? value
    ⦃post⟨fun sort s => ⌜s = m ∧ (sort.isSome = true → value.isObject = true)⌝,
      fun flaw => ⌜flaw.kind.isOwn = true⌝⟩⦄ := by
  mvcgen [unhashable?] <;> grind [Value.isObject]

@[spec]
theorem addKey_sound (pairs : List (Value × Value)) (key : Value) (hkey : key.isObject = false) :
    Sound graph (addKey pairs key) fun _ => True := by
  mvcgen [addKey] <;> grind

section

variable {make : Nat → Make Value}
  (hmake : ∀ n, Sound graph (make n) fun value => value.isObject = true → graph.isObject n = true)

include hmake

theorem pairs_sound (done : List (Value × Value)) (nodes : List (Nat × Nat))
    (hnodes : graph.PlainKeys nodes) :
    Sound graph (pairs make done nodes) fun _ => True := by
  induction nodes generalizing done with
  | nil => mvcgen [pairs]
  | cons pair rest ih =>
    obtain ⟨hpair, hrest⟩ := List.forall_mem_cons.1 hnodes
    mvcgen [pairs, hmake, ih] <;> grind

theorem dict_sound {node : Node} (n : Nat) (hfits : node.Fits graph)
    (hname : standardName? node.tag = some "map") :
    Sound graph (dict make n node.content) fun _ => True := by
  have hmapping := hfits.mapping hname
  have hpairs := pairs_sound hmake
  mvcgen [dict, hpairs, nodeAt]
  case vc1 h _ _ => exact hfits.keys h
  all_goals grind [Content.sort]

theorem fresh_sound (fuel n : Nat) :
    Sound graph (fresh fuel make n) fun value =>
      value.isObject = true → graph.isObject n = true := by
  have hdict {node : Node} := @dict_sound graph make hmake node
  mvcgen [fresh, nodeAt, hdict]
  -- a mapping
  case vc1 h _ _ => exact h.nodes n
  case vc2 h _ hname => exact standardName_of_getD hname (by decide)
  case vc4 h _ hname _ _ hafter => exact ⟨hafter, fun _ => h.made hname (Or.inl rfl)⟩
  -- a list or a set
  case vc7 h _ _ _ hempty _ _ _ hafter =>
    exact ⟨hafter.congr rfl rfl, fun _ => h.made rfl (Or.inr (by rw [hempty, Option.isSome_some]))⟩
  -- a scalar: reading its text leaves the state as it is
  case vc9 m h name _ _ hscalar text result hresult s hsame =>
    obtain ⟨rfl, htext⟩ := hsame
    cases result with
    | ok a => exact ⟨h, fun hobject => absurd hobject (by simp [isObject_of_scalarValue hresult])⟩
    | error flaw =>
      refine (h.nodes n).text (standardName_of_getD rfl fun hname => hscalar ?_) htext hresult
      rw [show name = "" from hname]
      rfl

theorem singlePairs_sound (nodes : List Nat) :
    Sound graph (singlePairs make nodes) fun _ => True := by
  induction nodes with
  | nil => mvcgen [singlePairs]
  | cons n rest ih =>
    mvcgen [singlePairs, nodeAt, hmake, ih] <;> grind

theorem members_sound (done : List Value) (pairs : List (Nat × Nat)) :
    Sound graph (members make done pairs) fun _ => True := by
  induction pairs generalizing done with
  | nil => mvcgen [members]
  | cons pair rest ih =>
    mvcgen [members, hmake, ih] <;> grind

end

theorem value_sound (fuel n : Nat) :
    Sound graph (value fuel n) fun value => value.isObject = true → graph.isObject n = true := by
  induction fuel generalizing n with
  | zero => mvcgen [value]
  | succ fuel ih =>
    have hfresh := fresh_sound ih
    mvcgen [value, hfresh]
    case vc1 h _ hvalue => exact ⟨h, h.values hvalue⟩
    case vc3 h _ _ => exact h.congr rfl rfl
    case vc4 hafter _ => exact ⟨hafter.1.keep hafter.2 rfl rfl, hafter.2⟩

theorem mapM_sound {α β : Type} (graph : Graph) (f : α → Make β) (Q : β → Prop)
    (hf : ∀ a, Sound graph (f a) Q) (as : List α) :
    Sound graph (as.mapM f) fun bs => ∀ b ∈ bs, Q b := by
  induction as with
  | nil =>
    rw [List.mapM_nil]
    mvcgen
    grind
  | cons a rest ih =>
    rw [List.mapM_cons]
    mvcgen [hf, ih] <;> grind

theorem mergedPairs_sound {flatten : Nat → Make (List (Nat × Nat))}
    (hflatten : ∀ n, Sound graph (flatten n) graph.PlainKeys) (n : Nat) :
    Sound graph (mergedPairs flatten n) graph.PlainKeys := by
  have hparts (f : Nat → Make (List (Nat × Nat))) := mapM_sound graph f graph.PlainKeys
  mvcgen [mergedPairs, nodeAt, hflatten, hparts]
  case vc5 parts _ hparts =>
    refine ⟨hparts.1, fun pair hpair => ?_⟩
    obtain ⟨part, hpart, hpair⟩ := List.mem_flatten.1 hpair
    exact hparts.2 part (List.mem_reverse.1 hpart) pair hpair

theorem flatten_sound (fuel n : Nat) : Sound graph (flatten fuel n) graph.PlainKeys := by
  induction fuel generalizing n with
  | zero => mvcgen [flatten]
  | succ fuel ih =>
    have hmerged := mergedPairs_sound ih
    have hparts (f : Nat × Nat → Make (List (Nat × Nat))) := mapM_sound graph f graph.PlainKeys
    mvcgen [flatten, nodeAt, hmerged, hparts]
    case vc3 m h own hown _ _ parts pairs _ s hparts _ =>
      have hpairs : graph.PlainKeys pairs := by
        intro pair hpair
        rcases List.mem_append.1 hpair with hpair | hpair
        · obtain ⟨part, hpart, hpair⟩ := List.mem_flatten.1 hpair
          exact hparts.2 part hpart pair hpair
        · exact (h.nodes n).keys hown pair (List.mem_filter.1 hpair).1
      refine ⟨hparts.1.flatten ?_ hpairs rfl rfl, hpairs⟩
      rw [hparts.1.sorts n, ← h.sorts n, hown, Content.sort]

theorem fillObject_sound (fuel n : Nat) : Sound graph (fillObject fuel n) fun _ => True := by
  have hvalue := @value_sound graph fuel
  have hvalues := mapM_sound graph (value fuel) _ fun n => (hvalue n).mono fun _ _ => trivial
  have hpairs := singlePairs_sound hvalue
  have hmembers := members_sound hvalue
  mvcgen [fillObject, nodeAt, hvalues, hpairs, hmembers, flatten_sound]
  all_goals grind

theorem fillAll_sound (fuel rounds : Nat) : Sound graph (fillAll fuel rounds) fun _ => True := by
  induction rounds with
  | zero => mvcgen [fillAll]
  | succ rounds ih =>
    mvcgen [fillAll, fillObject_sound, ih]
    case inv1 =>
      exact post⟨fun _ m => ⌜m.Fits graph⌝, fun flaw => ⌜flaw.kind.isOwn = true⌝⟩
    case vc3 h => exact h
    case vc4 h => exact h
    case vc5 => exact id
    case vc6 h _ _ _ => exact h.congr rfl rfl
    case vc7 h => exact h
    case vc8 => exact ExceptConds.entails.rfl

end Make

/-- A graph whose nodes all fit has no flaws but those that are reported. -/
theorem Document.own_of_fits {flaw : Flaw} (hfits : graph.Fits)
    (h : Document.ofGraph graph = .error flaw) : flaw.kind.isOwn = true := by
  unfold Document.ofGraph at h
  split at h
  case h_1 => cases h
  case h_2 root _ =>
    have hwork : Make.Sound graph (do
        let value ← Make.value (graph.nodes.size + 2) root
        Make.fillAll (graph.nodes.size + 2) (graph.nodes.size + 2)
        pure value) fun _ => True := by
      mvcgen [Make.value_sound, Make.fillAll_sound]
      case vc3 h => exact h.1
    simp only [bind, Except.bind] at h
    split at h
    case h_1 hrun =>
      cases h
      exact hwork.of_error (Making.Fits.start hfits _) hrun
    case h_2 => cases h

/-- What a text has if it has a flaw that is not reported: a code that is too large or a node that
does not fit. -/
def Suspect (text : List Char) : Prop :=
  HasHugeCode text ∨ ∃ graph, Graph.ofText text = .ok graph ∧ ¬ graph.Fits

theorem Document.suspect_of_error {text : List Char} {flaw : Flaw}
    (h : Document.ofText text = .error flaw) (hforeign : flaw.kind.isOwn = false) :
    Suspect text := by
  unfold Document.ofText at h
  cases hgraph : Graph.ofText text with
  | error met =>
    rw [hgraph] at h
    cases h
    rcases Graph.scans_of_error hgraph with rfl | hcode
    · cases hforeign
    · exact Or.inl hcode
  | ok graph =>
    rw [hgraph] at h
    refine Or.inr ⟨graph, hgraph, fun hfits => ?_⟩
    rw [Document.own_of_fits hfits h] at hforeign
    cases hforeign

end

end SerialConsole.Yaml
