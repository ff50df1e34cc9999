import SerialConsole.Proofs.Yaml.Making
import SerialConsole.Proofs.Yaml.Nodes
import SerialConsole.Proofs.Yaml.Steps

set_option autoImplicit false

/-!
# Every node gets a value

Mappings are made at once and lists are filled later. What was made so far is right, but for lists
that still wait to be filled. Making a value keeps it so and goes wrong for nothing but a key that a
mapping has twice. Since no node is inside itself, the depth is bounded by the number of nodes.
-/
namespace SerialConsole.Yaml

/-- A flaw is that of a repeated key, which the document has. -/
def Graph.Repeats (graph : Graph) (flaw : Flaw) : Prop :=
  graph.HasDuplicate ∧ ∃ shown, flaw = .duplicateKey shown

variable {graph : Graph} {m after : Making} {n : Nat} {value : Value} {waiting : List Nat}

/-! ## What was made -/

namespace Making

def value? (m : Making) (n : Nat) : Option Value :=
  m.values.getD n none

/-- A node has got a value. -/
def Gives (m : Making) (n : Nat) (value : Value) : Prop :=
  m.value? n = some value

/-- Some pairs hold the values of their nodes, and no key comes twice. -/
structure Keeps (m : Making) (pairs : List (Nat × Nat)) (kept : List (Value × Value)) : Prop where
  values : List.Forall₂ (fun pair made => m.Gives pair.1 made.1 ∧ m.Gives pair.2 made.2) pairs kept
  distinct : kept.Pairwise fun a b => a.1.isSameKey b.1 = false

/-- A value is right for its node. A list may still wait to be filled. -/
def Suits (graph : Graph) (waiting : List Nat) (m : Making) (n : Nat) (value : Value) : Prop :=
  match (graph.node n).content with
  | .scalar _ => graph.scalar? n = some value
  | .sequence items =>
    value = .object n ∧ (n ∈ waiting ∨ n ∈ m.unfilled ∨
      ∃ values, m.objects.at? n = some (.list values) ∧ List.Forall₂ m.Gives items values)
  | .mapping pairs =>
    value = .object n ∧ ∃ kept, m.objects.at? n = some (.dict kept) ∧ m.Keeps pairs kept

/-- All values made so far are right; the nodes in `waiting` are the next to be filled. -/
structure Honest (graph : Graph) (waiting : List Nat) (m : Making) : Prop where
  nodes : m.nodes = graph.nodes
  width : m.values.size = graph.nodes.size
  breadth : m.objects.size = graph.nodes.size
  inside {n : Nat} : n ∈ m.inside → m.value? n = none
  queued {n : Nat} : n ∈ waiting ∨ n ∈ m.unfilled →
    graph.Reaches n ∧ ∃ items, (graph.node n).content = .sequence items
  suits {n : Nat} {value : Value} : m.Gives n value → m.Suits graph waiting n value

/-- How many values are still to be made or to be filled. -/
def load (m : Making) : Nat :=
  m.unfilled.length + m.values.countP Option.isNone

/-- What a step of making leaves: all is right, no value is lost, and at most `more` lists were put
in the row that no value was made for. -/
structure Follows (graph : Graph) (waiting : List Nat) (more : Nat) (m after : Making) : Prop where
  honest : after.Honest graph waiting
  gives {n : Nat} {value : Value} : m.Gives n value → after.Gives n value
  inside : after.inside = m.inside
  load : after.load ≤ m.load + more

theorem at?_set (objects : Objects) (n k : Nat) (object : Object) :
    Objects.at? (objects.set! n (some object)) k =
      if n = k ∧ n < objects.size then some object else objects.at? k := by
  unfold Objects.at?
  rw [Array.set!_eq_setIfInBounds, Array.getElem?_setIfInBounds]
  by_cases hsame : n = k
  · subst hsame
    by_cases hsize : n < objects.size
    · simp [hsize]
    · simp [hsize]
  · simp [hsame]

theorem value?_set (values : Array (Option Value)) (n k : Nat) (value : Value)
    (hsize : n < values.size) :
    (values.set! n (some value)).getD k none = if n = k then some value else values.getD k none := by
  rw [Array.set!_eq_setIfInBounds, Array.getD_eq_getD_getElem?, Array.getElem?_setIfInBounds,
    Array.getD_eq_getD_getElem?]
  by_cases hsame : n = k
  · subst hsame
    simp [hsize]
  · simp [hsame]

theorem Follows.refl (h : m.Honest graph waiting) : m.Follows graph waiting 0 m :=
  ⟨h, id, rfl, Nat.le_refl _⟩

theorem Follows.trans {middle : Making} {next : List Nat} {more : Nat}
    (h : m.Follows graph waiting 0 middle) (hafter : middle.Follows graph next more after) :
    m.Follows graph next more after :=
  ⟨hafter.honest, fun hgives => hafter.gives (h.gives hgives), hafter.inside.trans h.inside,
    hafter.load.trans (Nat.add_le_add_right h.load more)⟩

theorem Keeps.mono {pairs : List (Nat × Nat)} {kept : List (Value × Value)}
    (h : m.Keeps pairs kept) (hgives : ∀ {n value}, m.Gives n value → after.Gives n value) :
    after.Keeps pairs kept :=
  ⟨h.values.imp fun _ _ hmade => ⟨hgives hmade.1, hgives hmade.2⟩, h.distinct⟩

/-- A value stays right if its object stays and no list leaves the row without being filled. -/
theorem Suits.mono {next : List Nat} (h : m.Suits graph waiting n value)
    (hgives : ∀ {n value}, m.Gives n value → after.Gives n value)
    (hobject : after.objects.at? n = m.objects.at? n)
    (hqueue : n ∈ waiting ∨ n ∈ m.unfilled → n ∈ next ∨ n ∈ after.unfilled) :
    after.Suits graph next n value := by
  unfold Suits at h ⊢
  cases hcontent : (graph.node n).content with
  | scalar text =>
    rw [hcontent] at h
    exact h
  | sequence items =>
    rw [hcontent] at h
    obtain ⟨hvalue, hwaiting | hunfilled | ⟨values, hlist, hmade⟩⟩ := h
    · exact ⟨hvalue, or_assoc.1 (Or.inl (hqueue (Or.inl hwaiting)))⟩
    · exact ⟨hvalue, or_assoc.1 (Or.inl (hqueue (Or.inr hunfilled)))⟩
    · exact ⟨hvalue, Or.inr (Or.inr ⟨values, hobject.trans hlist, hmade.imp fun _ _ => hgives⟩)⟩
  | mapping pairs =>
    rw [hcontent] at h
    obtain ⟨hvalue, kept, hdict, hkeeps⟩ := h
    exact ⟨hvalue, kept, hobject.trans hdict, hkeeps.mono hgives⟩

namespace Honest

/-- The object of a node without a value may be put in its place. -/
theorem setObject (h : m.Honest graph waiting) (hnew : m.value? n = none) (object : Object) :
    Honest graph waiting { m with objects := m.objects.set! n (some object) } where
  nodes := h.nodes
  width := h.width
  breadth := by
    simp only [Array.set!_eq_setIfInBounds, Array.size_setIfInBounds]
    exact h.breadth
  inside := h.inside
  queued := h.queued
  suits {k value} hgives := by
    have hother : ¬ (n = k ∧ n < m.objects.size) := by
      rintro ⟨rfl, _⟩
      exact Option.some_ne_none _ (hgives.symm.trans hnew)
    exact (h.suits hgives).mono id (by rw [at?_set, if_neg hother]) id

/-- A list may be put in the row. -/
theorem enqueue {items : List Nat} (h : m.Honest graph waiting) (hreach : graph.Reaches n)
    (hcontent : (graph.node n).content = .sequence items) :
    Honest graph waiting { m with unfilled := m.unfilled ++ [n] } where
  nodes := h.nodes
  width := h.width
  breadth := h.breadth
  inside := h.inside
  queued {k} hqueued := by
    rw [List.mem_append, List.mem_singleton, ← or_assoc] at hqueued
    rcases hqueued with hqueued | rfl
    · exact h.queued hqueued
    · exact ⟨hreach, items, hcontent⟩
  suits hgives := (h.suits hgives).mono id rfl fun hqueued =>
    hqueued.imp_right (List.mem_append_left _)

/-- The making of a value may begin. -/
theorem enter (h : m.Honest graph waiting) (hnew : m.value? n = none) :
    Honest graph waiting { m with inside := n :: m.inside } where
  nodes := h.nodes
  width := h.width
  breadth := h.breadth
  inside {k} hk := by
    rcases List.mem_cons.1 hk with rfl | hmem
    · exact hnew
    · exact h.inside hmem
  queued := h.queued
  suits hgives := (h.suits hgives).mono id rfl id

theorem gives_record (h : m.Honest graph waiting) (hnew : m.value? n = none)
    (hsize : n < graph.nodes.size) (value : Value) {k : Nat} {a : Value} (hgives : m.Gives k a) :
    Gives { m with values := m.values.set! n (some value), inside := m.inside.erase n } k a := by
  have hother : n ≠ k := by
    rintro rfl
    exact Option.some_ne_none _ (hgives.symm.trans hnew)
  rw [Gives, value?, value?_set _ _ _ _ (h.width ▸ hsize), if_neg hother]
  exact hgives

/-- A value that is right may be recorded for a node that is not inside itself. -/
theorem record {path : List Nat} (h : m.Honest graph waiting) (hinside : m.inside = n :: path)
    (hpath : n ∉ path) (hsize : n < graph.nodes.size) (hsuits : m.Suits graph waiting n value) :
    Honest graph waiting
      { m with values := m.values.set! n (some value), inside := m.inside.erase n } where
  nodes := h.nodes
  width := by
    simp only [Array.set!_eq_setIfInBounds, Array.size_setIfInBounds]
    exact h.width
  breadth := h.breadth
  inside {k} hk := by
    rw [hinside, List.erase_cons_head] at hk
    have hother : n ≠ k := fun hsame => hpath (hsame ▸ hk)
    rw [value?, value?_set _ _ _ _ (h.width ▸ hsize), if_neg hother]
    exact h.inside (hinside ▸ List.mem_cons_of_mem n hk)
  queued := h.queued
  suits {k a} hgives := by
    have hnew := h.inside (hinside ▸ List.mem_cons_self)
    have hmono {j : Nat} {b : Value} := @gives_record graph m n waiting h hnew hsize value j b
    rw [Gives, value?, value?_set _ _ _ _ (h.width ▸ hsize)] at hgives
    split at hgives
    case isTrue hsame =>
      cases hgives
      exact hsame ▸ hsuits.mono hmono rfl id
    case isFalse => exact (h.suits hgives).mono hmono rfl id

/-- A recorded value is one less to be made. -/
theorem load_record (h : m.Honest graph waiting) (hnew : m.value? n = none)
    (hsize : n < graph.nodes.size) (value : Value) (inside : List Nat) :
    load { m with values := m.values.set! n (some value), inside } + 1 = m.load := by
  have hbound : n < m.values.size := h.width ▸ hsize
  have hnone : m.values[n] = none := by
    rw [value?, Array.getD_eq_getD_getElem?, Array.getElem?_eq_getElem hbound] at hnew
    exact hnew
  have hpos : 0 < m.values.countP Option.isNone :=
    Array.countP_pos_iff.2 ⟨m.values[n], Array.getElem_mem hbound, by rw [hnone]; rfl⟩
  unfold load
  rw [Array.set!_eq_setIfInBounds, Array.setIfInBounds, dif_pos hbound, Array.countP_set hbound, hnone]
  simp only [Option.isNone_none, Option.isNone_some, if_true, Bool.false_eq_true, if_false]
  omega

/-- The value of a scalar is the one that its text has. -/
theorem scalar_eq {a : Value} (h : m.Honest graph waiting) (hgives : m.Gives n value)
    (hscalar : graph.scalar? n = some a) : value = a := by
  obtain ⟨text, hcontent, _⟩ := Graph.scalar_eq_some.1 hscalar
  have hsuits := h.suits hgives
  rw [Suits, hcontent] at hsuits
  exact Option.some.inj (hsuits.symm.trans hscalar)

end Honest

end Making

/-! ## Steps of making -/

namespace Make

/-- A step ends as described, or it meets a repeated key. -/
abbrev Yields {α : Type} (graph : Graph) (make : Make α) (m : Making) (Q : α → Making → Prop) :
    Prop :=
  Ends graph.Repeats make m Q

theorem nodeAt_bind {α : Type} {next : Node → Make α} {Q : α → Making → Prop}
    (hnodes : m.nodes = graph.nodes) (h : Yields graph (next (graph.node n)) m Q) :
    Yields graph (nodeAt n >>= next) m Q := by
  unfold Graph.node at h
  rw [← hnodes] at h
  exact h

/-- With enough fuel, a node that is not inside itself gets its value. -/
def Sure (graph : Graph) (make : Nat → Make Value) (fuel : Nat) : Prop :=
  ∀ {waiting : List Nat} {m : Making} {n : Nat}, m.Honest graph waiting → graph.Reaches n →
    graph.Under m.inside n → graph.nodes.size < fuel + m.inside.length →
      Yields graph (make n) m fun value after =>
        m.Follows graph waiting 0 after ∧ after.Gives n value

/-! ## Mappings -/

section

variable {key : Value} {kept : List (Value × Value)} {front rest : List (Nat × Nat)}
  {pair : Nat × Nat}

theorem repeats_of_any (hplain : graph.Plain) (h : m.Honest graph waiting)
    (hreach : graph.Reaches n) (hcontent : (graph.node n).content = .mapping (front ++ pair :: rest))
    (hkept : m.Keeps front kept) (hkey : graph.scalar? pair.1 = some key)
    (hany : (kept.any fun made => made.1.isSameKey key) = true) : graph.HasDuplicate := by
  obtain ⟨made, hmade, hsame⟩ := List.any_eq_true.1 hany
  obtain ⟨i, hi, rfl⟩ := List.mem_iff_getElem.1 hmade
  have hlength := hkept.values.length_eq
  have hfront : i < front.length := by omega
  have hgives := (hkept.values.get hfront hi).1
  have hmem : front[i] ∈ front ++ pair :: rest := List.mem_append_left _ (List.getElem_mem hfront)
  obtain ⟨first, hfirst, hnumber⟩ := hplain.keys hreach hcontent hmem
  have hvalue : kept[i].1 = first := h.scalar_eq hgives hfirst
  rw [hvalue] at hsame
  refine ⟨n, _, hreach, hcontent, i, front.length, front[i], pair, first, key, hfront, ?_, ?_,
    hfirst, hkey, Value.equals_of_isSameKey hnumber hsame⟩
  · rw [List.getElem?_append_left hfront, List.getElem?_eq_getElem hfront]
  · rw [List.getElem?_append_right (Nat.le_refl _), Nat.sub_self, List.getElem?_cons_zero]

/-- A new key can be added; one that is there already is a repeated key. -/
theorem addKey_yields (hplain : graph.Plain) (h : m.Honest graph waiting)
    (hreach : graph.Reaches n) (hcontent : (graph.node n).content = .mapping (front ++ pair :: rest))
    (hkept : m.Keeps front kept) (hkey : graph.scalar? pair.1 = some key) :
    Yields graph (addKey kept key) m fun _ after =>
      after = m ∧ ∀ made ∈ kept, made.1.isSameKey key = false := by
  obtain ⟨text, _, hvalue⟩ := Graph.scalar_eq_some.1 hkey
  have hplainKey : unhashable? key = pure none := by
    unfold unhashable?
    split
    case h_1 => cases isObject_of_scalarValue hvalue
    case h_2 => rfl
  unfold addKey
  rw [hplainKey, pure_bind]
  cases hany : kept.any fun made => made.1.isSameKey key with
  | true => exact ⟨repeats_of_any hplain h hreach hcontent hkept hkey hany, _, rfl⟩
  | false =>
    rw [List.any_eq_false] at hany
    exact ⟨rfl, fun made hmade => by simpa using hany made hmade⟩

end

section

variable {make : Nat → Make Value} {fuel : Nat} {path : List Nat}
  (hmake : Sure graph make fuel) (hclosed : graph.Closed) (hplain : graph.Plain)
include hmake hclosed hplain

theorem pairs_yields {front rest : List (Nat × Nat)} {kept : List (Value × Value)}
    (h : m.Honest graph waiting) (hreach : graph.Reaches n)
    (hcontent : (graph.node n).content = .mapping (front ++ rest)) (hinside : m.inside = n :: path)
    (hunder : graph.Under path n) (hfuel : graph.nodes.size < fuel + m.inside.length)
    (hkept : m.Keeps front kept) :
    Yields graph (pairs make kept rest) m fun all after =>
      m.Follows graph waiting 0 after ∧ after.Keeps (front ++ rest) all := by
  induction rest generalizing front kept m with
  | nil => exact ⟨.refl h, by rwa [List.append_nil]⟩
  | cons pair rest ih =>
    have hpair : pair ∈ front ++ pair :: rest := List.mem_append_right _ List.mem_cons_self
    have hkeyHeld := Graph.holds_key hcontent hpair
    have hvalueHeld := Graph.holds_value hcontent hpair
    obtain ⟨number, hscalar, _⟩ := hplain.keys hreach hcontent hpair
    have hunderKey := hunder.push hreach hplain hclosed hkeyHeld
    have hunderValue := hunder.push hreach hplain hclosed hvalueHeld
    rw [← hinside] at hunderKey hunderValue
    rw [pairs]
    refine (hmake h (hreach.holds hkeyHeld) hunderKey hfuel).bind ?_
    rintro key first ⟨hfirst, hkey⟩
    obtain rfl : key = number := hfirst.honest.scalar_eq hkey hscalar
    refine (addKey_yields hplain hfirst.honest hreach hcontent (hkept.mono hfirst.gives)
      hscalar).bind ?_
    rintro _ _ ⟨rfl, hnew⟩
    rw [← hfirst.inside] at hunderValue hfuel
    refine (hmake hfirst.honest (hreach.holds hvalueHeld) hunderValue hfuel).bind ?_
    rintro value second ⟨hsecond, hvalue⟩
    have hboth := hfirst.trans hsecond
    have hmore : second.Keeps (front ++ [pair]) (kept ++ [(key, value)]) := by
      refine ⟨List.rel_append (hkept.mono hboth.gives).values
        (.cons ⟨hsecond.gives hkey, hvalue⟩ .nil), List.pairwise_append.2 ⟨hkept.distinct,
          List.pairwise_singleton _ _, fun made hmade last hlast => ?_⟩⟩
      obtain rfl := List.mem_singleton.1 hlast
      exact hnew made hmade
    have hrest : (graph.node n).content = .mapping (front ++ [pair] ++ rest) := by
      rwa [List.append_assoc]
    have hgoesOn := ih hsecond.honest hrest (hboth.inside.trans hinside) (by rwa [hsecond.inside])
      hmore
    refine hgoesOn.mono fun all after hafter => ⟨hboth.trans hafter.1, ?_⟩
    simpa using hafter.2

/-- A mapping gets its object once its keys and values are made. -/
theorem dict_yields {nodes : List (Nat × Nat)} (h : m.Honest graph waiting)
    (hreach : graph.Reaches n) (hcontent : (graph.node n).content = .mapping nodes)
    (hinside : m.inside = n :: path) (hunder : graph.Under path n)
    (hfuel : graph.nodes.size < fuel + m.inside.length) :
    Yields graph (dict make n (.mapping nodes)) m fun _ after =>
      m.Follows graph waiting 0 after ∧ after.Suits graph waiting n (.object n) := by
  rw [dict]
  have hwhole : (graph.node n).content = .mapping ([] ++ nodes) := hcontent
  refine (pairs_yields hmake hclosed hplain h hreach hwhole hinside hunder hfuel
    ⟨.nil, .nil⟩).bind ?_
  rintro kept middle ⟨hmiddle, hkeeps⟩
  have hnew : middle.value? n = none :=
    hmiddle.honest.inside (by rw [hmiddle.inside, hinside]; exact List.mem_cons_self)
  refine ⟨hmiddle.trans ⟨hmiddle.honest.setObject hnew _, id, rfl, Nat.le_refl _⟩, ?_⟩
  unfold Making.Suits
  rw [hcontent]
  have hkeeps : middle.Keeps nodes kept := hkeeps
  refine ⟨rfl, kept, ?_, hkeeps.mono id⟩
  rw [Making.at?_set, if_pos ⟨rfl, hmiddle.honest.breadth ▸ hreach.lt_size hclosed⟩]

end

/-! ## Nodes -/

theorem toList_standardTag (name : String) :
    (standardTag name).toList = "tag:yaml.org,2002:".toList ++ name.toList :=
  String.toList_append

theorem standardName_standardTag (name : String) :
    standardName? (standardTag name) = some name := by
  unfold standardName?
  rw [toList_standardTag, toList_standardTag, String.toList_empty, List.append_nil]
  simp only [List.isPrefixOf_iff_prefix, List.prefix_append, if_true, List.drop_left,
    String.ofList_toList]

/-- A scalar has neither the tag of a mapping nor that of an object that is filled later. -/
theorem tag_of_scalarValue {name : String} {text : List Char} {result : Except Flaw Value}
    (h : scalarValue? name text = some result) :
    name ≠ "map" ∧ emptyObject? name = none ∧ (scalarValue? name []).isNone = false := by
  unfold scalarValue? at h
  split at h
  case h_8 => cases h
  all_goals exact ⟨by decide, rfl, rfl⟩

section

variable (hclosed : graph.Closed) (hplain : graph.Plain)
  (himplicit : ∀ n, graph.Reaches n → (graph.node n).Implicit)
include hclosed hplain himplicit

/-- The value of a node that has none is made, but not yet recorded. -/
theorem fresh_yields {make : Nat → Make Value} {fuel : Nat} {path : List Nat} (spare : Nat)
    (hmake : Sure graph make fuel) (h : m.Honest graph waiting) (hreach : graph.Reaches n)
    (hinside : m.inside = n :: path) (hunder : graph.Under path n)
    (hfuel : graph.nodes.size < fuel + m.inside.length) :
    Yields graph (fresh (spare + 1) make n) m fun value after =>
      m.Follows graph waiting 1 after ∧ after.Suits graph waiting n value := by
  have htag := himplicit n hreach
  unfold Node.Implicit at htag
  unfold fresh
  refine nodeAt_bind h.nodes ?_
  cases hcontent : (graph.node n).content with
  | scalar text =>
    obtain ⟨value, hvalue⟩ := hplain.scalars hreach hcontent
    obtain ⟨_, hsame, hscalar⟩ := Graph.scalar_eq_some.1 hvalue
    obtain rfl := Content.scalar.inj (hcontent.symm.trans hsame)
    obtain ⟨hmap, hobject, hknown⟩ := tag_of_scalarValue hscalar
    simp only [hmap, hobject, hknown, if_false, Bool.false_eq_true, scalarText, bind_assoc]
    refine nodeAt_bind h.nodes ?_
    simp only [hcontent, pure_bind, hscalar]
    refine ⟨⟨h, id, rfl, Nat.le_succ _⟩, ?_⟩
    unfold Making.Suits
    rwa [hcontent]
  | sequence items =>
    rw [hcontent] at htag
    simp only [htag, standardName_standardTag, Option.getD_some]
    have hnew : m.value? n = none := h.inside (hinside ▸ List.mem_cons_self)
    have hqueued := (h.setObject hnew (.list [])).enqueue hreach hcontent
    refine ⟨⟨hqueued, id, rfl, ?_⟩, ?_⟩
    · simp only [Making.load, List.length_append, List.length_singleton]
      omega
    · unfold Making.Suits
      rw [hcontent]
      exact ⟨rfl, Or.inr (Or.inl (List.mem_append_right _ List.mem_cons_self))⟩
  | mapping pairs =>
    rw [hcontent] at htag
    simp only [htag, standardName_standardTag, Option.getD_some, if_true]
    refine (dict_yields hmake hclosed hplain h hreach hcontent hinside hunder hfuel).bind ?_
    rintro _ after ⟨hafter, hsuits⟩
    exact ⟨⟨hafter.honest, hafter.gives, hafter.inside, Nat.le_succ_of_le hafter.load⟩, hsuits⟩

theorem value_yields (fuel : Nat) : Sure graph (Make.value fuel) fuel := by
  induction fuel with
  | zero =>
    intro waiting m n h hreach hunder hfuel
    have hlength := hunder.length_lt hreach hplain hclosed
    omega
  | succ fuel ih =>
    intro waiting m n h hreach hunder hfuel
    rw [Make.value]
    refine Ends.get_bind ?_
    cases hvalue : m.values.getD n none with
    | some value => exact ⟨.refl h, hvalue⟩
    | none =>
      have hpath := hunder.not_mem hreach hplain
      have hsize := hreach.lt_size hclosed
      simp only [List.contains_eq_mem, hpath, decide_false, Bool.false_eq_true, if_false]
      have hinside : (n :: m.inside) = n :: m.inside := rfl
      have hfresh := fresh_yields hclosed hplain himplicit fuel ih (h.enter hvalue) hreach hinside
        hunder (by simp only [List.length_cons]; omega)
      refine Ends.set_bind ?_
      refine hfresh.bind ?_
      rintro value after ⟨hafter, hsuits⟩
      have hnew : after.value? n = none :=
        hafter.honest.inside (by rw [hafter.inside]; exact List.mem_cons_self)
      have hload := hafter.honest.load_record hnew hsize value (after.inside.erase n)
      have hrecord : after.inside.erase n = m.inside := by
        rw [hafter.inside, List.erase_cons_head]
      refine ⟨⟨hafter.honest.record hafter.inside hpath hsize hsuits, fun hgives =>
        hafter.honest.gives_record hnew hsize value (hafter.gives hgives), hrecord,
        Nat.le_of_succ_le_succ (hload.le.trans hafter.load)⟩, ?_⟩
      rw [Making.Gives, Making.value?, Making.value?_set _ _ _ _ (hafter.honest.width ▸ hsize),
        if_pos rfl]

end

end Make

end SerialConsole.Yaml
