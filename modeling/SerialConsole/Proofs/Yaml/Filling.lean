import SerialConsole.Proofs.Yaml.Values

set_option autoImplicit false

/-!
# Documents tell what their nodes tell

Lists are filled in rounds. A round makes at least one value or leaves no list to be filled, so there
are enough rounds. In the end a document tells each node's value, and it is refused exactly if one of
its mappings has two equal keys (`Document.ofGraph_tells`).
-/
namespace SerialConsole.Yaml

variable {graph : Graph} {m after : Making} {n : Nat} {value : Value} {waiting : List Nat}

namespace Making.Honest

/-- All lists that wait may be taken out of the row together. -/
theorem dequeue (h : m.Honest graph []) : Honest graph m.unfilled { m with unfilled := [] } where
  nodes := h.nodes
  width := h.width
  breadth := h.breadth
  inside := h.inside
  queued hqueued := h.queued (Or.inr (hqueued.resolve_right List.not_mem_nil))
  suits hgives := (h.suits hgives).mono id rfl fun hqueued =>
    Or.inl (hqueued.resolve_left List.not_mem_nil)

/-- The first list that waits may be filled with the values of its items. -/
theorem filled {items : List Nat} {values : List Value} (h : m.Honest graph (n :: waiting))
    (hcontent : (graph.node n).content = .sequence items)
    (hvalues : List.Forall₂ m.Gives items values) (hsize : n < graph.nodes.size) :
    Honest graph waiting { m with objects := m.objects.set! n (some (.list values)) } where
  nodes := h.nodes
  width := h.width
  breadth := by
    simp only [Array.set!_eq_setIfInBounds, Array.size_setIfInBounds]
    exact h.breadth
  inside := h.inside
  queued hqueued := h.queued (hqueued.imp_left (List.mem_cons_of_mem n))
  suits {k value} hgives := by
    have hsuits := h.suits hgives
    by_cases hsame : n = k
    · subst hsame
      unfold Suits at hsuits ⊢
      rw [hcontent] at hsuits ⊢
      refine ⟨hsuits.1, Or.inr (Or.inr ⟨values, ?_, hvalues⟩)⟩
      rw [at?_set, if_pos ⟨rfl, h.breadth ▸ hsize⟩]
    · refine hsuits.mono id ?_ (Or.imp_left fun hwaiting => ?_)
      · rw [at?_set, if_neg fun hboth => hsame hboth.1]
      · exact (List.mem_cons.1 hwaiting).resolve_left (Ne.symm hsame)

end Making.Honest

namespace Make

section

variable (hclosed : graph.Closed) (hplain : graph.Plain)
  (himplicit : ∀ n, graph.Reaches n → (graph.node n).Implicit)
include hclosed hplain himplicit

theorem items_yields (fuel : Nat) (items : List Nat) (h : m.Honest graph waiting)
    (hreach : ∀ item ∈ items, graph.Reaches item) (hinside : m.inside = [])
    (hfuel : graph.nodes.size < fuel) :
    Yields graph (items.mapM (Make.value fuel)) m fun values after =>
      m.Follows graph waiting 0 after ∧ List.Forall₂ after.Gives items values := by
  induction items generalizing m with
  | nil => exact ⟨.refl h, .nil⟩
  | cons item rest ih =>
    have hroom : graph.nodes.size < fuel + m.inside.length := Nat.lt_add_right _ hfuel
    rw [List.mapM_cons]
    refine (value_yields hclosed hplain himplicit fuel h (hreach item List.mem_cons_self)
      (hinside ▸ Graph.under_nil item) hroom).bind ?_
    rintro value first ⟨hfirst, hvalue⟩
    refine (ih hfirst.honest (fun other hmem => hreach other (List.mem_cons_of_mem _ hmem))
      (hfirst.inside.trans hinside)).bind ?_
    rintro values second ⟨hsecond, hvalues⟩
    exact ⟨hfirst.trans hsecond, .cons (hsecond.gives hvalue) hvalues⟩

/-- The first list that waits is filled. -/
theorem fillObject_yields (fuel : Nat) (h : m.Honest graph (n :: waiting)) (hinside : m.inside = [])
    (hfuel : graph.nodes.size < fuel) :
    Yields graph (fillObject fuel n) m fun _ after => m.Follows graph waiting 0 after := by
  obtain ⟨hreach, items, hcontent⟩ := h.queued (Or.inl List.mem_cons_self)
  have htag := himplicit n hreach
  rw [Node.Implicit, hcontent] at htag
  unfold fillObject
  refine nodeAt_bind h.nodes ?_
  simp only [htag, standardName_standardTag, hcontent]
  refine (items_yields hclosed hplain himplicit fuel items h
    (fun item hitem => hreach.holds (Graph.holds_item hcontent hitem)) hinside hfuel).bind ?_
  rintro values middle ⟨hmiddle, hvalues⟩
  exact ⟨hmiddle.honest.filled hcontent hvalues (hreach.lt_size hclosed), hmiddle.gives,
    hmiddle.inside, hmiddle.load⟩

/-- One round: all lists that wait are filled. -/
theorem round_yields (fuel : Nat) (h : m.Honest graph waiting) (hinside : m.inside = [])
    (hfuel : graph.nodes.size < fuel) :
    Yields graph (forIn waiting PUnit.unit fun n _ => do
        fillObject fuel n
        pure (ForInStep.yield PUnit.unit)) m fun _ after => m.Follows graph [] 0 after := by
  induction waiting generalizing m with
  | nil => exact .refl h
  | cons n rest ih =>
    rw [List.forIn_cons, bind_assoc]
    refine (fillObject_yields hclosed hplain himplicit fuel h hinside hfuel).bind ?_
    rintro _ middle hmiddle
    rw [pure_bind]
    exact (ih hmiddle.honest (hmiddle.inside.trans hinside)).mono fun _ _ => hmiddle.trans

theorem fillAll_yields (fuel rounds : Nat) (h : m.Honest graph []) (hinside : m.inside = [])
    (hfuel : graph.nodes.size < fuel) (hload : m.load ≤ rounds) :
    Yields graph (fillAll fuel rounds) m fun _ after =>
      m.Follows graph [] 0 after ∧ after.unfilled = [] := by
  induction rounds generalizing m with
  | zero =>
    unfold Making.load at hload
    exact ⟨.refl h, List.eq_nil_of_length_eq_zero (by omega)⟩
  | succ rounds ih =>
    rw [fillAll]
    refine Ends.get_bind ?_
    cases hunfilled : m.unfilled with
    | nil => exact ⟨.refl h, hunfilled⟩
    | cons n rest =>
      have hstart := h.dequeue
      rw [hunfilled] at hstart
      have hless : Making.load { m with unfilled := [] } < m.load := by
        simp only [Making.load, hunfilled, List.length_nil, List.length_cons]
        omega
      refine Ends.modify_bind ?_
      refine (round_yields hclosed hplain himplicit fuel hstart hinside hfuel).bind ?_
      rintro _ middle hmiddle
      have hrest := ih hmiddle.honest (hmiddle.inside.trans hinside)
        (Nat.le_of_lt_succ ((hmiddle.load.trans_lt hless).trans_le hload))
      refine hrest.mono ?_
      rintro _ after ⟨hafter, hdone⟩
      refine ⟨⟨hafter.honest, fun hgives => hafter.gives (hmiddle.gives hgives),
        hafter.inside.trans hmiddle.inside, ?_⟩, hdone⟩
      exact hafter.load.trans (hmiddle.load.trans hless.le)

end

end Make

/-! ## Documents -/

namespace Making

/-- The value of a node that has one. -/
def told (m : Making) (n : Nat) : Value :=
  (m.value? n).getD .null

theorem told_of_gives (h : m.Gives n value) : m.told n = value := by
  rw [told, show m.value? n = some value from h, Option.getD_some]

theorem told_items {items : List Nat} {values : List Value}
    (h : List.Forall₂ m.Gives items values) : values = items.map m.told := by
  induction h with
  | nil => rfl
  | cons hfirst _ ih => rw [List.map_cons, told_of_gives hfirst, ← ih]

theorem Keeps.told {pairs : List (Nat × Nat)} {kept : List (Value × Value)} (h : m.Keeps pairs kept) :
    kept = pairs.map fun pair => (m.told pair.1, m.told pair.2) := by
  have hvalues := h.values
  clear h
  induction hvalues with
  | nil => rfl
  | cons hfirst _ ih =>
    rw [List.map_cons, told_of_gives hfirst.1, told_of_gives hfirst.2, ← ih]

theorem honest_start (graph : Graph) :
    Honest graph []
      { nodes := graph.nodes
        values := Array.replicate graph.nodes.size none
        objects := Array.replicate graph.nodes.size none } where
  nodes := rfl
  width := Array.size_replicate
  breadth := Array.size_replicate
  inside h := absurd h List.not_mem_nil
  queued h := by rcases h with h | h <;> cases h
  suits {n value} h := by
    rw [Gives, value?, Array.getD_eq_getD_getElem?, Array.getElem?_replicate] at h
    split at h <;> cases h

section

variable {root : Nat} (h : m.Honest graph []) (hdone : m.unfilled = [])
include h hdone

theorem Honest.sequence {items : List Nat} (hgives : m.Gives n value)
    (hcontent : (graph.node n).content = .sequence items) :
    value = .object n ∧ ∃ values, m.objects.at? n = some (.list values) ∧
      List.Forall₂ m.Gives items values := by
  have hsuits := h.suits hgives
  rw [Suits, hcontent, hdone] at hsuits
  exact hsuits.imp_right fun hfilled =>
    (hfilled.resolve_left List.not_mem_nil).resolve_left List.not_mem_nil

omit hdone in
theorem Honest.mapping {pairs : List (Nat × Nat)} (hgives : m.Gives n value)
    (hcontent : (graph.node n).content = .mapping pairs) :
    value = .object n ∧ ∃ kept, m.objects.at? n = some (.dict kept) ∧ m.Keeps pairs kept := by
  have hsuits := h.suits hgives
  rw [Suits, hcontent] at hsuits
  exact hsuits

/-- When no list waits any more, a node with a value has parts with values. -/
theorem Honest.gives_part {part : Nat} (hgives : m.Gives n value) (hpart : graph.Holds n part) :
    ∃ value, m.Gives part value := by
  unfold Graph.Holds at hpart
  cases hcontent : (graph.node n).content with
  | scalar text =>
    rw [hcontent] at hpart
    cases hpart
  | sequence items =>
    rw [hcontent, Content.parts] at hpart
    obtain ⟨_, values, _, hvalues⟩ := h.sequence hdone hgives hcontent
    obtain ⟨i, hi, rfl⟩ := List.mem_iff_getElem.1 hpart
    exact ⟨_, hvalues.get hi (hvalues.length_eq ▸ hi)⟩
  | mapping pairs =>
    rw [hcontent, Content.parts] at hpart
    obtain ⟨pair, hpair, hpart⟩ := List.mem_flatMap.1 hpart
    obtain ⟨_, kept, _, hkeeps⟩ := h.mapping hgives hcontent
    obtain ⟨i, hi, rfl⟩ := List.mem_iff_getElem.1 hpair
    have hboth := hkeeps.values.get hi (hkeeps.values.length_eq ▸ hi)
    rcases List.mem_cons.1 hpart with rfl | hpart
    · exact ⟨_, hboth.1⟩
    · obtain rfl := List.mem_singleton.1 hpart
      exact ⟨_, hboth.2⟩

theorem Honest.gives_of_reaches (hroot : graph.root = some root) (hgives : m.Gives root value)
    (hreach : graph.Reaches n) : ∃ value, m.Gives n value := by
  obtain ⟨start, hstart, hpath⟩ := hreach
  obtain rfl := Option.some.inj (hroot.symm.trans hstart)
  induction hpath with
  | refl => exact ⟨value, hgives⟩
  | tail _ hlast ih =>
    obtain ⟨above, habove⟩ := ih
    exact h.gives_part hdone habove hlast

/-- In the end the objects tell what the nodes tell. -/
theorem Honest.tells (hroot : graph.root = some root) (hgives : m.Gives root value) :
    graph.Tells ⟨value, m.objects⟩ m.told where
  root := by rw [hroot, Option.elim_some, told_of_gives hgives]
  scalar hreach hscalar := by
    obtain ⟨made, hmade⟩ := h.gives_of_reaches hdone hroot hgives hreach
    rw [told_of_gives hmade, h.scalar_eq hmade hscalar]
  sequence hreach hcontent := by
    obtain ⟨made, hmade⟩ := h.gives_of_reaches hdone hroot hgives hreach
    obtain ⟨rfl, values, hlist, hvalues⟩ := h.sequence hdone hmade hcontent
    rw [told_of_gives hmade, Value.items?, hlist, told_items hvalues]
  mapping hreach hcontent := by
    obtain ⟨made, hmade⟩ := h.gives_of_reaches hdone hroot hgives hreach
    obtain ⟨rfl, kept, hdict, hkeeps⟩ := h.mapping hmade hcontent
    rw [told_of_gives hmade, Value.pairs?, hdict, hkeeps.told]

theorem Honest.no_duplicate (hroot : graph.root = some root) (hgives : m.Gives root value) :
    ¬ graph.HasDuplicate := by
  rintro ⟨n, pairs, hreach, hcontent, i, j, first, second, a, b, hless, hfirst, hsecond, ha, hb,
    hsame⟩
  obtain ⟨made, hmade⟩ := h.gives_of_reaches hdone hroot hgives hreach
  obtain ⟨_, kept, _, hkeeps⟩ := h.mapping hmade hcontent
  obtain ⟨hi, rfl⟩ := List.getElem?_eq_some_iff.1 hfirst
  obtain ⟨hj, rfl⟩ := List.getElem?_eq_some_iff.1 hsecond
  have hlength := hkeeps.values.length_eq
  have hone := h.scalar_eq (hkeeps.values.get hi (hlength ▸ hi)).1 ha
  have hother := h.scalar_eq (hkeeps.values.get hj (hlength ▸ hj)).1 hb
  have hdistinct := List.pairwise_iff_getElem.1 hkeeps.distinct i j (hlength ▸ hi) (hlength ▸ hj) hless
  rw [List.get_eq_getElem] at hone hother
  rw [hone, hother, hsame.isSameKey] at hdistinct
  cases hdistinct

end

end Making

/-- A document whose nodes have the tags that their form gives them is refused for nothing but a
mapping with two equal keys; otherwise it has no such mapping and tells each node's value. -/
theorem Document.ofGraph_tells (hclosed : graph.Closed) (hplain : graph.Plain)
    (himplicit : ∀ n, graph.Reaches n → (graph.node n).Implicit) :
    match Document.ofGraph graph with
    | .ok document => ¬ graph.HasDuplicate ∧ ∃ value, graph.Tells document value
    | .error flaw => graph.Repeats flaw := by
  unfold Document.ofGraph
  cases hroot : graph.root with
  | none =>
    have hnone (n : Nat) : ¬ graph.Reaches n := by
      rintro ⟨root, hsome, _⟩
      cases hroot.symm.trans hsome
    refine ⟨fun ⟨n, _, hreach, _⟩ => hnone n hreach, fun _ => .null, by rw [hroot]; rfl,
      ?_, ?_, ?_⟩
    all_goals exact fun hreach => absurd hreach (hnone _)
  | some root =>
    have hreach : graph.Reaches root := ⟨root, hroot, .refl⟩
    have hfuel : graph.nodes.size < graph.nodes.size + 2 := by omega
    have hwork : Make.Yields graph
        (do
          let value ← Make.value (graph.nodes.size + 2) root
          Make.fillAll (graph.nodes.size + 2) (graph.nodes.size + 2)
          pure value)
        { nodes := graph.nodes
          values := Array.replicate graph.nodes.size none
          objects := Array.replicate graph.nodes.size none }
        fun value after => ¬ graph.HasDuplicate ∧ ∃ told, graph.Tells ⟨value, after.objects⟩ told := by
      refine (Make.value_yields hclosed hplain himplicit _ (Making.honest_start graph) hreach
        (Graph.under_nil root) hfuel).bind ?_
      rintro value first ⟨hfirst, hvalue⟩
      have hload : first.load ≤ graph.nodes.size + 2 := by
        refine hfirst.load.trans ?_
        simp only [Making.load, Array.countP_replicate, List.length_nil, Option.isNone_none, if_true]
        omega
      refine (Make.fillAll_yields hclosed hplain himplicit _ _ hfirst.honest hfirst.inside hfuel
        hload).bind ?_
      rintro _ after ⟨hafter, hdone⟩
      have hgives := hafter.gives hvalue
      exact ⟨hafter.honest.no_duplicate hdone hroot hgives, _,
        hafter.honest.tells hdone hroot hgives⟩
    unfold Make.Yields Ends at hwork
    simp only [bind, Except.bind] at hwork ⊢
    split at hwork
    case h_1 hrun =>
      rw [hrun]
      exact hwork
    case h_2 hrun =>
      rw [hrun]
      exact hwork

end SerialConsole.Yaml
