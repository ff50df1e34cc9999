import SerialConsole.Proofs.Yaml.Nodes
import SerialConsole.Proofs.Yaml.Steps

set_option autoImplicit false

/-!
# What composing gives

Every node that a composed graph refers to is there, and without explicit tags every node has the
tag that its form gives it. While a collection is read it has no content yet; so the invariant leaves
out the collections that are open.
-/
namespace SerialConsole.Yaml

/-- Whether a token is an explicit tag. -/
def Token.isTag : Token → Bool
  | .tag _ _ => true
  | _ => false

/-- What was read so far is right, but for the collections that are open, which have their tags
already. -/
structure Reading.Sound (opened : List (Nat × String)) (r : Reading) : Prop where
  untagged {token : Token} : token ∈ r.tokens → token.isTag = false
  parts {n part : Nat} : part ∈ (r.nodes.getD n default).content.parts → part < r.nodes.size
  anchors {anchor : String × Nat} : anchor ∈ r.anchors → anchor.2 < r.nodes.size
  tags {place : Nat × String} : place ∈ opened →
    place.1 < r.nodes.size ∧ (r.nodes.getD place.1 default).tag = place.2
  implicit {n : Nat} : n < r.nodes.size → n ∉ opened.map (·.1) → (r.nodes.getD n default).Implicit

namespace Read

variable {α β : Type} {opened : List (Nat × String)} {k : Nat}

/-- Reading on from a state with at least `k` nodes keeps all of it right and all nodes there; what
it finds is described with regard to the number of nodes. -/
def Growing (opened : List (Nat × String)) (k : Nat) (read : Read α) (Q : Nat → α → Prop) : Prop :=
  ∀ r : Reading, r.Sound opened → k ≤ r.nodes.size →
    Ends (fun _ => True) read r fun a after =>
      after.Sound opened ∧ k ≤ after.nodes.size ∧ Q after.nodes.size a

theorem Growing.bind {read : Read α} {next : α → Read β} {R : Nat → α → Prop} {Q : Nat → β → Prop}
    (h : Growing opened k read R) (hnext : ∀ a j, k ≤ j → R j a → Growing opened j (next a) Q) :
    Growing opened k (read >>= next) Q := by
  intro r hr hk
  refine (h r hr hk).bind ?_
  rintro a middle ⟨hmiddle, hgrown, ha⟩
  refine (hnext a middle.nodes.size hgrown ha middle hmiddle (Nat.le_refl _)).mono ?_
  rintro b after ⟨hafter, hsize, hb⟩
  exact ⟨hafter, Nat.le_trans hgrown hsize, hb⟩

theorem growing_pure {a : α} {Q : Nat → α → Prop} (h : ∀ j, k ≤ j → Q j a) :
    Growing opened k (pure a) Q :=
  fun r hr hk => ⟨hr, hk, h r.nodes.size hk⟩

theorem growing_refuse (Q : Nat → α → Prop) : Growing opened k refuse Q :=
  fun _ _ _ => trivial

theorem growing_ite {c : Prop} [Decidable c] {yes no : Read α} {Q : Nat → α → Prop}
    (hyes : Growing opened k yes Q) (hno : Growing opened k no Q) :
    Growing opened k (if c then yes else no) Q := by
  split
  · exact hyes
  · exact hno

/-! ## Single steps -/

theorem growing_peek : Growing opened k peek fun _ token => token.isTag = false := by
  intro r hr hk
  have hnext : (r.tokens.head?.getD .streamEnd).isTag = false := by
    cases htokens : r.tokens with
    | nil => rfl
    | cons token rest => exact hr.untagged (by rw [htokens]; exact List.mem_cons_self)
  exact ⟨hr, hk, hnext⟩

theorem growing_advance : Growing opened k advance fun _ _ => True :=
  fun _ hr hk => ⟨⟨fun hmem => hr.untagged (List.mem_of_mem_drop hmem), hr.parts, hr.anchors,
    hr.tags, hr.implicit⟩, hk, trivial⟩

theorem growing_skip (token : Token) : Growing opened k (skip token) fun _ _ => True := by
  unfold skip
  refine growing_peek.bind fun next j _ _ => ?_
  refine growing_ite (growing_advance.bind fun _ _ _ _ => ?_) ?_
  all_goals exact growing_pure fun _ _ => trivial

theorem growing_expect (token : Token) : Growing opened k (expect token) fun _ _ => True := by
  unfold expect
  refine (growing_skip token).bind fun found j _ _ => ?_
  exact growing_ite (growing_pure fun _ _ => trivial) (growing_refuse _)

theorem getD_push (nodes : Array Node) (node : Node) (n : Nat) :
    (nodes.push node).getD n default = if n = nodes.size then node else nodes.getD n default := by
  rw [Array.getD_eq_getD_getElem?, Array.getElem?_push, Array.getD_eq_getD_getElem?]
  split <;> rfl

/-- A node without parts may be added, if it is right or counts as open from now on. -/
theorem add_sound {r : Reading} (node : Node) {added : List (Nat × String)} (hr : r.Sound opened)
    (hparts : node.content.parts = [])
    (hnode : added = [] ∧ node.Implicit ∨ added = [(r.nodes.size, node.tag)]) :
    Reading.Sound (added ++ opened) { r with nodes := r.nodes.push node } where
  untagged := hr.untagged
  parts {n part} hpart := by
    rw [getD_push] at hpart
    split at hpart
    · rw [hparts] at hpart
      cases hpart
    · have hbound := hr.parts hpart
      simp only [Array.size_push]
      omega
  anchors hanchor := by
    have hbound := hr.anchors hanchor
    simp only [Array.size_push]
    omega
  tags {place} hplace := by
    simp only [Array.size_push, getD_push]
    rcases List.mem_append.1 hplace with hadded | hbefore
    · rcases hnode with ⟨rfl, _⟩ | rfl
      · cases hadded
      · obtain rfl := List.mem_singleton.1 hadded
        exact ⟨Nat.lt_succ_self _, by rw [if_pos rfl]⟩
    · obtain ⟨hbound, htag⟩ := hr.tags hbefore
      rw [if_neg (Nat.ne_of_lt hbound)]
      exact ⟨Nat.lt_succ_of_lt hbound, htag⟩
  implicit {n} hn hopen := by
    rw [List.map_append, List.mem_append, not_or] at hopen
    rw [getD_push]
    split
    case isTrue hlast =>
      refine (hnode.resolve_right fun hadded => hopen.1 ?_).2
      rw [hadded, hlast]
      exact List.mem_cons_self
    case isFalse hother =>
      simp only [Array.size_push] at hn
      exact hr.implicit (by omega) hopen.2

theorem growing_add {node : Node} (hparts : node.content.parts = []) (hnode : node.Implicit) :
    Growing opened k (add node) fun j n => n < j := by
  intro r hr hk
  refine ⟨add_sound node hr hparts (Or.inl ⟨rfl, hnode⟩), ?_, ?_⟩
  all_goals
    simp only [Array.size_push]
    omega

theorem growing_empty : Growing opened k empty fun j n => n < j :=
  growing_add rfl (Or.inr (by decide +kernel))

theorem growing_name (anchor : Option String) {n : Nat} (hn : n < k) :
    Growing opened k (name anchor n) fun _ _ => True := by
  intro r hr hk
  unfold name
  cases anchor with
  | none => exact ⟨hr, hk, trivial⟩
  | some anchor =>
    refine ⟨⟨hr.untagged, hr.parts, fun hanchor => ?_, hr.tags, hr.implicit⟩, hk, trivial⟩
    rcases List.mem_cons.1 hanchor with rfl | hmem
    · exact Nat.lt_of_lt_of_le hn hk
    · exact hr.anchors hmem

theorem growing_checkAnchor (anchor : Option String) :
    Growing opened k (checkAnchor anchor) fun _ _ => True := by
  intro r hr hk
  unfold checkAnchor
  cases anchor with
  | none => exact ⟨hr, hk, trivial⟩
  | some anchor =>
    refine Ends.get_bind ?_
    split
    · exact trivial
    · exact ⟨hr, hk, trivial⟩

/-- Without explicit tags a node has no properties but an anchor. -/
theorem growing_properties : Growing opened k properties fun _ p => p.tag = none := by
  unfold properties
  refine growing_peek.bind fun token j _ htoken => ?_
  split
  · refine growing_advance.bind fun _ _ _ _ => growing_peek.bind fun next _ _ hnext => ?_
    split
    · cases hnext
    · exact growing_pure fun _ _ => rfl
  · cases htoken
  · exact growing_pure fun _ _ => rfl

theorem growing_scalar {p : Properties} (hp : p.tag = none) (text : String) (plain : Bool) :
    Growing opened k (scalar p text plain) fun j n => n < j := by
  unfold scalar
  rw [hp]
  have himplicit : Node.Implicit ⟨scalarTag none plain text, .scalar text⟩ := by
    cases plain with
    | false => exact Or.inl rfl
    | true => exact Or.inr rfl
  refine (growing_add rfl himplicit).bind fun n j _ hn => ?_
  refine (growing_name p.anchor hn).bind fun _ l hl _ => ?_
  exact growing_pure fun i hi => Nat.lt_of_lt_of_le hn (Nat.le_trans hl hi)

theorem growing_emptyNode {p : Properties} (hp : p.tag = none) :
    Growing opened k (emptyNode p) fun j n => n < j := by
  unfold emptyNode
  exact growing_ite (growing_scalar hp "" true) (growing_refuse _)

theorem growing_aliased (anchor : String) : Growing opened k (aliased anchor) fun j n => n < j := by
  intro r hr hk
  unfold aliased
  refine Ends.get_bind ?_
  split
  case h_1 hfound => exact ⟨hr, hk, hr.anchors (List.mem_of_find?_eq_some hfound)⟩
  case h_2 => exact trivial

/-! ## Collections -/

/-- The parts of a content are among the first nodes. -/
def Below (content : Content) (j : Nat) : Prop :=
  ∀ part ∈ content.parts, part < j

theorem Below.mono {content : Content} {j i : Nat} (h : Below content j) (hji : j ≤ i) :
    Below content i :=
  fun part hpart => Nat.lt_of_lt_of_le (h part hpart) hji

theorem below_nil {j : Nat} : Below (.sequence []) j ∧ Below (.mapping []) j :=
  ⟨fun _ h => absurd h List.not_mem_nil, fun _ h => absurd h List.not_mem_nil⟩

theorem below_item {j item : Nat} {items : List Nat} (hitem : item < j)
    (hitems : Below (.sequence items) j) : Below (.sequence (item :: items)) j := by
  intro part hpart
  rcases List.mem_cons.1 hpart with rfl | hmem
  · exact hitem
  · exact hitems part hmem

theorem below_pair {j key value : Nat} {pairs : List (Nat × Nat)} (hkey : key < j)
    (hvalue : value < j) (hpairs : Below (.mapping pairs) j) :
    Below (.mapping ((key, value) :: pairs)) j := by
  intro part hpart
  rcases List.mem_append.1 hpart with hfirst | hmem
  · rcases List.mem_pair.1 hfirst with rfl | rfl
    · exact hkey
    · exact hvalue
  · exact hpairs part hmem

theorem getD_fill (nodes : Array Node) (n m : Nat) (content : Content) (hn : n < nodes.size) :
    (nodes.modify n fun node => { node with content }).getD m default =
      if m = n then ⟨(nodes.getD n default).tag, content⟩ else nodes.getD m default := by
  rw [Array.getD_eq_getD_getElem?, Array.getElem?_modify, Array.getD_eq_getD_getElem?,
    Array.getD_eq_getD_getElem?]
  by_cases hsame : m = n
  · subst hsame
    simp [hn]
  · rw [if_neg (Ne.symm hsame), if_neg hsame]

/-- An open collection may be filled. -/
theorem fill_sound {r : Reading} {n : Nat} {tag : String} {content : Content}
    (hr : r.Sound ((n, tag) :: opened)) (hparts : Below content r.nodes.size)
    (himplicit : Node.Implicit ⟨tag, content⟩) :
    Reading.Sound opened
      { r with nodes := r.nodes.modify n fun node => { node with content } } where
  untagged := hr.untagged
  parts {m part} hpart := by
    rw [getD_fill _ _ _ _ (hr.tags List.mem_cons_self).1] at hpart
    simp only [Array.size_modify]
    split at hpart
    · exact hparts part hpart
    · exact hr.parts hpart
  anchors hanchor := by
    simp only [Array.size_modify]
    exact hr.anchors hanchor
  tags {place} hplace := by
    obtain ⟨hbound, htag⟩ := hr.tags (List.mem_cons_of_mem _ hplace)
    rw [getD_fill _ _ _ _ (hr.tags List.mem_cons_self).1]
    simp only [Array.size_modify]
    refine ⟨hbound, ?_⟩
    by_cases hsame : place.1 = n
    · rw [if_pos hsame, ← htag, hsame]
    · rw [if_neg hsame, htag]
  implicit {m} hm hopen := by
    have hfilled := hr.tags List.mem_cons_self
    simp only [Array.size_modify] at hm
    rw [getD_fill _ _ _ _ hfilled.1, hfilled.2]
    by_cases hsame : m = n
    · rw [if_pos hsame]
      exact himplicit
    · rw [if_neg hsame]
      refine hr.implicit hm fun hmem => ?_
      rcases List.mem_cons.1 hmem with heq | hbefore
      · exact hsame heq
      · exact hopen hbefore

/-- A node that is added first and filled when its content has been read. -/
theorem growing_filled (tag : String) (content : Nat → Read Content)
    (hcontent : ∀ n j opened, n < j → Growing opened j (content n) fun i content =>
      Below content i ∧ Node.Implicit ⟨tag, content⟩) :
    Growing opened k
      (do
        let n ← add ⟨tag, .scalar ""⟩
        let content ← content n
        fill n content
        pure n)
      fun j n => n < j := by
  intro r hr hk
  -- Until then the new node has the wrong content for its tag, so it counts as open.
  have hopened := add_sound ⟨tag, .scalar ""⟩ hr rfl (Or.inr rfl)
  refine Ends.bind (R := fun n after => n = r.nodes.size ∧
    after = { r with nodes := r.nodes.push ⟨tag, .scalar ""⟩ }) ⟨rfl, rfl⟩ ?_
  rintro _ _ ⟨rfl, rfl⟩
  refine (hcontent r.nodes.size (r.nodes.size + 1) _ (Nat.lt_succ_self _) _ hopened
    (Nat.le_of_eq (Array.size_push _).symm)).bind ?_
  rintro content after ⟨hafter, hsize, hparts, himplicit⟩
  refine ⟨fill_sound hafter hparts himplicit, ?_, ?_⟩
  all_goals
    simp only [Array.size_modify]
    omega

theorem growing_collection {p : Properties} (hp : p.tag = none) {usual : String}
    {content : Read Content}
    (hcontent : ∀ j opened, Growing opened j content fun i content =>
      Below content i ∧ Node.Implicit ⟨standardTag usual, content⟩) :
    Growing opened k (collection p usual content) fun j n => n < j := by
  unfold collection
  rw [hp]
  rw [show collectionTag none usual = standardTag usual from rfl]
  refine growing_advance.bind fun _ j _ _ => ?_
  have hfilled : Growing opened j _ _ := growing_filled (standardTag usual)
    (fun n => name p.anchor n >>= fun _ => content)
    fun n j opened hn => (growing_name p.anchor hn).bind fun _ i _ _ => hcontent i opened
  simpa only [bind_assoc] using hfilled

/-! ## Nodes and their parts -/

/-- With some fuel, nodes and their parts are read as they should. -/
structure AllGrowing (fuel : Nat) : Prop where
  node {opened : List (Nat × String)} {k : Nat} (setting : Setting) :
    Growing opened k (node fuel setting) fun j n => n < j
  blockItems {opened : List (Nat × String)} {k : Nat} :
    Growing opened k (blockItems fuel) fun j items => Below (.sequence items) j
  bareItems {opened : List (Nat × String)} {k : Nat} :
    Growing opened k (bareItems fuel) fun j items => Below (.sequence items) j
  blockPairs {opened : List (Nat × String)} {k : Nat} :
    Growing opened k (blockPairs fuel) fun j pairs => Below (.mapping pairs) j
  singlePair {opened : List (Nat × String)} {k : Nat} :
    Growing opened k (singlePair fuel) fun j n => n < j
  flowItems {opened : List (Nat × String)} {k : Nat} (first : Bool) :
    Growing opened k (flowItems fuel first) fun j items => Below (.sequence items) j
  flowPairs {opened : List (Nat × String)} {k : Nat} (first : Bool) :
    Growing opened k (flowPairs fuel first) fun j pairs => Below (.mapping pairs) j

theorem ite_bind {c : Prop} [Decidable c] (yes no : Read α) (next : α → Read β) :
    (if c then yes else no) >>= next = if c then yes >>= next else no >>= next := by
  split <;> rfl

/-- What comes after the comma before an entry, which the first one does not have. -/
theorem growing_comma {first : Bool} {next : Unit → Read α} {Q : Nat → α → Prop}
    (hnext : ∀ j, Growing opened j (next ()) Q) :
    Growing opened k (if first then next () else expect .flowEntry >>= next) Q :=
  growing_ite (hnext k) ((growing_expect _).bind fun _ j _ _ => hnext j)

/-- What comes after a node that may be left out. -/
theorem growing_perhaps {c : Prop} [Decidable c] {read : Read Nat} {next : Nat → Read α}
    {Q : Nat → α → Prop} (hread : Growing opened k read fun j n => n < j)
    (hnext : ∀ n j, k ≤ j → n < j → Growing opened j (next n) Q) :
    Growing opened k (if c then empty >>= next else read >>= next) Q :=
  growing_ite (growing_empty.bind hnext) (hread.bind hnext)

/-- What comes after a value that may be left out, with or without the mark before it. -/
theorem growing_valued {ends : Token → Prop} [DecidablePred ends] {read : Read Nat}
    {next : Nat → Read α} {Q : Nat → α → Prop}
    (hread : ∀ j, Growing opened j read fun i n => n < i)
    (hnext : ∀ n j, k ≤ j → n < j → Growing opened j (next n) Q) :
    Growing opened k
      (do
        if ← skip .value then do
          let token ← peek
          if ends token then empty >>= next else read >>= next
        else empty >>= next)
      Q := by
  refine (growing_skip _).bind fun found j hj _ => ?_
  refine growing_ite ?_ (growing_empty.bind fun n i hi => hnext n i (Nat.le_trans hj hi))
  refine growing_peek.bind fun token i hi _ => ?_
  exact growing_perhaps (hread i) fun n l hl => hnext n l (by omega)

/-- The entries after an entry. -/
theorem growing_items {item : Nat} {items : Read (List Nat)} (hitem : item < k)
    (hitems : Growing opened k items fun i items => Below (.sequence items) i) :
    Growing opened k
      (do
        let items ← items
        pure (item :: items))
      fun j items => Below (.sequence items) j := by
  refine hitems.bind fun items j hkj hbelow => growing_pure fun i hji => ?_
  exact below_item (by omega) (hbelow.mono hji)

/-- The pairs after a pair. -/
theorem growing_pairs {key value : Nat} {pairs : Read (List (Nat × Nat))} (hkey : key < k)
    (hvalue : value < k)
    (hpairs : Growing opened k pairs fun i pairs => Below (.mapping pairs) i) :
    Growing opened k
      (do
        let pairs ← pairs
        pure ((key, value) :: pairs))
      fun j pairs => Below (.mapping pairs) j := by
  refine hpairs.bind fun pairs j hkj hbelow => growing_pure fun i hji => ?_
  exact below_pair (by omega) (by omega) (hbelow.mono hji)

theorem growing_sequence {items : Read (List Nat)}
    (hitems : Growing opened k items fun i items => Below (.sequence items) i) :
    Growing opened k (return .sequence (← items)) fun i content =>
      Below content i ∧ Node.Implicit ⟨standardTag "seq", content⟩ :=
  hitems.bind fun _ _ _ hbelow => growing_pure fun _ hji => ⟨hbelow.mono hji, rfl⟩

theorem growing_mapping {pairs : Read (List (Nat × Nat))}
    (hpairs : Growing opened k pairs fun i pairs => Below (.mapping pairs) i) :
    Growing opened k (return .mapping (← pairs)) fun i content =>
      Below content i ∧ Node.Implicit ⟨standardTag "map", content⟩ :=
  hpairs.bind fun _ _ _ hbelow => growing_pure fun _ hji => ⟨hbelow.mono hji, rfl⟩

section

variable {fuel : Nat} (h : AllGrowing fuel)
include h

theorem growing_node (setting : Setting) :
    Growing opened k (node (fuel + 1) setting) fun j n => n < j := by
  unfold node
  refine growing_peek.bind fun token j _ _ => ?_
  split
  · exact growing_advance.bind fun _ i _ _ => growing_aliased _
  refine growing_properties.bind fun p j _ hp => ?_
  refine (growing_checkAnchor p.anchor).bind fun _ j _ _ => ?_
  refine growing_peek.bind fun token j _ htoken => ?_
  split
  · exact growing_advance.bind fun _ _ _ _ => growing_scalar hp _ _
  · exact growing_collection hp fun _ _ => growing_sequence (h.flowItems true)
  · exact growing_collection hp fun _ _ => growing_mapping (h.flowPairs true)
  · refine growing_ite ?_ (growing_emptyNode hp)
    rw [hp, show collectionTag none "seq" = standardTag "seq" from rfl]
    have hfilled : Growing opened j _ _ := growing_filled (standardTag "seq")
      (fun n => name p.anchor n >>= fun _ => return .sequence (← bareItems fuel))
      fun n i opened hn => (growing_name p.anchor hn).bind fun _ _ _ _ =>
        growing_sequence h.bareItems
    simpa only [bind_assoc, pure_bind] using hfilled
  · exact growing_ite (growing_emptyNode hp)
      (growing_collection hp fun _ _ => growing_sequence h.blockItems)
  · exact growing_ite (growing_emptyNode hp)
      (growing_collection hp fun _ _ => growing_mapping h.blockPairs)
  · exact growing_emptyNode hp

theorem growing_blockItems :
    Growing opened k (blockItems (fuel + 1)) fun j items => Below (.sequence items) j := by
  unfold blockItems
  refine (growing_skip _).bind fun found j _ _ => ?_
  refine growing_ite ?_ ((growing_expect _).bind fun _ _ _ _ => growing_pure fun _ _ => below_nil.1)
  refine growing_peek.bind fun next i _ _ => ?_
  exact growing_perhaps (h.node _) fun item l _ hitem => growing_items hitem h.blockItems

theorem growing_bareItems :
    Growing opened k (bareItems (fuel + 1)) fun j items => Below (.sequence items) j := by
  unfold bareItems
  refine (growing_skip _).bind fun found j _ _ => ?_
  refine growing_ite ?_ (growing_pure fun _ _ => below_nil.1)
  refine growing_peek.bind fun next i _ _ => ?_
  exact growing_perhaps (h.node _) fun item l _ hitem => growing_items hitem h.bareItems

theorem growing_blockPairs :
    Growing opened k (blockPairs (fuel + 1)) fun j pairs => Below (.mapping pairs) j := by
  unfold blockPairs
  refine (growing_skip _).bind fun found j _ _ => ?_
  refine growing_ite ?_ ((growing_expect _).bind fun _ _ _ _ => growing_pure fun _ _ => below_nil.2)
  refine growing_peek.bind fun next j _ _ => ?_
  refine growing_perhaps (h.node _) fun key i _ hkey => ?_
  refine growing_valued (fun _ => h.node _) fun value l hil hvalue => ?_
  exact growing_pairs (by omega) hvalue h.blockPairs

theorem growing_singlePair :
    Growing opened k (singlePair (fuel + 1)) fun j n => n < j := by
  unfold singlePair
  refine growing_advance.bind fun _ j _ _ => ?_
  -- The mapping stays open while its key and its value are read, and is filled after both.
  have hfilled : Growing opened j _ _ := growing_filled (standardTag "map")
    (fun _ => do
      let next ← peek
      let key ←
        if next = .value ∨ next = .flowEntry ∨ next = .flowSequenceEnd then empty
        else node fuel .flow
      let value ←
        if ← skip .value then do
          let next ← peek
          if next = .flowEntry ∨ next = .flowSequenceEnd then empty else node fuel .flow
        else empty
      return .mapping [(key, value)])
    fun n i opened hn => growing_peek.bind fun next i hji _ => by
      refine growing_perhaps (h.node _) fun key l _ hkey => ?_
      refine growing_valued (fun _ => h.node _) fun value m hlm hvalue => ?_
      exact growing_pure fun _ hm => ⟨below_pair (by omega) (by omega) below_nil.2, rfl⟩
  simpa only [bind_assoc, pure_bind, ite_bind] using hfilled

theorem growing_flowItems (first : Bool) :
    Growing opened k (flowItems (fuel + 1) first) fun j items => Below (.sequence items) j := by
  unfold flowItems
  refine (growing_skip _).bind fun found j _ _ => ?_
  refine growing_ite (growing_pure fun _ _ => below_nil.1) ?_
  refine growing_comma fun j => growing_peek.bind fun next i _ _ => ?_
  refine growing_ite (growing_advance.bind fun _ _ _ _ => growing_pure fun _ _ => below_nil.1) ?_
  refine growing_ite (h.singlePair.bind fun item l _ hitem => ?_)
    ((h.node _).bind fun item l _ hitem => ?_)
  all_goals exact growing_items hitem (h.flowItems false)

theorem growing_flowPairs (first : Bool) :
    Growing opened k (flowPairs (fuel + 1) first) fun j pairs => Below (.mapping pairs) j := by
  unfold flowPairs
  refine (growing_skip _).bind fun found j _ _ => ?_
  refine growing_ite (growing_pure fun _ _ => below_nil.2) ?_
  refine growing_comma fun j => growing_peek.bind fun next i _ _ => ?_
  refine growing_ite (growing_advance.bind fun _ _ _ _ => growing_pure fun _ _ => below_nil.2) ?_
  refine growing_ite ?_ ?_
  · refine growing_advance.bind fun _ j _ _ => growing_peek.bind fun next j _ _ => ?_
    refine growing_perhaps (h.node _) fun key i _ hkey => ?_
    refine growing_valued (fun _ => h.node _) fun value l hil hvalue => ?_
    exact growing_pairs (by omega) hvalue (h.flowPairs false)
  · refine (h.node _).bind fun key j _ hkey => growing_empty.bind fun value i hji hvalue => ?_
    exact growing_pairs (by omega) hvalue (h.flowPairs false)

end

theorem allGrowing (fuel : Nat) : AllGrowing fuel := by
  -- Every reader reads the parts of its node with less fuel, by any of the other readers.
  induction fuel with
  | zero =>
    exact
      { node := fun _ => growing_refuse _
        blockItems := growing_refuse _
        bareItems := growing_refuse _
        blockPairs := growing_refuse _
        singlePair := growing_refuse _
        flowItems := fun _ => growing_refuse _
        flowPairs := fun _ => growing_refuse _ }
  | succ fuel ih =>
    exact
      { node := fun setting => growing_node ih setting
        blockItems := growing_blockItems ih
        bareItems := growing_bareItems ih
        blockPairs := growing_blockPairs ih
        singlePair := growing_singlePair ih
        flowItems := fun first => growing_flowItems ih first
        flowPairs := fun first => growing_flowPairs ih first }

/-! ## Documents -/

theorem growing_handles (handles : List (String × String)) :
    Growing opened k (modify fun r => { r with handles }) fun _ _ => True :=
  fun _ hr hk => ⟨⟨hr.untagged, hr.parts, hr.anchors, hr.tags, hr.implicit⟩, hk, trivial⟩

theorem growing_directives (fuel : Nat) (versioned : Bool) (handles : List (String × String)) :
    Growing opened k (directives fuel versioned handles) fun _ _ => True := by
  induction fuel generalizing versioned handles k with
  | zero => exact growing_refuse _
  | succ fuel ih =>
    unfold directives
    refine growing_peek.bind fun token j _ _ => ?_
    split
    · exact growing_advance.bind fun _ _ _ _ => growing_ite (growing_refuse _) (ih true _)
    · exact growing_advance.bind fun _ _ _ _ => growing_ite (growing_refuse _) (ih versioned _)
    · exact growing_advance.bind fun _ _ _ _ => ih versioned _
    · exact growing_pure fun _ _ => trivial

theorem growing_skipEnds (fuel : Nat) : Growing opened k (skipEnds fuel) fun _ _ => True := by
  induction fuel generalizing k with
  | zero => exact growing_pure fun _ _ => trivial
  | succ fuel ih =>
    unfold skipEnds
    refine (growing_skip _).bind fun found j _ _ => ?_
    exact growing_ite ih (growing_pure fun _ _ => trivial)

theorem growing_markedDocument (fuel : Nat) :
    Growing opened k (markedDocument fuel) fun j root => ∀ n, root = some n → n < j := by
  unfold markedDocument
  refine (growing_skipEnds fuel).bind fun _ j _ _ => growing_peek.bind fun token j _ _ => ?_
  refine growing_ite (growing_pure fun _ _ _ hroot => by cases hroot) ?_
  refine (growing_directives fuel false []).bind fun handles j _ _ => ?_
  refine (growing_handles _).bind fun _ j _ _ => (growing_expect _).bind fun _ j _ _ => ?_
  refine growing_peek.bind fun token j _ _ => ?_
  refine growing_perhaps ((allGrowing fuel).node _) fun n i _ hn => ?_
  refine growing_pure fun l hil m hm => ?_
  obtain rfl := Option.some.inj hm
  exact Nat.lt_of_lt_of_le hn hil

theorem growing_ended (fuel : Nat) {root : Option Nat} (hroot : ∀ n, root = some n → n < k) :
    Growing opened k
      (do
        let _ ← skip .documentEnd
        skipEnds fuel
        expect .streamEnd
        pure root)
      fun j root => ∀ n, root = some n → n < j := by
  refine (growing_skip _).bind fun _ j hkj _ => (growing_skipEnds fuel).bind fun _ i hji _ => ?_
  refine (growing_expect _).bind fun _ l hil _ => growing_pure fun m hlm n hn => ?_
  have hbound := hroot n hn
  omega

theorem growing_document (fuel : Nat) :
    Growing opened k (document fuel) fun j root => ∀ n, root = some n → n < j := by
  unfold document
  refine growing_peek.bind fun token j _ _ => ?_
  split
  case h_4 =>
    refine (growing_handles _).bind fun _ j _ _ => ?_
    refine ((allGrowing fuel).node _).bind fun n i _ hn => growing_ended fuel fun m hm => ?_
    obtain rfl := Option.some.inj hm
    exact hn
  all_goals exact (growing_markedDocument fuel).bind fun _ _ _ hroot => growing_ended fuel hroot

end Read

/-- The state before anything is read. -/
theorem sound_start {tokens : List Token} (h : ∀ token ∈ tokens, token.isTag = false) :
    Reading.Sound [] { tokens } where
  untagged := h _
  parts hpart := by cases hpart
  anchors hanchor := by cases hanchor
  tags hplace := by cases hplace
  implicit hn := absurd hn (Nat.not_lt_zero _)

/-- A graph without explicit tags has all nodes that it refers to, with the tags that their forms
give them. -/
theorem Graph.ofTokens_implicit {tokens : List Token} {graph : Graph}
    (h : Graph.ofTokens tokens = .ok graph) (huntagged : ∀ token ∈ tokens, token.isTag = false) :
    graph.Closed ∧ ∀ n, graph.Reaches n → (graph.node n).Implicit := by
  have hread := Read.growing_document (2 * tokens.length + 8) _ (sound_start huntagged)
    (Nat.zero_le _)
  unfold Ends at hread
  unfold Graph.ofTokens at h
  split at hread
  case h_1 root reading hrun =>
    rw [hrun] at h
    obtain rfl := Except.ok.inj h
    obtain ⟨hsound, -, hroot⟩ := hread
    have hclosed : Graph.Closed ⟨reading.nodes, root⟩ := ⟨hroot _, hsound.parts⟩
    exact ⟨hclosed, fun n hn => hsound.implicit (hn.lt_size hclosed) List.not_mem_nil⟩
  case h_2 hrun =>
    rw [hrun] at h
    cases h

end SerialConsole.Yaml
