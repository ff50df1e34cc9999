import SerialConsole.Proofs.Script.Unfolding
import SerialConsole.Script.Execution

set_option autoImplicit false

/-!
# Walks through the commands

Which commands are done one after another is a matter of the commands alone, as long as nobody stops
an execution and nothing fails. A `Span` is a piece of the commands in which every LOOP has its END,
with what is run of it: the body of a LOOP as often as its count says, and once at least. A span is
walked from its first place to the place behind it, and the loops that are open stay (`Span.walk`).
The layout of a tree is a span of which its unfolding is run (`Holds.span`).
-/
namespace SerialConsole.Script

def Command.value? : Command → Option String
  | .send value _ => some value
  | _ => none

/-- Whether a command is neither a LOOP nor an END. -/
def Command.isPlain : Command → Bool
  | .send _ _ | .delay _ _ => true
  | _ => false

/-- The values that commands send, in order. -/
def sentBy (entries : List Entry) : List String :=
  entries.filterMap fun entry => entry.2.value?

theorem sentBy_append (es fs : List Entry) : sentBy (es ++ fs) = sentBy es ++ sentBy fs :=
  List.filterMap_append

namespace Plan

variable {plan : Plan}

/-- Where an execution is after the given entries, at a given place with given open loops. -/
def past (p : Progress) (entries : List Entry) (index : Nat) (loops : List OpenLoop) : Progress :=
  ⟨index, loops, p.steps + entries.length, p.sends + (sentBy entries).length⟩

@[simp] theorem past_index (p : Progress) (entries : List Entry) (index : Nat)
    (loops : List OpenLoop) : (past p entries index loops).index = index := rfl

@[simp] theorem past_loops (p : Progress) (entries : List Entry) (index : Nat)
    (loops : List OpenLoop) : (past p entries index loops).loops = loops := rfl

@[simp] theorem past_steps (p : Progress) (entries : List Entry) (index : Nat)
    (loops : List OpenLoop) : (past p entries index loops).steps = p.steps + entries.length := rfl

theorem past_past (p : Progress) (es fs : List Entry) (i j : Nat) (ls ms : List OpenLoop) :
    past (past p es i ls) fs j ms = past p (es ++ fs) j ms := by
  simp only [past, sentBy_append, List.length_append, Nat.add_assoc]

/-- Where a command that is done leads. -/
def advance (plan : Plan) (p : Progress) : Command → Except Fault Progress
  | .send _ _ => .ok { p with index := p.index + 1, sends := p.sends + 1 }
  | .delay _ _ => .ok { p with index := p.index + 1 }
  | .loop count _ _ => .ok { p with index := p.index + 1, loops := ⟨p.index, count, 0⟩ :: p.loops }
  | .loopEnd startAt _ => plan.closeLoop p startAt
  | .unknown name => .error (.unknownCommand p.index plan.total name)

theorem closeLoop_counts {p next : Progress} {startAt : Int}
    (h : plan.closeLoop p startAt = .ok next) : next.steps = p.steps ∧ next.sends = p.sends := by
  rw [closeLoop] at h
  split at h
  · cases h
  · split at h
    · cases h
    · split at h
      · cases h
        exact ⟨rfl, rfl⟩
      · cases h
        exact ⟨rfl, rfl⟩

theorem advance_counts {p next : Progress} {c : Command} (h : plan.advance p c = .ok next) :
    next.steps = p.steps ∧ next.sends = p.sends + c.value?.toList.length := by
  cases c with
  | send value line | delay ms line | loop count endAt line =>
    cases h
    exact ⟨rfl, rfl⟩
  | loopEnd startAt line => exact closeLoop_counts h
  | unknown name => cases h

/-- A command that leads nowhere is an END that closes no loop or another loop than the innermost
one, or an unknown command. -/
theorem advance_error {p : Progress} {c : Command} {fault : Fault}
    (h : plan.advance p c = .error fault) :
    fault.kind = .unbalanced ∧ fault.place? = some (p.index, plan.total) := by
  cases c with
  | send value line | delay ms line | loop count endAt line => cases h
  | loopEnd startAt line =>
    rw [advance, closeLoop] at h
    split at h
    · cases h
      exact ⟨rfl, rfl⟩
    · split at h
      · cases h
        exact ⟨rfl, rfl⟩
      · split at h <;> cases h
  | unknown name =>
    cases h
    exact ⟨rfl, rfl⟩

/-- Commands that are done one after another, and where they lead. -/
inductive Walk (plan : Plan) : Progress → List Entry → Progress → Prop where
  | stay (p : Progress) : plan.Walk p [] p
  | step {p next last : Progress} {c : Command} {entries : List Entry} :
      plan.commands[p.index]? = some c →
        plan.advance { p with steps := p.steps + 1 } c = .ok next →
          plan.Walk next entries last → plan.Walk p ((p.index, c) :: entries) last

theorem Walk.trans {p middle last : Progress} {es fs : List Entry} (h : plan.Walk p es middle)
    (h' : plan.Walk middle fs last) : plan.Walk p (es ++ fs) last := by
  induction h with
  | stay p => exact h'
  | step hc hnext _ ih => exact .step hc hnext (ih h')

theorem Walk.split {p last : Progress} {es fs : List Entry} (h : plan.Walk p (es ++ fs) last) :
    ∃ middle, plan.Walk p es middle ∧ plan.Walk middle fs last := by
  induction es generalizing p with
  | nil => exact ⟨p, .stay p, h⟩
  | cons entry es ih =>
    cases h with
    | step hc hnext hrest =>
      obtain ⟨middle, hfirst, hlater⟩ := ih hrest
      exact ⟨middle, .step hc hnext hfirst, hlater⟩

theorem Walk.counts {p last : Progress} {entries : List Entry} (h : plan.Walk p entries last) :
    last.steps = p.steps + entries.length ∧
      last.sends = p.sends + (sentBy entries).length := by
  induction h with
  | stay p => exact ⟨rfl, rfl⟩
  | @step p next last c entries hc hnext _ ih =>
    obtain ⟨hsteps, hsends⟩ := advance_counts hnext
    simp only at hsteps hsends
    have hsent : (sentBy ((p.index, c) :: entries)).length =
        c.value?.toList.length + (sentBy entries).length := by
      rw [← List.singleton_append, sentBy_append, List.length_append]
      cases hvalue : c.value? <;> simp [sentBy, hvalue]
    rw [ih.1, ih.2, hsteps, hsends, hsent, List.length_cons]
    exact ⟨by omega, by omega⟩

theorem Walk.take {p last : Progress} {entries : List Entry} (h : plan.Walk p entries last)
    {n : Nat} (hn : n < entries.length) :
    ∃ q c, plan.Walk p (entries.take n) q ∧ entries[n]? = some (q.index, c) ∧
      plan.commands[q.index]? = some c := by
  rw [← List.take_append_drop n entries] at h
  obtain ⟨q, hfirst, hlater⟩ := h.split
  rw [List.drop_eq_getElem_cons hn] at hlater
  generalize hentry : entries[n] = entry at hlater
  cases hlater with
  | @step _ _ _ c _ hc _ _ =>
    exact ⟨q, c, hfirst, by rw [List.getElem?_eq_getElem hn, hentry], hc⟩

/-! ## One command -/

theorem walk_plain {p : Progress} {i : Nat} {c : Command} (hindex : p.index = i)
    (hc : plan.commands[i]? = some c) (hplain : c.isPlain = true) :
    plan.Walk p [(i, c)] (past p [(i, c)] (i + 1) p.loops) := by
  subst hindex
  cases c with
  | send value line | delay ms line => exact .step hc rfl (.stay _)
  | loop count endAt line | loopEnd startAt line | unknown name => cases hplain

theorem walk_loop {p : Progress} {i : Nat} {count endAt : Int} {line : Nat} (hindex : p.index = i)
    (hc : plan.commands[i]? = some (.loop count endAt line)) :
    plan.Walk p [(i, .loop count endAt line)]
      (past p [(i, .loop count endAt line)] (i + 1) (⟨i, count, 0⟩ :: p.loops)) := by
  subst hindex
  exact .step hc rfl (.stay _)

/-- An END goes back behind its LOOP when the body still has to run. -/
theorem walk_again {p : Progress} {i start line : Nat} {count completed : Int}
    {outer : List OpenLoop} (hindex : p.index = i)
    (hc : plan.commands[i]? = some (.loopEnd start line))
    (hloops : p.loops = ⟨start, count, completed⟩ :: outer) (hagain : completed + 1 < count) :
    plan.Walk p [(i, .loopEnd start line)] (past p [(i, .loopEnd start line)] (start + 1)
      (⟨start, count, completed + 1⟩ :: outer)) := by
  subst hindex
  refine .step hc ?_ (.stay _)
  simp only [advance, closeLoop, hloops, ne_eq, not_true_eq_false, if_false, hagain, if_true]
  rfl

/-- An END goes on behind itself when the body ran often enough. -/
theorem walk_leave {p : Progress} {i start line : Nat} {count completed : Int}
    {outer : List OpenLoop} (hindex : p.index = i)
    (hc : plan.commands[i]? = some (.loopEnd start line))
    (hloops : p.loops = ⟨start, count, completed⟩ :: outer) (hleave : ¬ completed + 1 < count) :
    plan.Walk p [(i, .loopEnd start line)] (past p [(i, .loopEnd start line)] (i + 1) outer) := by
  subst hindex
  refine .step hc ?_ (.stay _)
  simp only [advance, closeLoop, hloops, ne_eq, not_true_eq_false, if_false, hleave]
  rfl

/-! ## A piece of the commands -/

/-- A piece of the commands, from a place to the place behind it, in which every LOOP has its END,
and what is run of it. -/
inductive Span (plan : Plan) : Nat → Nat → List Entry → Prop where
  | nil (a : Nat) : plan.Span a a []
  | plain {a i : Nat} {entries : List Entry} {c : Command} : plan.Span a i entries →
      plan.commands[i]? = some c → c.isPlain = true → plan.Span a (i + 1) (entries ++ [(i, c)])
  | loop {a s i line endLine : Nat} {count endAt : Int} {entries body : List Entry} :
      plan.Span a s entries → plan.commands[s]? = some (.loop count endAt line) →
        plan.Span (s + 1) i body → plan.commands[i]? = some (.loopEnd s endLine) →
          plan.Span a (i + 1) (entries ++ (s, .loop count endAt line) ::
            (List.replicate (max 1 count.toNat) (body ++ [(i, .loopEnd s endLine)])).flatten)

theorem Span.trans {a b c : Nat} {es fs : List Entry} (h : plan.Span a b es)
    (h' : plan.Span b c fs) : plan.Span a c (es ++ fs) := by
  induction h' with
  | nil b => rwa [List.append_nil]
  | plain _ hc hplain ih =>
    rw [← List.append_assoc]
    exact .plain (ih h) hc hplain
  | loop _ hc hbody hend ih _ =>
    rw [← List.append_assoc]
    exact .loop (ih h) hc hbody hend

theorem Span.le {a b : Nat} {es : List Entry} (h : plan.Span a b es) : a ≤ b := by
  induction h with
  | nil a => exact Nat.le_refl a
  | plain _ _ _ ih => omega
  | loop _ _ _ _ ih ihb => omega

theorem Span.mem {a b : Nat} {es : List Entry} (h : plan.Span a b es) {i : Nat} {c : Command}
    (hmem : (i, c) ∈ es) : i < b ∧ plan.commands[i]? = some c := by
  induction h with
  | nil a => cases hmem
  | @plain a j entries d _ hd _ ih =>
    rcases List.mem_append.1 hmem with hfirst | hlast
    · exact ⟨Nat.lt_succ_of_lt (ih hfirst).1, (ih hfirst).2⟩
    · cases List.mem_singleton.1 hlast
      exact ⟨Nat.lt_succ_self _, hd⟩
  | @loop a s j line endLine count endAt entries body _ hs hbody hend ih ihb =>
    have hsj := hbody.le
    rcases List.mem_append.1 hmem with hfirst | hnode
    · exact ⟨by have := (ih hfirst).1; omega, (ih hfirst).2⟩
    rcases List.mem_cons.1 hnode with hloop | hrounds
    · cases hloop
      exact ⟨by omega, hs⟩
    obtain ⟨round, hround, hin⟩ := List.mem_flatten.1 hrounds
    rw [(List.mem_replicate.1 hround).2] at hin
    rcases List.mem_append.1 hin with hinner | hlast
    · exact ⟨Nat.lt_succ_of_lt (ihb hinner).1, (ihb hinner).2⟩
    · cases List.mem_singleton.1 hlast
      exact ⟨Nat.lt_succ_self _, hend⟩

/-- The rounds that a LOOP still has to make after `k` of them, when one round of its body is
known. -/
theorem walk_rounds {body : List Entry} {start i endLine : Nat} {count : Int}
    (outer : List OpenLoop) (hend : plan.commands[i]? = some (.loopEnd start endLine))
    (hbody : ∀ p : Progress, p.index = start + 1 → plan.Walk p body (past p body i p.loops))
    (m k : Nat) (hcount : k + (m + 1) = max 1 count.toNat) {p : Progress}
    (hindex : p.index = start + 1) (hloops : p.loops = ⟨start, count, k⟩ :: outer) :
    plan.Walk p (List.replicate (m + 1) (body ++ [(i, .loopEnd start endLine)])).flatten
      (past p (List.replicate (m + 1) (body ++ [(i, .loopEnd start endLine)])).flatten (i + 1)
        outer) := by
  -- on the rounds behind the present one; what is left and what is completed make the count
  induction m generalizing p k with
  | zero =>
    have hround := (hbody p hindex).trans (walk_leave (i := i) rfl hend hloops (by omega))
    rw [past_past] at hround
    rwa [List.replicate_one, List.flatten_singleton]
  | succ m ih =>
    have hround := (hbody p hindex).trans (walk_again (i := i) rfl hend hloops (by omega))
    rw [past_past] at hround
    have hothers := ih (k + 1) (by omega) (p := past p (body ++ [(i, .loopEnd start endLine)])
      (start + 1) (⟨start, count, k + 1⟩ :: outer)) rfl rfl
    have hall := hround.trans hothers
    rwa [past_past, ← List.flatten_cons, ← List.replicate_succ] at hall

/-- A piece is walked to the place behind it, and the loops that are open stay. -/
theorem Span.walk {a b : Nat} {es : List Entry} (h : plan.Span a b es) {p : Progress}
    (hindex : p.index = a) : plan.Walk p es (past p es b p.loops) := by
  induction h generalizing p with
  | nil a =>
    subst hindex
    exact .stay p
  | @plain a i entries c _ hc hplain ih =>
    have hlast := walk_plain (p := past p entries i p.loops) (i := i) rfl hc hplain
    rw [past_past] at hlast
    exact (ih hindex).trans hlast
  | @loop a s i line endLine count endAt entries body _ hs _ hend ih ihb =>
    -- to the LOOP, into its body, and as many rounds as its count says
    have hopen := walk_loop (p := past p entries s p.loops) (i := s) rfl hs
    rw [past_past] at hopen
    obtain ⟨m, hm⟩ : ∃ m, 0 + (m + 1) = max 1 count.toNat := ⟨max 1 count.toNat - 1, by omega⟩
    have hrounds := walk_rounds p.loops hend (fun q hq => ihb hq) m 0 hm
      (p := past p (entries ++ [(s, .loop count endAt line)]) (s + 1) (⟨s, count, 0⟩ :: p.loops))
      rfl rfl
    have hall := ((ih hindex).trans hopen).trans hrounds
    rw [past_past, List.append_assoc, List.singleton_append] at hall
    rwa [← hm, Nat.zero_add]

/-! ## A tree -/

def Holds (plan : Plan) (start : Nat) (b : Block) : Prop :=
  ∀ k c, (b.commands start)[k]? = some c → plan.commands[start + k]? = some c

theorem Holds.tail {start : Nat} {b rest : Block} {c : Command} (h : plan.Holds start b)
    (hb : b.commands start = c :: rest.commands (start + 1)) : plan.Holds (start + 1) rest := by
  intro k d hk
  have hplace := h (k + 1) d (by rw [hb, List.getElem?_cons_succ, hk])
  rwa [show start + (k + 1) = start + 1 + k by omega] at hplace

theorem Holds.body {start : Nat} {count : Int} {line : Nat} {body : Block} {endLine : Nat}
    {rest : Block} (h : plan.Holds start (.loop count line body endLine rest)) :
    plan.Holds (start + 1) body := by
  intro k c hk
  have hplace := h (k + 1) c (Block.getElem?_body hk)
  rwa [show start + (k + 1) = start + 1 + k by omega] at hplace

theorem Holds.rest {start : Nat} {count : Int} {line : Nat} {body : Block} {endLine : Nat}
    {rest : Block} (h : plan.Holds start (.loop count line body endLine rest)) :
    plan.Holds (start + body.size + 2) rest := by
  intro k c hk
  have hplace := h (body.size + 2 + k) c (Block.getElem?_rest hk)
  rwa [show start + (body.size + 2 + k) = start + body.size + 2 + k by omega] at hplace

theorem holds_layout {b : Block} (hcommands : plan.commands = (b.commands 0).toArray) :
    plan.Holds 0 b := by
  intro k c hk
  rw [hcommands, List.getElem?_toArray, Nat.zero_add, hk]

/-- The layout of a tree is a piece of which the unfolding of the tree is run. -/
theorem Holds.span {b : Block} {start : Nat} (hcode : plan.Holds start b)
    (hrange : ∀ c ∈ b.commands start, c.InRange) :
    plan.Span start (start + b.size) (b.unfolding start) := by
  induction b generalizing start with
  | done => exact .nil start
  | send value line rest ih | delay ms line rest ih =>
    have hfirst := Span.plain (.nil start) (hcode 0 _ rfl) rfl
    have hrest := ih (hcode.tail rfl) fun c hc => hrange c (List.mem_cons_of_mem _ hc)
    have hall := hfirst.trans hrest
    rwa [show start + 1 + rest.size = start + (rest.size + 1) by omega] at hall
  | loop count line body endLine rest ihb ihr =>
    have hcount : max 1 count.toNat = count.toNat := by
      have hlow := (hrange _ List.mem_cons_self).1
      omega
    have hbody := ihb hcode.body fun c hc =>
      hrange c (List.mem_cons_of_mem _ (List.mem_append_left _ hc))
    have hend := hcode (body.size + 1) _ Block.getElem?_end
    rw [show start + (body.size + 1) = start + 1 + body.size by omega] at hend
    have hnode := Span.loop (.nil start) (hcode 0 _ rfl) hbody hend
    have hrest := ihr hcode.rest fun c hc => hrange c
      (List.mem_cons_of_mem _ (List.mem_append_right _ (List.mem_cons_of_mem _ hc)))
    rw [show start + 1 + body.size = start + body.size + 1 by omega, hcount,
      List.nil_append] at hnode
    rw [Block.size,
      show start + (body.size + rest.size + 2) = start + body.size + 2 + rest.size by omega]
    exact hnode.trans hrest

end Plan

end SerialConsole.Script
