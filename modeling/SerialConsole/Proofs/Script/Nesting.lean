import Mathlib.Data.List.Basic
import Mathlib.Tactic.ByContra
import SerialConsole.Proofs.Script.Pairing
import SerialConsole.Proofs.Script.Reach
import SerialConsole.Proofs.Script.Slicing

set_option autoImplicit false

/-!
# Open loops and the LOOPs around a command

Whatever its requests are answered, an execution of a parsed script keeps its stack of open loops
equal to the LOOPs around the next command (`Nested`): a SEND or DELAY has the same LOOPs around it
as the place behind it, a LOOP adds itself, and the innermost LOOP around an END is the one that the
END names. So no END is astray and no loop is left open. What a callback raises passes through, also
when it calls itself unbalanced; a send's fault is wrapped.
-/
namespace SerialConsole.Script

/-- The place and the count of a LOOP at place `start` whose END is not before place `index`. -/
def Command.around (start index : Nat) : Command → Option (Nat × Int)
  | .loop count endAt _ => if (index : Int) ≤ endAt then some (start, count) else none
  | _ => none

/-- The LOOPs among the first `n` commands whose END is not before place `index`. -/
def loopsBefore (commands : List Command) (n index : Nat) : List (Nat × Int) :=
  (List.range n).filterMap fun start => commands[start]?.bind (Command.around start index)

/-- The LOOPs around a place, the outermost first: they stand before it and their END does not. -/
def enclosing (commands : List Command) (index : Nat) : List (Nat × Int) :=
  loopsBefore commands index index

theorem loopsBefore_succ (commands : List Command) (n index : Nat) :
    loopsBefore commands (n + 1) index = loopsBefore commands n index ++
      (commands[n]?.bind (Command.around n index)).toList := by
  rw [loopsBefore, List.range_succ, List.filterMap_append, loopsBefore]
  congr 1

theorem loopsBefore_congr {commands : List Command} {n i j : Nat}
    (h : ∀ (start : Nat) (count endAt : Int) (line : Nat), start < n →
      commands[start]? = some (.loop count endAt line) → ((i : Int) ≤ endAt ↔ (j : Int) ≤ endAt)) :
    loopsBefore commands n i = loopsBefore commands n j := by
  refine List.filterMap_congr fun start hstart => ?_
  cases hc : commands[start]? with
  | none => rfl
  | some c =>
    cases c with
    | loop count endAt line =>
      simp only [Option.bind_some, Command.around,
        h start count endAt line (List.mem_range.1 hstart) hc]
    | _ => rfl

/-- Commands that are no LOOP with an END at or behind a place add nothing around it. -/
theorem loopsBefore_extend {commands : List Command} {n m index : Nat} (hle : n ≤ m)
    (h : ∀ (start : Nat) (count endAt : Int) (line : Nat), n ≤ start → start < m →
      commands[start]? = some (.loop count endAt line) → endAt < index) :
    loopsBefore commands m index = loopsBefore commands n index := by
  induction hle with
  | refl => rfl
  | @step m hle ih =>
    have hnone : commands[m]?.bind (Command.around m index) = none := by
      cases hc : commands[m]? with
      | none => rfl
      | some c =>
        cases c with
        | loop count endAt line =>
          have hbefore := h m count endAt line hle (Nat.lt_succ_self m) hc
          simp only [Option.bind_some, Command.around, if_neg (Int.not_le.2 hbefore)]
        | _ => rfl
    rw [loopsBefore_succ, hnone, Option.toList_none, List.append_nil]
    exact ih fun start count endAt line hn hlt => h start count endAt line hn (by omega)

namespace Block

variable {b : Block} {i : Nat}

theorem end_of_loop {count endAt : Int} {line : Nat}
    (h : (b.commands 0)[i]? = some (.loop count endAt line)) :
    ∃ j : Nat, endAt = j ∧ i < j ∧ j < b.size ∧
      ∃ endLine, (b.commands 0)[j]? = some (.loopEnd i endLine) := by
  obtain ⟨j, hj, hlt, endLine, hend⟩ := b.loop_closed 0 i count endAt line h
  rw [Nat.zero_add] at hj hend
  have hsize : j < (b.commands 0).length := (List.getElem?_eq_some_iff.1 hend).1
  rw [commands_length] at hsize
  exact ⟨j, hj, hlt, hsize, endLine, hend⟩

theorem loop_of_end {startAt : Int} {line : Nat}
    (h : (b.commands 0)[i]? = some (.loopEnd startAt line)) :
    ∃ s : Nat, startAt = s ∧ s < i ∧
      ∃ count loopLine, (b.commands 0)[s]? = some (.loop count i loopLine) := by
  obtain ⟨s, hs, count, loopLine, hloop⟩ := b.end_opened 0 i startAt line h
  rw [Nat.zero_add] at hs hloop
  obtain ⟨j, hj, hlt, _⟩ := end_of_loop hloop
  exact ⟨s, hs, by omega, count, loopLine, hloop⟩

/-- A LOOP whose END is at place `i` is found there. -/
theorem loop_ne_end {start : Nat} {count endAt : Int} {line : Nat} {c : Command}
    (h : (b.commands 0)[start]? = some (.loop count endAt line)) (hc : (b.commands 0)[i]? = some c)
    (hend : ∀ startAt line, c ≠ .loopEnd startAt line) : endAt ≠ i := by
  rintro rfl
  obtain ⟨j, hj, _, _, endLine, hlast⟩ := end_of_loop h
  cases Int.ofNat_inj.1 hj
  rw [hc] at hlast
  exact hend _ _ (Option.some.inj hlast)

/-- A command that is no LOOP and no END has the same LOOPs around it as the place behind it. -/
theorem enclosing_plain {c : Command} (hc : (b.commands 0)[i]? = some c)
    (hloop : ∀ count endAt line, c ≠ .loop count endAt line)
    (hend : ∀ startAt line, c ≠ .loopEnd startAt line) :
    enclosing (b.commands 0) (i + 1) = enclosing (b.commands 0) i := by
  have hself : (b.commands 0)[i]?.bind (Command.around i (i + 1)) = none := by
    rw [hc]
    cases c with
    | loop count endAt line => exact absurd rfl (hloop count endAt line)
    | _ => rfl
  rw [enclosing, loopsBefore_succ, hself, Option.toList_none, List.append_nil]
  refine loopsBefore_congr fun start count endAt line _ h => ?_
  have hne := loop_ne_end h hc hend
  omega

theorem enclosing_loop {count endAt : Int} {line : Nat}
    (hc : (b.commands 0)[i]? = some (.loop count endAt line)) :
    enclosing (b.commands 0) (i + 1) = enclosing (b.commands 0) i ++ [(i, count)] := by
  obtain ⟨j, hj, hlt, _⟩ := end_of_loop hc
  have hself : (b.commands 0)[i]?.bind (Command.around i (i + 1)) = some (i, count) := by
    rw [hc]
    exact if_pos (by omega)
  rw [enclosing, loopsBefore_succ, hself]
  congr 1
  refine loopsBefore_congr fun start count' endAt' line' _ h => ?_
  have hne := loop_ne_end h hc (by simp)
  omega

/-- The innermost LOOP around an END is the one that it closes. -/
theorem enclosing_end {s : Nat} {count : Int} {line endLine : Nat}
    (hs : (b.commands 0)[s]? = some (.loop count i line))
    (hc : (b.commands 0)[i]? = some (.loopEnd s endLine)) :
    enclosing (b.commands 0) i = enclosing (b.commands 0) s ++ [(s, count)] ∧
      enclosing (b.commands 0) (s + 1) = enclosing (b.commands 0) s ++ [(s, count)] ∧
      enclosing (b.commands 0) (i + 1) = enclosing (b.commands 0) s := by
  obtain ⟨j, hj, hlt, _⟩ := end_of_loop hs
  have hinner : ∀ (start : Nat) (count' endAt : Int) (line' : Nat), s < start →
      (b.commands 0)[start]? = some (.loop count' endAt line') → start < i → endAt < i := by
    intro start count' endAt line' hstart h hi
    have hapart := b.nested_or_apart 0 s start count count' i endAt line line' hstart hs h
    omega
  have houter : ∀ (start : Nat) (count' endAt : Int) (line' : Nat), start < s →
      (b.commands 0)[start]? = some (.loop count' endAt line') → endAt < s ∨ (i : Int) < endAt := by
    intro start count' endAt line' hstart h
    have hapart := b.nested_or_apart 0 start s count' count endAt i line' line hstart h hs
    omega
  have hloop := enclosing_loop hs
  refine ⟨?_, hloop, ?_⟩
  · rw [← hloop, enclosing, enclosing,
      loopsBefore_extend (n := s + 1) (by omega) fun start count' endAt line' hn hi h =>
        hinner start count' endAt line' hn h hi]
    refine loopsBefore_congr fun start count' endAt line' hstart h => ?_
    rcases Nat.lt_succ_iff_lt_or_eq.1 hstart with hbefore | rfl
    · have hside := houter start count' endAt line' hbefore h
      omega
    · rw [hs] at h
      cases h
      omega
  · rw [enclosing, enclosing, loopsBefore_extend (n := s) (by omega)]
    · refine loopsBefore_congr fun start count' endAt line' hstart h => ?_
      have hside := houter start count' endAt line' hstart h
      omega
    · intro start count' endAt line' hn hi h
      rcases Nat.eq_or_lt_of_le hn with rfl | hbehind
      · rw [hs] at h
        cases h
        omega
      · rcases Nat.lt_succ_iff_lt_or_eq.1 hi with hbefore | rfl
        · have hside := hinner start count' endAt line' hbehind h hbefore
          omega
        · rw [hc] at h
          cases h

/-- No LOOP is around the place behind the last command. -/
theorem enclosing_size (b : Block) : enclosing (b.commands 0) b.size = [] := by
  rw [enclosing, loopsBefore_extend (n := 0) (Nat.zero_le _)]
  · rfl
  · intro start count endAt line _ _ h
    obtain ⟨j, hj, _, hsize, _⟩ := end_of_loop h
    omega

end Block

/-! ## What every answer keeps -/

/-- The open loops are the LOOPs around the next command, and none of them has run to its end. -/
structure Nested (commands : List Command) (p : Progress) : Prop where
  loops : p.loops.reverse.map (fun l => (l.start, l.target)) = enclosing commands p.index
  completed : ∀ l ∈ p.loops, 0 ≤ l.completed ∧ l.completed < l.target

/-- An execution that asks has the loops around its place open; one that ends by itself does not
end unbalanced. -/
def Turn.Tidy (commands : List Command) : Turn → Prop
  | .asks _ _ p => p.index < commands.length ∧ Nested commands p
  | .finished outcome => ∀ fault, outcome = .error fault → fault.kind ≠ .unbalanced

theorem nested_plain {b : Block} {p : Progress} {c : Command} (hp : Nested (b.commands 0) p)
    (hc : (b.commands 0)[p.index]? = some c)
    (hloop : ∀ count endAt line, c ≠ .loop count endAt line)
    (hend : ∀ startAt line, c ≠ .loopEnd startAt line) (steps sends : Nat) :
    Nested (b.commands 0) ⟨p.index + 1, p.loops, steps, sends⟩ :=
  ⟨hp.loops.trans (Block.enclosing_plain hc hloop hend).symm, hp.completed⟩

theorem nested_loop {b : Block} {p : Progress} {count endAt : Int} {line : Nat}
    (hp : Nested (b.commands 0) p)
    (hc : (b.commands 0)[p.index]? = some (.loop count endAt line)) (hcount : 1 ≤ count) :
    Nested (b.commands 0)
      { p with index := p.index + 1, loops := ⟨p.index, count, 0⟩ :: p.loops } where
  loops := by
    rw [Block.enclosing_loop hc, ← hp.loops, List.reverse_cons, List.map_append]
    rfl
  completed := by
    intro l hl
    rcases List.mem_cons.1 hl with rfl | hmem
    · exact ⟨Int.le_refl 0, Int.lt_of_lt_of_le Int.zero_lt_one hcount⟩
    · exact hp.completed l hmem

/-- An END finds the loop that it names on the top of the stack. -/
theorem nested_end {plan : Plan} {b : Block} {p : Progress} {startAt : Int} {line : Nat}
    (hp : Nested (b.commands 0) p)
    (hc : (b.commands 0)[p.index]? = some (.loopEnd startAt line)) :
    ∃ next, plan.closeLoop p startAt = .ok next ∧ Nested (b.commands 0) next ∧
      next.index ≤ p.index + 1 := by
  obtain ⟨s, rfl, hlt, count, loopLine, hs⟩ := Block.loop_of_end hc
  obtain ⟨hhere, hagain, hbehind⟩ := Block.enclosing_end hs hc
  have hloops := hp.loops
  rw [hhere] at hloops
  cases hstack : p.loops with
  | nil => simp [hstack] at hloops
  | cons top outer =>
    obtain ⟨start, target, completed⟩ := top
    rw [hstack, List.reverse_cons, List.map_append, List.map_singleton] at hloops
    obtain ⟨houter, htop⟩ := List.append_inj' hloops rfl
    cases htop
    have hcompleted := hp.completed ⟨start, target, completed⟩
      (by rw [hstack]; exact List.mem_cons_self)
    have hrest : ∀ l ∈ outer, 0 ≤ l.completed ∧ l.completed < l.target := fun l hl =>
      hp.completed l (by rw [hstack]; exact List.mem_cons_of_mem _ hl)
    simp only [Plan.closeLoop, hstack, ne_eq, not_true_eq_false, if_false]
    split
    case isTrue hmore =>
      refine ⟨_, rfl, ⟨?_, ?_⟩, Nat.le_succ_of_le hlt⟩
      · rw [hagain, List.reverse_cons, List.map_append, houter]
        rfl
      · intro l hl
        rcases List.mem_cons.1 hl with rfl | hmem
        · exact ⟨Int.add_nonneg hcompleted.1 Int.one_nonneg, hmore⟩
        · exact hrest l hmem
    case isFalse => exact ⟨_, rfl, ⟨houter.trans hbehind.symm, hrest⟩, Nat.le_refl _⟩

namespace Plan

variable {plan : Plan} {b : Block}

theorem tidy_conclude {p : Progress} (hp : Nested (b.commands 0) p) (hindex : p.index = b.size) :
    (plan.conclude p).Tidy (b.commands 0) := by
  have hloops := hp.loops
  rw [hindex, b.enclosing_size, List.map_eq_nil_iff, List.reverse_eq_nil_iff] at hloops
  rw [conclude, hloops]
  intro fault hfault
  cases hfault

theorem tidy_startStep {p : Progress} (hp : Nested (b.commands 0) p) (hindex : p.index < b.size) :
    (plan.startStep p).Tidy (b.commands 0) := by
  rw [startStep]
  split
  · rintro fault ⟨⟩
    simp [Fault.kind]
  · refine ⟨?_, hp.loops, hp.completed⟩
    rwa [Block.commands_length]

theorem tidy_proceed (hplan : plan.commands = (b.commands 0).toArray) {p : Progress}
    (hp : Nested (b.commands 0) p) (hindex : p.index ≤ b.size) :
    (plan.proceed p).Tidy (b.commands 0) := by
  have htotal : plan.total = b.size := by
    rw [total, hplan, List.size_toArray, Block.commands_length]
  rw [proceed, htotal]
  split
  case isTrue hend => exact tidy_conclude hp (Nat.le_antisymm hindex hend)
  case isFalse hlt =>
    have hlt : p.index < b.size := Nat.lt_of_not_le hlt
    split
    · refine ⟨?_, hp⟩
      rwa [Block.commands_length]
    · exact tidy_startStep hp hlt

theorem tidy_start (hplan : plan.commands = (b.commands 0).toArray) (hsome : b.size ≠ 0) :
    plan.start.Tidy (b.commands 0) := by
  have htotal : plan.total = b.size := by
    rw [total, hplan, List.size_toArray, Block.commands_length]
  rw [start, if_neg (by omega)]
  exact tidy_proceed hplan ⟨rfl, fun l hl => by cases hl⟩ (Nat.zero_le _)

theorem tidy_slice {p : Progress} (hp : Nested (b.commands 0) p)
    (hindex : p.index < (b.commands 0).length) (remaining : Double) :
    (slice remaining p).Tidy (b.commands 0) := by
  rw [slice]
  cases remaining.isPositive with
  | true => exact ⟨hindex, hp⟩
  | false => exact ⟨hindex, hp⟩

theorem tidy_perform (hplan : plan.commands = (b.commands 0).toArray)
    (hrange : ∀ c ∈ b.commands 0, c.InRange) {p : Progress} (hp : Nested (b.commands 0) p)
    (hindex : p.index < (b.commands 0).length) : (plan.perform p).Tidy (b.commands 0) := by
  have hc : (b.commands 0)[p.index]? = some (b.commands 0)[p.index] :=
    List.getElem?_eq_getElem hindex
  have hin : ((b.commands 0)[p.index]).InRange := hrange _ (List.getElem_mem hindex)
  have hsize : p.index < b.size := by rwa [Block.commands_length] at hindex
  rw [perform, hplan, List.getElem?_toArray, hc]
  generalize (b.commands 0)[p.index] = c at hc hin
  cases c with
  | send value line => exact ⟨hindex, hp⟩
  | delay ms line =>
    simp only
    rw [pause, if_pos (isFinite_seconds hin.1 hin.2)]
    cases plan.stoppable with
    | true =>
      simp only [if_true]
      generalize seconds ms = remaining
      exact tidy_slice hp hindex remaining
    | false => exact ⟨hindex, hp⟩
  | loop count endAt line => exact tidy_proceed hplan (nested_loop hp hc hin.1) hsize
  | loopEnd startAt line =>
    obtain ⟨next, hclose, hnext, hle⟩ := @nested_end plan b p startAt line hp hc
    simp only [hclose]
    exact tidy_proceed hplan hnext (by omega)
  | unknown name => exact absurd hin id

/-- Only a fault that a callback itself calls unbalanced comes out unbalanced. -/
theorem tidy_resume (hplan : plan.commands = (b.commands 0).toArray)
    (hrange : ∀ c ∈ b.commands 0, c.InRange) {request : Request} {stage : Stage} {p : Progress}
    (h : (Turn.asks request stage p).Tidy (b.commands 0))
    (hserves : plan.Serves (.asks request stage p)) {answer : Answer}
    (htakes : request.Takes answer)
    (hown : ∀ fault, answer = .failed fault → (∀ value, request ≠ .send value) →
      fault.kind ≠ .unbalanced) :
    (plan.resume stage p answer).Tidy (b.commands 0) := by
  obtain ⟨hindex, hp⟩ := h
  obtain ⟨c, hc, hserves⟩ := hserves
  rw [hplan, List.getElem?_toArray] at hc
  have hsize : p.index < b.size := by rwa [Block.commands_length] at hindex
  have hbehind : ∀ steps sends, (∃ value line, c = .send value line) ∨
      (∃ ms line, c = .delay ms line) →
      (plan.proceed ⟨p.index + 1, p.loops, steps, sends⟩).Tidy (b.commands 0) := by
    rintro steps sends (⟨value, line, rfl⟩ | ⟨ms, line, rfl⟩)
    · exact tidy_proceed hplan (nested_plain hp hc (by simp) (by simp) steps sends) hsize
    · exact tidy_proceed hplan (nested_plain hp hc (by simp) (by simp) steps sends) hsize
  cases answer with
  | failed fault =>
    rintro _ ⟨⟩
    cases stage with
    | sending =>
      rw [faultOf]
      split
      · simp [Fault.kind]
      case isFalse hforeign =>
        intro hkind
        rw [Fault.isOrdinary, hkind] at hforeign
        exact hforeign rfl
    | _ =>
      cases request with
      | send value => exact hserves.elim
      | _ => exact hown fault rfl (by simp)
  | done =>
    cases request with
    | poll => exact htakes.elim
    | announce position total =>
      cases stage with
      | announcing => exact tidy_perform hplan hrange hp hindex
      | _ => exact hserves.elim
    | send value =>
      cases stage with
      | sending => exact hbehind _ _ (Or.inl ⟨value, hserves⟩)
      | _ => exact hserves.elim
    | sleep seconds =>
      cases stage with
      | sleeping => exact hbehind _ _ (Or.inr hserves)
      | slept remaining taken => exact tidy_slice hp hindex _
      | _ => exact hserves.elim
  | stop requested =>
    cases request with
    | poll =>
      cases requested with
      | true =>
        cases stage with
        | slicing remaining => exact ⟨hindex, hp⟩
        | _ =>
          rintro _ ⟨⟩
          simp [Fault.kind]
      | false =>
        cases stage with
        | slicing remaining => exact ⟨hindex, hp⟩
        | afterDelay => exact hbehind _ _ (Or.inr hserves)
        | _ => exact tidy_startStep hp hsize
    | _ => exact htakes.elim

theorem Reached.tidy (hplan : plan.commands = (b.commands 0).toArray)
    (hrange : ∀ c ∈ b.commands 0, c.InRange) (hsome : b.size ≠ 0) {turn : Turn}
    (h : plan.Reached turn) {request : Request} {stage : Stage} {p : Progress}
    (hturn : turn = .asks request stage p) : turn.Tidy (b.commands 0) := by
  induction h generalizing request stage p with
  | start => exact tidy_start hplan hsome
  | resume answer h htakes ih =>
    refine tidy_resume hplan hrange (ih rfl) h.serves htakes ?_
    rintro fault rfl
    cases hturn

/-- An execution ends unbalanced only with the fault of a callback that is not the send. -/
theorem resume_unbalanced (hplan : plan.commands = (b.commands 0).toArray)
    (hrange : ∀ c ∈ b.commands 0, c.InRange) (hsome : b.size ≠ 0) {request : Request}
    {stage : Stage} {p : Progress} {answer : Answer} {fault : Fault}
    (h : plan.Reached (.asks request stage p)) (htakes : request.Takes answer)
    (hresume : plan.resume stage p answer = .finished (.error fault))
    (hkind : fault.kind = .unbalanced) :
    answer = .failed fault ∧ ∀ value, request ≠ .send value := by
  have hasks := h.tidy hplan hrange hsome rfl
  by_contra hother
  have htidy := tidy_resume hplan hrange hasks h.serves htakes ?_
  · rw [hresume] at htidy
    exact htidy fault rfl hkind
  · rintro fault' rfl hsend hkind'
    apply hother
    obtain ⟨c, _, hserves⟩ := h.serves
    have hstage : plan.faultOf stage p fault' = fault' := by
      cases stage with
      | sending =>
        cases request with
        | send value => exact absurd rfl (hsend value)
        | _ => exact hserves.elim
      | _ => rfl
    rw [resume, hstage] at hresume
    cases hresume
    exact ⟨rfl, hsend⟩

end Plan

theorem Surroundings.answer_failed {world : Surroundings} {trace : Trace} {request : Request}
    {fault : Fault} (h : (world.answer trace request).1 = .failed fault) :
    (∃ counts, world.announce counts = some fault) ∨
      (∃ value, request = .send value ∧ world.send trace.counts value = some fault) ∨
      ∃ counts seconds, world.sleep counts seconds = some fault := by
  cases request with
  | poll => cases h
  | announce position total =>
    rw [answer] at h
    split at h
    case h_1 cause hcause =>
      cases h
      exact Or.inl ⟨_, hcause⟩
    case h_2 => cases h
  | send value =>
    rw [answer] at h
    split at h
    case h_1 cause hcause =>
      cases h
      exact Or.inr (Or.inl ⟨value, rfl, hcause⟩)
    case h_2 => cases h
  | sleep seconds =>
    rw [answer] at h
    split at h
    case h_1 cause hcause =>
      cases h
      exact Or.inr (Or.inr ⟨_, seconds, hcause⟩)
    case h_2 => cases h

/-- Whatever an execution of an accepted script is answered, it is at a command, its open loops are
the LOOPs around that command, each with its count and with fewer rounds done, and it never ends
unbalanced: an unbalanced fault is one that a callback other than the send failed with. -/
theorem parse_open_loops {script : List Char} {commands : List Command}
    (hparse : parse script = .ok commands) (hsome : commands ≠ []) {plan : Plan}
    (hplan : plan.commands = commands.toArray) :
    (∀ request stage p, plan.Reached (.asks request stage p) →
      p.index < commands.length ∧
        p.loops.reverse.map (fun l => (l.start, l.target)) = enclosing commands p.index ∧
        ∀ l ∈ p.loops, 0 ≤ l.completed ∧ l.completed ≤ l.target - 1) ∧
      (∀ fault, plan.start = .finished (.error fault) → fault.kind ≠ .unbalanced) ∧
      (∀ request stage p answer fault, plan.Reached (.asks request stage p) →
        request.Takes answer → plan.resume stage p answer = .finished (.error fault) →
          fault.kind = .unbalanced → answer = .failed fault ∧ ∀ value, request ≠ .send value) ∧
      ∀ world fault, (plan.run world).1 = some (.error fault) → fault.kind = .unbalanced →
        ∃ counts, world.announce counts = some fault ∨
          ∃ seconds, world.sleep counts seconds = some fault := by
  obtain ⟨b, rfl⟩ := parse_eq_commands hparse
  have hrange : ∀ c ∈ b.commands 0, c.InRange := (readUpTo_parse hparse).in_range
  have hsize : b.size ≠ 0 := by
    rw [← Block.commands_length b 0]
    exact fun hzero => hsome (List.eq_nil_of_length_eq_zero hzero)
  have hresume := @Plan.resume_unbalanced plan b hplan hrange hsize
  refine ⟨?_, ?_, fun _ _ _ _ _ => hresume, ?_⟩
  · intro request stage p h
    obtain ⟨hindex, hloops, hcompleted⟩ := h.tidy hplan hrange hsize rfl
    exact ⟨hindex, hloops, fun l hl =>
      ⟨(hcompleted l hl).1, Int.le_sub_one_of_lt (hcompleted l hl).2⟩⟩
  · intro fault hstart
    have htidy := Plan.tidy_start hplan hsize
    rw [hstart] at htidy
    exact htidy fault rfl
  · intro world fault hrun
    refine (Plan.drive_induct (P := fun turn => plan.Reached turn ∧ ∀ fault,
      turn = .finished (.error fault) → fault.kind = .unbalanced →
        ∃ counts, world.announce counts = some fault ∨
          ∃ seconds, world.sleep counts seconds = some fault) ?_ ⟨.start, ?_⟩ hrun).2 fault rfl
    · rintro request stage p trace ⟨h, -⟩
      have htakes := Plan.answer_takes world trace request
      refine ⟨.resume _ h htakes, fun cause hend hkind => ?_⟩
      obtain ⟨hfailed, hsend⟩ := hresume h htakes hend hkind
      rcases Surroundings.answer_failed hfailed with
        ⟨counts, hannounce⟩ | ⟨value, hvalue, _⟩ | ⟨counts, seconds, hsleep⟩
      · exact ⟨counts, Or.inl hannounce⟩
      · exact absurd hvalue (hsend value)
      · exact ⟨counts, Or.inr ⟨seconds, hsleep⟩⟩
    · intro cause hstart hkind
      have htidy := Plan.tidy_start hplan hsize
      rw [hstart] at htidy
      exact absurd hkind (htidy cause rfl)

/-- At the END of a loop in a loop, before its first round is done. -/
theorem parse_open_loops_nested :
    parse "LOOP 2\nLOOP 3\nEND\nSEND \"a\"\nEND".toList =
        .ok [.loop 2 4 1, .loop 3 2 2, .loopEnd 1 3, .send "a" 4, .loopEnd 0 5] ∧
      (Plan.mk #[.loop 2 4 1, .loop 3 2 2, .loopEnd 1 3, .send "a" 4, .loopEnd 0 5] true 9).Reached
        (.asks .poll .beforeStep ⟨2, [⟨1, 3, 0⟩, ⟨0, 2, 0⟩], 2, 0⟩) ∧
      enclosing [.loop 2 4 1, .loop 3 2 2, .loopEnd 1 3, .send "a" 4, .loopEnd 0 5] 2 =
        [(0, 2), (1, 3)] := by
  have hparse : parse "LOOP 2\nLOOP 3\nEND\nSEND \"a\"\nEND".toList =
      .ok [.loop 2 4 1, .loop 3 2 2, .loopEnd 1 3, .send "a" 4, .loopEnd 0 5] := by rfl
  obtain ⟨plan, hplan⟩ : ∃ plan : Plan, plan =
      ⟨#[.loop 2 4 1, .loop 3 2 2, .loopEnd 1 3, .send "a" 4, .loopEnd 0 5], true, 9⟩ := ⟨_, rfl⟩
  rw [← hplan]
  have hfirst : plan.Reached (.asks .poll .beforeStep {}) := by
    have h := @Plan.Reached.start plan
    rw [hplan] at h ⊢
    exact h
  have hreached : plan.Reached (.asks .poll .beforeStep ⟨2, [⟨1, 3, 0⟩, ⟨0, 2, 0⟩], 2, 0⟩) := by
    rw [hplan] at hfirst ⊢
    exact .resume .done (.resume (.stop false) (.resume .done (.resume (.stop false) hfirst trivial)
      trivial) trivial) trivial
  obtain ⟨hall, _⟩ := @parse_open_loops _ _ hparse (by simp) plan (by rw [hplan])
  exact ⟨hparse, hreached, (hall _ _ _ hreached).2.1.symm⟩

end SerialConsole.Script
