import SerialConsole.Proofs.Script.Pairing

set_option autoImplicit false

/-!
# The unfolding of a tree

`Block.unfolding` writes a LOOP node as its LOOP, then as many copies of its body as its count says,
each with the END behind it. `count_unfolding` says how often a command occurs there: the product of
the counts of the LOOPs around it.
-/
namespace SerialConsole.Script

/-- A command and its place. -/
abbrev Entry := Nat × Command

namespace Block

/-- The commands of a tree in the order in which they are run. -/
def unfolding (start : Nat) : Block → List Entry
  | done => []
  | send value line rest => (start, .send value line) :: rest.unfolding (start + 1)
  | delay ms line rest => (start, .delay ms line) :: rest.unfolding (start + 1)
  | loop count line body endLine rest =>
    (start, .loop count ((start + body.size + 1 : Nat) : Int) line) ::
      ((List.replicate count.toNat (body.unfolding (start + 1) ++
        [(start + body.size + 1, .loopEnd start endLine)])).flatten ++
          rest.unfolding (start + body.size + 2))

/-- The number of steps of a tree: one for each SEND and DELAY, and for a LOOP one, and one more
than its body for each time that it runs. -/
def steps : Block → Nat
  | done => 0
  | send _ _ rest => 1 + rest.steps
  | delay _ _ rest => 1 + rest.steps
  | loop count _ body _ rest => 1 + count.toNat * (body.steps + 1) + rest.steps

end Block

theorem length_flatten_replicate {α : Type} (n : Nat) (l : List α) :
    (List.replicate n l).flatten.length = n * l.length := by
  induction n with
  | zero => rw [Nat.zero_mul]; rfl
  | succ n ih =>
    rw [List.replicate_succ, List.flatten_cons, List.length_append, ih, Nat.succ_mul, Nat.add_comm]

theorem count_flatten_replicate (n : Nat) (l : List Entry) (e : Entry) :
    (List.replicate n l).flatten.count e = n * l.count e := by
  induction n with
  | zero => rw [Nat.zero_mul]; rfl
  | succ n ih =>
    rw [List.replicate_succ, List.flatten_cons, List.count_append, ih, Nat.succ_mul, Nat.add_comm]

namespace Block

theorem length_unfolding (b : Block) (start : Nat) : (b.unfolding start).length = b.steps := by
  induction b generalizing start with
  | done => rfl
  | send value line rest ih | delay ms line rest ih =>
    rw [unfolding, steps, List.length_cons, ih, Nat.add_comm]
  | loop count line body endLine rest ihb ihr =>
    rw [unfolding, steps, List.length_cons, List.length_append, length_flatten_replicate,
      List.length_append, ihb, ihr]
    simp only [List.length_singleton]
    omega

theorem unfolding_ne_nil {b : Block} (hsome : b.size ≠ 0) (start : Nat) :
    b.unfolding start ≠ [] := by
  cases b with
  | done => exact absurd rfl hsome
  | send _ _ _ | delay _ _ _ | loop _ _ _ _ _ => exact List.cons_ne_nil _ _

/-- The unfolding runs commands of the tree only. -/
theorem mem_unfolding {b : Block} {start i : Nat} {c : Command} (h : (i, c) ∈ b.unfolding start) :
    ∃ k, i = start + k ∧ (b.commands start)[k]? = some c := by
  induction b generalizing start with
  | done => cases h
  | send value line rest ih | delay ms line rest ih =>
    rcases List.mem_cons.1 h with hfirst | hrest
    · cases hfirst
      exact ⟨0, rfl, rfl⟩
    · obtain ⟨k, rfl, hk⟩ := ih hrest
      refine ⟨k + 1, by omega, ?_⟩
      rw [commands, List.getElem?_cons_succ, hk]
  | loop count line body endLine rest ihb ihr =>
    rcases List.mem_cons.1 h with hfirst | htail
    · cases hfirst
      exact ⟨0, rfl, rfl⟩
    · rcases List.mem_append.1 htail with hloop | hrest
      · obtain ⟨l, hl, hmem⟩ := List.mem_flatten.1 hloop
        rw [(List.mem_replicate.1 hl).2] at hmem
        rcases List.mem_append.1 hmem with hbody | hend
        · obtain ⟨k, rfl, hk⟩ := ihb hbody
          exact ⟨k + 1, by omega, getElem?_body hk⟩
        · cases List.mem_singleton.1 hend
          exact ⟨body.size + 1, by omega, getElem?_end⟩
      · obtain ⟨k, rfl, hk⟩ := ihr hrest
        exact ⟨body.size + 2 + k, by omega, getElem?_rest hk⟩

theorem place_of_mem_unfolding {b : Block} {start i : Nat} {c : Command}
    (h : (i, c) ∈ b.unfolding start) : start ≤ i ∧ i < start + b.size := by
  obtain ⟨k, rfl, hk⟩ := mem_unfolding h
  have hlt : k < (b.commands start).length := (List.getElem?_eq_some_iff.1 hk).1
  rw [commands_length] at hlt
  omega

theorem count_unfolding_of_outside {b : Block} {start i : Nat} (c : Command)
    (h : i < start ∨ start + b.size ≤ i) : (b.unfolding start).count (i, c) = 0 := by
  refine List.count_eq_zero.2 fun hmem => ?_
  have hplace := place_of_mem_unfolding hmem
  omega

end Block

/-! ## How often a command runs -/

/-- How often the command at place `i` runs for each time that a command at place `s` runs, as far
as that one tells: a LOOP around it repeats it. -/
def Command.repeats (s i : Nat) : Command → Nat
  | .loop count endAt _ => if s < i ∧ (i : Int) < endAt then count.toNat else 1
  | _ => 1

/-- The product of the counts of the LOOPs around place `i`, for a row of commands of which the
first one has place `s`. -/
def timesRun (i s : Nat) : List Command → Nat
  | [] => 1
  | c :: rest => c.repeats s i * timesRun i (s + 1) rest

theorem timesRun_append (i s : Nat) (xs ys : List Command) :
    timesRun i s (xs ++ ys) = timesRun i s xs * timesRun i (s + xs.length) ys := by
  induction xs generalizing s with
  | nil => simp [timesRun]
  | cons c rest ih =>
    rw [List.cons_append, timesRun, timesRun, ih, Nat.mul_assoc, List.length_cons, Nat.add_assoc,
      Nat.add_comm 1]

namespace Block

theorem timesRun_send (i start : Nat) (value : String) (line : Nat) (rest : Block) :
    timesRun i start ((send value line rest).commands start) =
      timesRun i (start + 1) (rest.commands (start + 1)) :=
  Nat.one_mul _

theorem timesRun_delay (i start : Nat) (ms : Int) (line : Nat) (rest : Block) :
    timesRun i start ((delay ms line rest).commands start) =
      timesRun i (start + 1) (rest.commands (start + 1)) :=
  Nat.one_mul _

theorem timesRun_loop (i start : Nat) (count : Int) (line : Nat) (body : Block) (endLine : Nat)
    (rest : Block) :
    timesRun i start ((loop count line body endLine rest).commands start) =
      (if start < i ∧ i < start + body.size + 1 then count.toNat else 1) *
        (timesRun i (start + 1) (body.commands (start + 1)) *
          timesRun i (start + body.size + 2) (rest.commands (start + body.size + 2))) := by
  have hend : ∀ s, (Command.loopEnd (start : Int) endLine).repeats s i = 1 := fun _ => rfl
  rw [commands, timesRun, timesRun_append, timesRun, Command.repeats, hend, Nat.one_mul,
    commands_length, show start + 1 + body.size + 1 = start + body.size + 2 by omega]
  simp only [Int.ofNat_lt]

/-- No LOOP of a tree is around a place that is not in the tree. -/
theorem timesRun_of_outside {b : Block} {start i : Nat} (h : i ≤ start ∨ start + b.size ≤ i) :
    timesRun i start (b.commands start) = 1 := by
  induction b generalizing start with
  | done => rfl
  | send value line rest ih | delay ms line rest ih =>
    rw [size] at h
    simp only [timesRun_send, timesRun_delay]
    exact ih (by omega)
  | loop count line body endLine rest ihb ihr =>
    rw [size] at h
    have hout : ¬ (start < i ∧ i < start + body.size + 1) := by omega
    rw [timesRun_loop, if_neg hout, ihb (by omega), ihr (by omega)]

/-- How often something that is not the END of a LOOP node occurs in the unfolding of the node. -/
theorem count_unfolding_loop {start i : Nat} {count : Int} {line endLine : Nat} {body rest : Block}
    {c : Command} (hend : i ≠ start + body.size + 1) :
    ((loop count line body endLine rest).unfolding start).count (i, c) =
      count.toNat * (body.unfolding (start + 1)).count (i, c) +
        (rest.unfolding (start + body.size + 2)).count (i, c) +
          if start = i ∧ .loop count ((start + body.size + 1 : Nat) : Int) line = c then 1
          else 0 := by
  have hlast : (i, c) ∉ [((start + body.size + 1, .loopEnd start endLine) : Entry)] :=
    fun h => hend (congrArg Prod.fst (List.mem_singleton.1 h))
  rw [unfolding, List.count_cons, List.count_append, count_flatten_replicate, List.count_append,
    List.count_eq_zero.2 hlast, Nat.add_zero]
  simp only [beq_iff_eq, Prod.mk.injEq]

/-- A SEND, DELAY or LOOP occurs in the unfolding as often as the LOOPs around it say. -/
theorem count_unfolding {b : Block} {start k : Nat} {c : Command}
    (hc : (b.commands start)[k]? = some c) (hend : ∀ startAt line, c ≠ .loopEnd startAt line) :
    (b.unfolding start).count (start + k, c) = timesRun (start + k) start (b.commands start) := by
  induction b generalizing start k with
  | done => cases hc
  | send value line rest ih | delay ms line rest ih =>
    simp only [timesRun_send, timesRun_delay, unfolding]
    cases k with
    | zero =>
      cases hc
      rw [Nat.add_zero, List.count_cons_self, count_unfolding_of_outside _ (by omega),
        timesRun_of_outside (by omega)]
    | succ k =>
      rw [commands, List.getElem?_cons_succ] at hc
      rw [List.count_cons_of_ne (by simp), show start + (k + 1) = start + 1 + k by omega, ih hc]
  | loop count line body endLine rest ihb ihr =>
    rw [timesRun_loop]
    rcases getElem?_loop hc with ⟨rfl, rfl⟩ | ⟨j, rfl, hj, hbody⟩ | ⟨_, hlast⟩ | ⟨j, rfl, hrest⟩
    · have hout : ¬ (start < start + 0 ∧ start + 0 < start + body.size + 1) := by omega
      rw [count_unfolding_loop (by omega), if_neg hout, if_pos ⟨rfl, rfl⟩,
        count_unfolding_of_outside (b := body) _ (by omega),
        count_unfolding_of_outside (b := rest) _ (by omega),
        timesRun_of_outside (b := body) (by omega), timesRun_of_outside (b := rest) (by omega),
        Nat.mul_zero]
    · have hin : start < start + (j + 1) ∧ start + (j + 1) < start + body.size + 1 := by omega
      rw [count_unfolding_loop (by omega), if_pos hin, if_neg (by omega), Nat.add_zero,
        count_unfolding_of_outside (b := rest) _ (by omega),
        timesRun_of_outside (b := rest) (by omega), Nat.add_zero, Nat.mul_one,
        show start + (j + 1) = start + 1 + j by omega, ihb hbody]
    · exact absurd hlast (hend _ _)
    · have hout : ¬ (start < start + (body.size + 2 + j) ∧
          start + (body.size + 2 + j) < start + body.size + 1) := by omega
      rw [count_unfolding_loop (by omega), if_neg hout, if_neg (by omega), Nat.add_zero,
        count_unfolding_of_outside (b := body) _ (by omega),
        timesRun_of_outside (b := body) (by omega), Nat.mul_zero, Nat.zero_add, Nat.one_mul,
        Nat.one_mul, show start + (body.size + 2 + j) = start + body.size + 2 + j by omega,
        ihr hrest]

end Block

end SerialConsole.Script
