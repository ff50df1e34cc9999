import SerialConsole.Proofs.Script.Performing

set_option autoImplicit false

/-!
# Every execution ends

Whatever its requests are answered, an execution whose delays are in range ends (`run_ends`). A step
makes no more requests than the widest command, and there are no more steps than the limit says.
-/
namespace SerialConsole.Script

namespace Plan

variable {plan : Plan}

/-- Whatever it is answered, a turn makes at most so many requests before it is finished. -/
inductive Lasts (plan : Plan) : Nat → Turn → Prop where
  | finished (n : Nat) (outcome : Except Fault Tally) : plan.Lasts n (.finished outcome)
  | asks {n : Nat} {request : Request} {stage : Stage} {p : Progress} :
      (∀ answer, request.Takes answer → plan.Lasts n (plan.resume stage p answer)) →
        plan.Lasts (n + 1) (.asks request stage p)

theorem Lasts.mono {n m : Nat} {turn : Turn} (h : plan.Lasts n turn) (hle : n ≤ m) :
    plan.Lasts m turn := by
  induction h generalizing m with
  | finished n outcome => exact .finished m outcome
  | asks _ ih =>
    cases m with
    | zero => omega
    | succ m => exact .asks fun answer htakes => ih answer htakes (by omega)

theorem Lasts.drive {n fuel : Nat} {turn : Turn} (h : plan.Lasts n turn) (hle : n ≤ fuel)
    (world : Surroundings) (trace : Trace) :
    ∃ outcome, (plan.drive world fuel turn trace).1 = some outcome := by
  induction h generalizing fuel trace with
  | finished n outcome =>
    refine ⟨outcome, ?_⟩
    cases fuel <;> rfl
  | asks _ ih =>
    cases fuel with
    | zero => omega
    | succ fuel => exact ih _ (answer_takes world trace _) (by omega) _

theorem lasts_conclude (n : Nat) (p : Progress) : plan.Lasts n (plan.conclude p) := by
  rw [conclude]
  split <;> exact .finished n _

theorem lasts_poll {n : Nat} {stage : Stage} {p : Progress}
    (hstop : plan.Lasts n (plan.resume stage p (.stop true)))
    (hgo : plan.Lasts n (plan.resume stage p (.stop false))) :
    plan.Lasts (n + 1) (.asks .poll stage p) := by
  refine .asks fun answer htakes => ?_
  cases answer with
  | done => exact htakes.elim
  | failed fault => exact .finished n _
  | stop requested =>
    cases requested with
    | true => exact hstop
    | false => exact hgo

theorem lasts_other {n : Nat} {request : Request} {stage : Stage} {p : Progress}
    (hrequest : request ≠ .poll) (hdone : plan.Lasts n (plan.resume stage p .done)) :
    plan.Lasts (n + 1) (.asks request stage p) := by
  refine .asks fun answer htakes => ?_
  cases answer with
  | done => exact hdone
  | failed fault => exact .finished n _
  | stop requested =>
    cases request with
    | poll => exact absurd rfl hrequest
    | _ => exact htakes.elim

theorem lasts_afterDelay {n : Nat} {p : Progress}
    (h : plan.Lasts n (plan.proceed { p with index := p.index + 1 })) :
    plan.Lasts (n + 1) (.asks .poll .afterDelay p) :=
  lasts_poll (.finished n _) h

theorem lasts_slice {n m : Nat} {remaining : Double} (hsliced : Sliced m remaining) {p : Progress}
    (h : plan.Lasts n (plan.proceed { p with index := p.index + 1 })) :
    plan.Lasts (2 * m + 1 + n) (slice remaining p) := by
  induction hsliced with
  | @spent remaining hspent =>
    rw [slice]
    simp only [hspent, Bool.false_eq_true, if_false]
    exact (lasts_afterDelay h).mono (by omega)
  | @slice m remaining hpositive _ ih =>
    rw [slice]
    simp only [hpositive, if_true]
    have hsleep : plan.Lasts (2 * m + 1 + n + 1)
        (plan.resume (.slicing remaining) p (.stop false)) := lasts_other (by simp) ih
    have hstop : plan.Lasts (2 * m + 1 + n + 1)
        (plan.resume (.slicing remaining) p (.stop true)) := (lasts_afterDelay h).mono (by omega)
    exact (lasts_poll hstop hsleep).mono (by omega)

/-- What a command asks for after it was announced. -/
theorem lasts_perform {n : Nat} {p : Progress}
    (hdelays : ∀ ms line, .delay ms line ∈ plan.commands.toList → 0 ≤ ms ∧ ms ≤ 60000)
    (h : ∀ q : Progress, q.steps = p.steps → plan.Lasts n (plan.proceed q)) :
    plan.Lasts (plan.widest - 2 + n) (plan.perform p) := by
  have hwide := plan.widest_bounds.1
  rw [perform]
  cases hc : plan.commands[p.index]? with
  | none => exact lasts_conclude _ p
  | some c =>
    rw [← Array.getElem?_toList] at hc
    have hmem : c ∈ plan.commands.toList := List.mem_of_getElem? hc
    have hwidest : requestsOf c ≤ plan.widest := plan.widest_bounds.2 c hmem
    cases c with
    | send value line =>
      have hsend : plan.Lasts (n + 1) (.asks (.send value) .sending p) :=
        lasts_other (by simp) (h _ rfl)
      exact hsend.mono (by omega)
    | delay ms line =>
      obtain ⟨hlow, hhigh⟩ := hdelays ms line hmem
      rw [requestsOf] at hwidest
      simp only
      rw [pause, if_pos (isFinite_seconds hlow hhigh)]
      cases plan.stoppable with
      | true =>
        simp only [if_true]
        obtain ⟨m, hm, hsliced⟩ := sliced_seconds hlow hhigh
        exact (lasts_slice hsliced (h _ rfl)).mono (by omega)
      | false =>
        simp only [Bool.false_eq_true, if_false]
        generalize seconds ms = whole
        have hsleep : plan.Lasts (n + 1) (.asks (.sleep whole) .sleeping p) :=
          lasts_other (by simp) (h _ rfl)
        exact hsleep.mono (by omega)
    | loop count endAt line =>
      have hbody := h { p with index := p.index + 1, loops := ⟨p.index, count, 0⟩ :: p.loops } rfl
      exact hbody.mono (by omega)
    | loopEnd startAt line =>
      simp only
      split
      case h_1 next hclose => exact (h _ ((closeLoop_counts hclose).1)).mono (by omega)
      case h_2 => exact .finished _ _
    | unknown name => exact .finished _ _

/-- With `r` steps still allowed, an execution makes `r` times as many requests as its widest
command and one more look at the stop request. -/
theorem lasts_proceed
    (hdelays : ∀ ms line, .delay ms line ∈ plan.commands.toList → 0 ≤ ms ∧ ms ≤ 60000) (r : Nat)
    {p : Progress} (hr : plan.maxSteps ≤ ((p.steps + r : Nat) : Int)) :
    plan.Lasts (r * plan.widest + 1) (plan.proceed p) := by
  have hwide := plan.widest_bounds.1
  induction r generalizing p with
  | zero =>
    have hstart : plan.Lasts 0 (plan.startStep p) := by
      rw [startStep, if_pos (by omega)]
      exact .finished 0 _
    rw [Nat.zero_mul, proceed]
    split
    · exact lasts_conclude _ p
    · split
      · exact lasts_poll (.finished 0 _) hstart
      · exact hstart.mono (by omega)
  | succ r ih =>
    have hstart : plan.Lasts ((r + 1) * plan.widest) (plan.startStep p) := by
      rw [startStep]
      split
      · exact .finished _ _
      · have hperform := @lasts_perform plan (r * plan.widest + 1) { p with steps := p.steps + 1 }
          hdelays fun q hq => ih (by rw [hq]; simp only; omega)
        refine (lasts_other (by simp) hperform).mono ?_
        rw [Nat.succ_mul]
        omega
    rw [proceed]
    split
    · exact lasts_conclude _ p
    · split
      · exact lasts_poll (.finished _ _) hstart
      · exact hstart.mono (by omega)

/-- An execution whose delays are in range ends, whatever its surroundings do. -/
theorem run_ends
    (hdelays : ∀ ms line, .delay ms line ∈ plan.commands.toList → 0 ≤ ms ∧ ms ≤ 60000)
    (world : Surroundings) : ∃ outcome, (plan.run world).1 = some outcome := by
  have hwide := plan.widest_bounds.1
  have hstart : plan.Lasts (plan.maxSteps.toNat * plan.widest + 1) plan.start := by
    rw [start]
    split
    · exact .finished _ _
    · exact lasts_proceed hdelays plan.maxSteps.toNat (by simp only; omega)
  have hbound : plan.maxSteps.toNat * plan.widest + 1 ≤ plan.requestBound := by
    have hbound : plan.requestBound = (plan.maxSteps.toNat + 2) * plan.widest := rfl
    rw [hbound, Nat.add_mul]
    omega
  exact hstart.drive hbound world {}

end Plan

end SerialConsole.Script
