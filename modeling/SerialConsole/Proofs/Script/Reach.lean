import SerialConsole.Script.Run

set_option autoImplicit false

/-!
# What an execution can come to

`Plan.Reached` has every turn that some answers lead to, one after another, whether they come from
surroundings or not. A turn that asks is at a command, and what it asks for and how it waits go with
that command (`Serves`).
-/
namespace SerialConsole.Script

/-- The sorts of answer that a request can get. Every request can fail. -/
def Request.Takes : Request → Answer → Prop
  | _, .failed _ => True
  | .poll, .stop _ => True
  | .poll, .done => False
  | _, .stop _ => False
  | _, .done => True

/-- What a stage asks for at a command. -/
def Stage.Serves (c : Command) : Stage → Request → Prop
  | .beforeStep, .poll => True
  | .announcing, .announce _ _ => True
  | .sending, .send value => ∃ line, c = .send value line
  | .sleeping, .sleep _ => ∃ ms line, c = .delay ms line
  | .slicing _, .poll => ∃ ms line, c = .delay ms line
  | .slept _ _, .sleep _ => ∃ ms line, c = .delay ms line
  | .afterDelay, .poll => ∃ ms line, c = .delay ms line
  | _, _ => False

namespace Plan

variable {plan : Plan}

/-- What an execution can come to, whatever its requests are answered. -/
inductive Reached (plan : Plan) : Turn → Prop where
  | start : plan.Reached plan.start
  | resume {request : Request} {stage : Stage} {p : Progress} (answer : Answer) :
      plan.Reached (.asks request stage p) → request.Takes answer →
        plan.Reached (plan.resume stage p answer)

/-- A turn that asks serves the command that it is at. -/
def Serves (plan : Plan) : Turn → Prop
  | .asks request stage p => ∃ c, plan.commands[p.index]? = some c ∧ stage.Serves c request
  | .finished _ => True

theorem serves_conclude (p : Progress) : plan.Serves (plan.conclude p) := by
  rw [conclude]
  split <;> exact trivial

theorem serves_startStep {p : Progress} (hindex : p.index < plan.total) :
    plan.Serves (plan.startStep p) := by
  rw [startStep]
  split
  · exact trivial
  · have hsize : p.index < plan.commands.size := hindex
    exact ⟨plan.commands[p.index], Array.getElem?_eq_getElem hsize, trivial⟩

theorem serves_proceed (p : Progress) : plan.Serves (plan.proceed p) := by
  rw [proceed]
  split
  · exact serves_conclude p
  case isFalse hlt =>
    have hindex : p.index < plan.commands.size := Nat.lt_of_not_le hlt
    split
    · exact ⟨plan.commands[p.index], Array.getElem?_eq_getElem hindex, trivial⟩
    · exact serves_startStep hindex

theorem serves_slice {p : Progress} {ms : Int} {line : Nat}
    (hc : plan.commands[p.index]? = some (.delay ms line)) (remaining : Double) :
    plan.Serves (slice remaining p) := by
  rw [slice]
  cases remaining.isPositive with
  | true => exact ⟨_, hc, ms, line, rfl⟩
  | false => exact ⟨_, hc, ms, line, rfl⟩

theorem serves_pause {p : Progress} {ms : Int} {line : Nat}
    (hc : plan.commands[p.index]? = some (.delay ms line)) (whole : Double) :
    plan.Serves (plan.pause whole p) := by
  rw [pause]
  cases whole.isFinite with
  | true =>
    cases plan.stoppable with
    | true => exact serves_slice hc whole
    | false => exact ⟨_, hc, ms, line, rfl⟩
  | false => exact trivial

theorem serves_perform (p : Progress) : plan.Serves (plan.perform p) := by
  rw [perform]
  cases hc : plan.commands[p.index]? with
  | none => exact serves_conclude p
  | some c =>
    cases c with
    | send value line => exact ⟨_, hc, line, rfl⟩
    | delay ms line =>
      simp only
      generalize seconds ms = whole
      exact serves_pause hc whole
    | loop count endAt line => exact serves_proceed _
    | loopEnd startAt line =>
      simp only
      split
      · exact serves_proceed _
      · exact trivial
    | unknown name => exact trivial

theorem serves_resume {request : Request} {stage : Stage} {p : Progress}
    (h : plan.Serves (.asks request stage p)) (answer : Answer) :
    plan.Serves (plan.resume stage p answer) := by
  obtain ⟨c, hc, hserves⟩ := h
  have hindex : p.index < plan.total := (Array.getElem?_eq_some_iff.1 hc).1
  cases answer with
  | failed fault => exact trivial
  | done =>
    cases stage with
    | announcing => exact serves_perform p
    | slept remaining taken =>
      cases request with
      | sleep seconds =>
        obtain ⟨ms, line, rfl⟩ := hserves
        exact serves_slice hc _
      | _ => exact hserves.elim
    | _ => exact serves_proceed _
  | stop requested =>
    cases requested with
    | true =>
      cases stage with
      | slicing remaining =>
        cases request with
        | poll => exact ⟨c, hc, hserves⟩
        | _ => exact hserves.elim
      | _ => exact trivial
    | false =>
      cases stage with
      | slicing remaining =>
        cases request with
        | poll => exact ⟨c, hc, hserves⟩
        | _ => exact hserves.elim
      | afterDelay => exact serves_proceed _
      | _ => exact serves_startStep hindex

theorem Reached.serves {turn : Turn} (h : plan.Reached turn) : plan.Serves turn := by
  induction h with
  | start =>
    rw [Plan.start]
    split
    · exact trivial
    · exact serves_proceed {}
  | resume answer _ _ ih => exact serves_resume ih answer

theorem answer_takes (world : Surroundings) (trace : Trace) (request : Request) :
    request.Takes (world.answer trace request).1 := by
  cases request with
  | poll => exact trivial
  | announce position total =>
    rw [Surroundings.answer]
    split <;> exact trivial
  | send value =>
    rw [Surroundings.answer]
    split <;> exact trivial
  | sleep seconds =>
    rw [Surroundings.answer]
    split <;> exact trivial

/-- A property of turns that every answer keeps holds of the outcome of a run. -/
theorem drive_induct {P : Turn → Prop} {world : Surroundings}
    (keep : ∀ request stage p trace, P (.asks request stage p) →
      P (plan.resume stage p (world.answer trace request).1))
    {fuel : Nat} {turn : Turn} {trace : Trace} {outcome : Except Fault Tally} (hstart : P turn)
    (h : (plan.drive world fuel turn trace).1 = some outcome) : P (.finished outcome) := by
  induction fuel generalizing turn trace with
  | zero =>
    cases turn with
    | finished result =>
      cases Option.some.inj h
      exact hstart
    | asks request stage p => cases h
  | succ fuel ih =>
    cases turn with
    | finished result =>
      cases Option.some.inj h
      exact hstart
    | asks request stage p => exact ih (keep request stage p trace hstart) h

end Plan

end SerialConsole.Script
