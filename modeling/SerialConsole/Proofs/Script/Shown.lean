import SerialConsole.Proofs.Script.Stopping

set_option autoImplicit false

/-!
# The place that is shown

Who is told of the progress shows the command that was announced last. Where an execution sends or
sleeps, that is the command that it is at (`At.awaits`). An execution finds that it was stopped only
where its look at the stop request says so (`resume_stopped`).
-/
namespace SerialConsole.Script

def Request.shows (shown : Nat × Nat) : Request → Nat × Nat
  | .announce position total => (position, total)
  | _ => shown

/-- What is shown after some exchanges. -/
def shownBy (exchanges : List Exchange) : Nat × Nat :=
  exchanges.foldl (fun shown exchange => exchange.1.shows shown) (0, 0)

theorem shownBy_snoc (exchanges : List Exchange) (request : Request) (answer : Answer) :
    shownBy (exchanges ++ [(request, answer)]) = request.shows (shownBy exchanges) := by
  rw [shownBy, List.foldl_append]
  rfl

theorem foldl_shows_silent {exchanges : List Exchange} (shown : Nat × Nat)
    (h : ∀ n m answer, (.announce n m, answer) ∉ exchanges) :
    exchanges.foldl (fun shown exchange => exchange.1.shows shown) shown = shown := by
  induction exchanges with
  | nil => rfl
  | cons exchange rest ih =>
    obtain ⟨request, answer⟩ := exchange
    have hrest := ih fun n m answer hmem => h n m answer (List.mem_cons_of_mem _ hmem)
    rw [List.foldl_cons]
    cases request with
    | announce n m => exact absurd List.mem_cons_self (h n m answer)
    | _ => exact hrest

theorem LastAnnounced.shownBy_eq {position total : Nat} {exchanges : List Exchange}
    (h : LastAnnounced position total exchanges) : shownBy exchanges = (position, total) := by
  obtain ⟨earlier, later, rfl, hlater⟩ := h
  rw [shownBy, List.foldl_append, List.foldl_cons]
  exact foldl_shows_silent _ hlater

/-- A request that an execution may wait for. The others are answered at once. -/
def Request.isAwaited : Request → Bool
  | .send _ | .sleep _ => true
  | .poll | .announce _ _ => false

inductive Command.Awaits : Command → Request → Prop where
  | send (value : String) (line : Nat) : Awaits (.send value line) (.send value)
  | delay (ms : Int) (line : Nat) (seconds : Double) : Awaits (.delay ms line) (.sleep seconds)

namespace Plan

variable {plan : Plan} {position : Nat × Nat} {request : Request} {stage : Stage} {p : Progress}

/-- A turn that an execution has come to while a position is shown. -/
def At (plan : Plan) (position : Nat × Nat) (turn : Turn) : Prop :=
  plan.Reached turn ∧ ∃ past, plan.Recounts past turn ∧ shownBy past = position

theorem start_asks (hsome : plan.total ≠ 0) (hstoppable : plan.stoppable = true) :
    plan.start = .asks .poll .beforeStep {} := by
  have hmore : ¬ plan.total ≤ ({} : Progress).index := fun hle => hsome (Nat.le_zero.1 hle)
  rw [start, if_neg hsome, proceed, if_neg hmore, if_pos hstoppable]

theorem at_start : plan.At (0, 0) plan.start :=
  ⟨.start, [], recounts_start, rfl⟩

theorem At.resume (h : plan.At position (.asks request stage p)) {answer : Answer}
    (htakes : request.Takes answer) :
    plan.At (request.shows position) (plan.resume stage p answer) := by
  obtain ⟨hreached, past, hpast, rfl⟩ := h
  exact ⟨.resume answer hreached htakes, _, recounts_resume hpast hreached.serves htakes,
    shownBy_snoc past request answer⟩

/-- Where an execution waits, the command that it is at is shown. -/
theorem At.awaits (h : plan.At position (.asks request stage p))
    (hawaited : request.isAwaited = true) :
    position = (p.index + 1, plan.total) ∧
      ∃ c, plan.commands[p.index]? = some c ∧ c.Awaits request := by
  obtain ⟨hreached, past, ⟨_, hlast⟩, rfl⟩ := h
  obtain ⟨c, hc, hserves⟩ := hreached.serves
  suffices hstage : stage.isAnnounced = true ∧ c.Awaits request from
    ⟨(hlast hstage.1).shownBy_eq, c, hc, hstage.2⟩
  cases request with
  | poll | announce => cases hawaited
  | send value =>
    cases stage with
    | sending =>
      obtain ⟨line, rfl⟩ := hserves
      exact ⟨rfl, .send value line⟩
    | _ => exact hserves.elim
  | sleep seconds =>
    cases stage with
    | sleeping | slept =>
      obtain ⟨ms, line, rfl⟩ := hserves
      exact ⟨rfl, .delay ms line seconds⟩
    | _ => exact hserves.elim

/-! ## Finding that it was stopped -/

def Unstopped : Turn → Prop
  | .finished (.error (.stopped _ _ _)) => False
  | _ => True

theorem unstopped_conclude : Unstopped (plan.conclude p) := by
  rw [conclude]
  split <;> exact trivial

theorem unstopped_startStep : Unstopped (plan.startStep p) := by
  rw [startStep]
  split <;> exact trivial

theorem unstopped_proceed : Unstopped (plan.proceed p) := by
  rw [proceed]
  split
  · exact unstopped_conclude
  · split
    · exact trivial
    · exact unstopped_startStep

theorem unstopped_slice (remaining : Double) : Unstopped (slice remaining p) := by
  rw [slice]
  split <;> exact trivial

theorem unstopped_pause (whole : Double) : Unstopped (plan.pause whole p) := by
  rw [pause]
  split
  · split
    · exact unstopped_slice whole
    · exact trivial
  · exact trivial

theorem unstopped_perform : Unstopped (plan.perform p) := by
  rw [perform]
  split
  case h_1 => exact unstopped_conclude
  case h_2 => exact trivial
  case h_3 ms line _ =>
    generalize seconds ms = whole
    exact unstopped_pause whole
  case h_4 => exact unstopped_proceed
  case h_5 startAt line _ =>
    split
    case h_1 => exact unstopped_proceed
    case h_2 fault hclose =>
      rw [closeLoop] at hclose
      split at hclose
      case h_1 =>
        cases hclose
        exact trivial
      case h_2 =>
        split at hclose
        · cases hclose
          exact trivial
        · split at hclose <;> cases hclose
  case h_6 => exact trivial

/-- An execution finds that it was stopped only by a look, or because the fault was handed to it. -/
theorem resume_stopped {answer : Answer} {index total : Nat} {inDelay : Bool}
    (h : plan.resume stage p answer = .finished (.error (.stopped index total inDelay))) :
    answer = .stop true ∨
      stage ≠ .sending ∧ answer = .failed (.stopped index total inDelay) := by
  have hnot : ¬ Unstopped (plan.resume stage p answer) := by
    rw [h]
    exact id
  cases answer with
  | failed fault =>
    rw [resume, Turn.finished.injEq, Except.error.injEq] at h
    refine Or.inr ?_
    cases stage with
    | sending =>
      rw [faultOf] at h
      split at h
      case isTrue => cases h
      case isFalse hfault =>
        subst h
        exact absurd rfl hfault
    | _ =>
      subst h
      exact ⟨by simp, rfl⟩
  | done =>
    refine absurd ?_ hnot
    cases stage with
    | announcing => exact unstopped_perform
    | slept remaining taken => exact unstopped_slice _
    | _ => exact unstopped_proceed
  | stop requested =>
    cases requested with
    | true => exact Or.inl rfl
    | false =>
      refine absurd ?_ hnot
      cases stage with
      | slicing remaining => exact trivial
      | afterDelay => exact unstopped_proceed
      | _ => exact unstopped_startStep

end Plan

end SerialConsole.Script
