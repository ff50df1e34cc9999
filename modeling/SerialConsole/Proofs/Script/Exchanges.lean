import SerialConsole.Proofs.Script.Reach

set_option autoImplicit false

/-!
# The requests of a run and their answers

`Plan.exchanges` has every request of a run with its answer, also those that fail or are only looks
at the stop request. What a run writes down as its events are the requests that were granted
(`drive_events`). `Leads` cuts a run in two: what was exchanged so far, and where that led.
-/
namespace SerialConsole.Script

/-- A request and its answer. -/
abbrev Exchange := Request × Answer

/-- What is written down of an exchange: a request that was granted. -/
def Exchange.event? : Exchange → Option Event
  | (.announce position total, .done) => some (.step position total)
  | (.send value, .done) => some (.sent value)
  | (.sleep seconds, .done) => some (.slept seconds)
  | _ => none

/-- The value of a send that was granted. -/
def Exchange.sent? : Exchange → Option String
  | (.send value, .done) => some value
  | _ => none

/-- The values that were sent, in order. -/
def sentOf (exchanges : List Exchange) : List String :=
  exchanges.filterMap Exchange.sent?

theorem sentOf_append (es fs : List Exchange) : sentOf (es ++ fs) = sentOf es ++ sentOf fs :=
  List.filterMap_append

theorem Surroundings.answer_events (world : Surroundings) (trace : Trace) (request : Request) :
    (world.answer trace request).2.events =
      (Exchange.event? (request, (world.answer trace request).1)).toList ++ trace.events := by
  cases request with
  | poll => rfl
  | announce position total =>
    rw [answer]
    split <;> rfl
  | send value =>
    rw [answer]
    split <;> rfl
  | sleep seconds =>
    rw [answer]
    split <;> rfl

namespace Plan

variable {plan : Plan} {world : Surroundings}

/-- The exchanges behind a turn, the earliest first. -/
def dialogue (plan : Plan) (world : Surroundings) : Nat → Turn → Trace → List Exchange
  | _, .finished _, _ => []
  | 0, .asks _ _ _, _ => []
  | fuel + 1, .asks request stage p, trace =>
    (request, (world.answer trace request).1) ::
      plan.dialogue world fuel (plan.resume stage p (world.answer trace request).1)
        (world.answer trace request).2

/-- The exchanges of a run, the earliest first. -/
def exchanges (plan : Plan) (world : Surroundings) : List Exchange :=
  plan.dialogue world plan.requestBound plan.start {}

theorem drive_events (fuel : Nat) (turn : Turn) (trace : Trace) :
    (plan.drive world fuel turn trace).2.events.reverse =
      trace.events.reverse ++ (plan.dialogue world fuel turn trace).filterMap Exchange.event? := by
  induction fuel generalizing turn trace with
  | zero => cases turn <;> simp [drive, dialogue]
  | succ fuel ih =>
    cases turn with
    | finished outcome => simp [drive, dialogue]
    | asks request stage p =>
      have hevents := world.answer_events trace request
      rw [drive, dialogue, List.filterMap_cons]
      simp only [ih, hevents, List.reverse_append]
      cases Exchange.event? (request, (world.answer trace request).1) <;> simp

theorem run_events (plan : Plan) (world : Surroundings) :
    (plan.run world).2.events.reverse = (plan.exchanges world).filterMap Exchange.event? :=
  drive_events plan.requestBound plan.start {}

/-- Exchanges that lead from one turn to another. -/
inductive Leads (plan : Plan) (world : Surroundings) :
    Turn → Trace → List Exchange → Turn → Trace → Prop where
  | nil (turn : Turn) (trace : Trace) : plan.Leads world turn trace [] turn trace
  | cons {request : Request} {stage : Stage} {p : Progress} {answer : Answer} {next : Turn}
      {trace between last : Trace} {exchanges : List Exchange} :
      world.answer trace request = (answer, between) →
        plan.Leads world (plan.resume stage p answer) between exchanges next last →
          plan.Leads world (.asks request stage p) trace ((request, answer) :: exchanges) next last

variable {turn next : Turn} {trace last : Trace} {exchanges : List Exchange}

theorem Leads.drive (h : plan.Leads world turn trace exchanges next last) (fuel : Nat) :
    plan.drive world (exchanges.length + fuel) turn trace = plan.drive world fuel next last := by
  induction h with
  | nil turn trace => rw [List.length_nil, Nat.zero_add]
  | cons hanswer _ ih =>
    rw [List.length_cons, Nat.succ_add, Plan.drive, hanswer]
    exact ih

theorem Leads.dialogue (h : plan.Leads world turn trace exchanges next last) (fuel : Nat) :
    plan.dialogue world (exchanges.length + fuel) turn trace =
      exchanges ++ plan.dialogue world fuel next last := by
  induction h with
  | nil turn trace => rw [List.length_nil, Nat.zero_add, List.nil_append]
  | cons hanswer _ ih =>
    rw [List.length_cons, Nat.succ_add, Plan.dialogue, hanswer, ih, List.cons_append]

/-- The first exchanges behind a turn lead to a turn that the other exchanges are behind. -/
theorem leads_of_dialogue {fuel : Nat} {later : List Exchange}
    (h : plan.dialogue world fuel turn trace = exchanges ++ later) :
    ∃ next last rest, plan.Leads world turn trace exchanges next last ∧
      fuel = exchanges.length + rest ∧ plan.dialogue world rest next last = later := by
  induction exchanges generalizing fuel turn trace with
  | nil => exact ⟨turn, trace, fuel, .nil turn trace, (Nat.zero_add fuel).symm, h⟩
  | cons exchange exchanges ih =>
    cases turn with
    | finished outcome => cases fuel <;> cases h
    | asks request stage p =>
      cases fuel with
      | zero => cases h
      | succ fuel =>
        rw [Plan.dialogue, List.cons_append, List.cons.injEq] at h
        obtain ⟨rfl, hrest⟩ := h
        obtain ⟨next, last, rest, hleads, rfl, hlater⟩ := ih hrest
        refine ⟨next, last, rest, .cons rfl hleads, ?_, hlater⟩
        rw [List.length_cons]
        omega

theorem Leads.reached (h : plan.Leads world turn trace exchanges next last)
    (hturn : plan.Reached turn) : plan.Reached next := by
  induction h with
  | nil turn trace => exact hturn
  | @cons request stage p answer next trace between last exchanges hanswer _ ih =>
    have htakes := answer_takes world trace request
    rw [hanswer] at htakes
    exact ih (.resume answer hturn htakes)

theorem Leads.trans {middle : Turn} {between : Trace} {later : List Exchange}
    (h : plan.Leads world turn trace exchanges middle between)
    (h' : plan.Leads world middle between later next last) :
    plan.Leads world turn trace (exchanges ++ later) next last := by
  induction h with
  | nil turn trace => exact h'
  | cons hanswer _ ih => exact .cons hanswer (ih h')

theorem Leads.snoc {request : Request} {stage : Stage} {p : Progress} {answer : Answer}
    {after : Trace} (h : plan.Leads world turn trace exchanges (.asks request stage p) last)
    (hanswer : world.answer last request = (answer, after)) :
    plan.Leads world turn trace (exchanges ++ [(request, answer)]) (plan.resume stage p answer)
      after :=
  h.trans (.cons hanswer (.nil _ after))

theorem Leads.split {later : List Exchange}
    (h : plan.Leads world turn trace (exchanges ++ later) next last) :
    ∃ middle between, plan.Leads world turn trace exchanges middle between ∧
      plan.Leads world middle between later next last := by
  induction exchanges generalizing turn trace with
  | nil => exact ⟨turn, trace, .nil turn trace, h⟩
  | cons e rest ih =>
    cases h with
    | cons hanswer hrest =>
      obtain ⟨middle, between, hfirst, hlater⟩ := ih hrest
      exact ⟨middle, between, .cons hanswer hfirst, hlater⟩

/-- A run with an outcome is the exchanges that lead to it. -/
theorem leads_of_run {outcome : Except Fault Tally} (h : plan.run world = (some outcome, trace)) :
    plan.Leads world plan.start {} (plan.exchanges world) (.finished outcome) trace := by
  have hwhole : plan.dialogue world plan.requestBound plan.start {} = plan.exchanges world ++ [] :=
    (List.append_nil _).symm
  obtain ⟨next, last, rest, hleads, hbound, hnone⟩ := leads_of_dialogue hwhole
  have hdrive := hleads.drive rest
  rw [← hbound] at hdrive
  have houtcome := hdrive.symm.trans h
  cases next with
  | finished result =>
    have hlast : (some result, last) = (some outcome, trace) := by
      cases rest <;> exact houtcome
    cases hlast
    exact hleads
  | asks request stage p =>
    cases rest with
    | zero => cases houtcome
    | succ rest => cases hnone

/-- Exchanges that lead to an outcome and are not too many are a run. -/
theorem run_of_leads {outcome : Except Fault Tally}
    (h : plan.Leads world plan.start {} exchanges (.finished outcome) last)
    (hbound : exchanges.length ≤ plan.requestBound) :
    plan.run world = (some outcome, last) ∧ plan.exchanges world = exchanges := by
  have hdrive := h.drive (plan.requestBound - exchanges.length)
  have hdialogue := h.dialogue (plan.requestBound - exchanges.length)
  rw [Nat.add_sub_cancel' hbound] at hdrive hdialogue
  constructor
  · rw [run, hdrive]
    cases plan.requestBound - exchanges.length <;> rfl
  · rw [Plan.exchanges, hdialogue]
    cases plan.requestBound - exchanges.length <;> exact List.append_nil _

end Plan

end SerialConsole.Script
