import SerialConsole.Log.Delivery

set_option autoImplicit false

/-!
# What happens to a log

A `History` is what was added to a log, when it was cleared and which adds have returned, whoever
did it: a call from outside may come at any time, also in the middle of a delivery, and what a
listener does may depend on anything. Every add returns its own entry (`Answered`), and it does
return unless entries are added for ever (`run_ends`).
-/
namespace SerialConsole.Log

/-- Something that happened to a log. An add returns when its deliveries are over. -/
inductive Event where
  | added (direction : Direction) (data : Bytes) (entry : Entry)
  | cleared
  | returned (entry : Entry)
  deriving DecidableEq, Repr

/-- The entry of an add that is not over. -/
def Job.entry? : Job → Option Entry
  | .deliver entry _ => some entry
  | .perform _ _ => none

def Job.hearers : Job → Nat
  | .deliver _ listeners => listeners.length
  | .perform _ _ => 0

def Job.work : Job → Nat
  | .deliver _ _ => 1
  | .perform _ acts => acts.length + 1

namespace Delivery

variable {σ : Type} {react : Reaction σ} {d next : Delivery σ}

/-- What happens in the next step. -/
def event? (d : Delivery σ) : Option Event :=
  match d.jobs with
  | .deliver entry [] :: _ => some (.returned entry)
  | .perform _ (.add direction data :: _) :: _ =>
    some (.added direction data (d.ring.nextEntry direction data))
  | .perform _ (.clear :: _) :: _ => some .cleared
  | _ => none

/-- A step, one case for each piece of work. -/
inductive Steps (react : Reaction σ) (d : Delivery σ) : Option Event → Delivery σ → Prop where
  | returns {entry : Entry} {jobs : List Job} : d.jobs = .deliver entry [] :: jobs →
    Steps react d (some (.returned entry)) { d with jobs }
  | hears {entry : Entry} {listener : Listener} {rest : List Listener} {jobs : List Job} :
    d.jobs = .deliver entry (listener :: rest) :: jobs →
    Steps react d none { d with
      memory := (react d.memory listener entry).1
      delivered := d.delivered ++ [(listener, entry)]
      jobs := .perform (some entry) (react d.memory listener entry).2 ::
        .deliver entry rest :: jobs }
  | leaves {hearing : Option Entry} {jobs : List Job} : d.jobs = .perform hearing [] :: jobs →
    Steps react d none { d with jobs }
  | adds {hearing : Option Entry} {direction : Direction} {data : Bytes} {rest : List Act}
      {jobs : List Job} : d.jobs = .perform hearing (.add direction data :: rest) :: jobs →
    Steps react d (some (.added direction data (d.ring.nextEntry direction data))) { d with
      ring := d.ring.append direction data
      jobs := .deliver (d.ring.nextEntry direction data) d.ring.listeners ::
        .perform hearing rest :: jobs }
  | clears {hearing : Option Entry} {rest : List Act} {jobs : List Job} :
    d.jobs = .perform hearing (.clear :: rest) :: jobs →
    Steps react d (some .cleared)
      { d with ring := d.ring.clear, jobs := .perform hearing rest :: jobs }
  | subscribes {hearing : Option Entry} {listener : Listener} {rest : List Act} {jobs : List Job} :
    d.jobs = .perform hearing (.subscribe listener :: rest) :: jobs →
    Steps react d none
      { d with ring := d.ring.subscribe listener, jobs := .perform hearing rest :: jobs }
  | unsubscribes {hearing : Option Entry} {listener : Listener} {rest : List Act}
      {jobs : List Job} : d.jobs = .perform hearing (.unsubscribe listener :: rest) :: jobs →
    Steps react d none
      { d with ring := d.ring.unsubscribe listener, jobs := .perform hearing rest :: jobs }
  | fails {hearing : Option Entry} {failures : List Nat} {rest : List Act} {jobs : List Job} :
    d.jobs = .perform hearing (.fail :: rest) :: jobs →
    Steps react d none { d with failures, jobs }

theorem steps_of_step (h : d.step react = some next) : Steps react d d.event? next := by
  rw [step] at h
  rw [event?]
  cases hjobs : d.jobs with
  | nil =>
    rw [hjobs] at h
    cases h
  | cons job jobs =>
    rw [hjobs] at h
    cases job with
    | deliver entry listeners =>
      cases listeners with
      | nil =>
        cases h
        exact .returns hjobs
      | cons listener rest =>
        cases h
        exact .hears hjobs
    | perform hearing acts =>
      cases acts with
      | nil =>
        cases h
        exact .leaves hjobs
      | cons a rest =>
        cases a with
        | add direction data =>
          cases h
          exact .adds hjobs
        | subscribe listener =>
          cases h
          exact .subscribes hjobs
        | unsubscribe listener =>
          cases h
          exact .unsubscribes hjobs
        | clear =>
          cases h
          exact .clears hjobs
        | fail =>
          cases hearing with
          | none =>
            cases h
            exact .fails hjobs
          | some entry =>
            cases h
            exact .fails hjobs

theorem step_eq_none_iff : d.step react = none ↔ d.jobs = [] := by
  rw [step]
  cases d.jobs with
  | nil => simp
  | cons job jobs =>
    cases job with
    | deliver entry listeners => cases listeners <;> simp
    | perform hearing acts => cases acts <;> simp

def trace (react : Reaction σ) : Nat → Delivery σ → List Event
  | 0, _ => []
  | fuel + 1, d =>
    match d.step react with
    | none => []
    | some next => d.event?.toList ++ trace react fuel next

theorem run_of_step (h : d.step react = some next) (fuel : Nat) :
    run react (fuel + 1) d = run react fuel next := by
  rw [run, h]

theorem run_of_done (h : d.step react = none) (fuel : Nat) : run react fuel d = d := by
  cases fuel with
  | zero => rfl
  | succ fuel => rw [run, h]

theorem trace_of_step (h : d.step react = some next) (fuel : Nat) :
    trace react (fuel + 1) d = d.event?.toList ++ trace react fuel next := by
  rw [trace, h]

/-! ## The end of the deliveries -/

def hearers (d : Delivery σ) : Nat :=
  d.jobs.foldr (fun job rest => job.hearers + rest) 0

def work (d : Delivery σ) : Nat :=
  d.jobs.foldr (fun job rest => job.work + rest) 0

/-- A step that adds nothing leaves fewer registrations to hear of an entry, or less work. -/
theorem Steps.less {event : Option Event} (h : Steps react d event next) :
    next.ring.added = d.ring.added + 1 ∨ next.ring.added = d.ring.added ∧
      (next.hearers < d.hearers ∨ next.hearers = d.hearers ∧ next.work < d.work) := by
  cases h with
  | adds hjobs => exact Or.inl rfl
  | hears hjobs =>
    refine Or.inr ⟨rfl, Or.inl ?_⟩
    simp [hearers, hjobs, Job.hearers]
  | returns hjobs | leaves hjobs =>
    refine Or.inr ⟨rfl, Or.inr ⟨?_, ?_⟩⟩
    · simp [hearers, hjobs, Job.hearers]
    · simp [work, hjobs, Job.work]
  | clears hjobs | subscribes hjobs | unsubscribes hjobs | fails hjobs =>
    refine Or.inr ⟨rfl, Or.inr ⟨?_, ?_⟩⟩
    · simp [hearers, hjobs, Job.hearers]
    · simp [work, hjobs, Job.work]
      try omega

/-- Unless entries are added for ever, the work comes to an end. -/
theorem run_ends {bound : Nat} (d : Delivery σ)
    (h : ∀ fuel, (d.run react fuel).ring.added ≤ bound) : ∃ fuel, (d.run react fuel).jobs = [] := by
  cases hstep : d.step react with
  | none => exact ⟨0, step_eq_none_iff.1 hstep⟩
  | some next =>
    have hnext : ∀ fuel, (next.run react fuel).ring.added ≤ bound := fun fuel => by
      rw [← run_of_step hstep]
      exact h (fuel + 1)
    -- for the measure: first the entries that may still come, then who hears of one, then the acts
    have hless := (steps_of_step hstep).less
    have hbound : next.ring.added ≤ bound := hnext 0
    obtain ⟨fuel, hend⟩ := run_ends next hnext
    exact ⟨fuel + 1, by rwa [run_of_step hstep]⟩
termination_by (bound - d.ring.added, d.hearers, d.work)
decreasing_by
  simp only [Prod.lex_def]
  omega

theorem added_le_of_ended {n : Nat} (hend : (d.run react n).jobs = []) (fuel : Nat) :
    (d.run react fuel).ring.added ≤ (d.run react n).ring.added := by
  induction n generalizing d fuel with
  | zero =>
    have hnone : d.step react = none := step_eq_none_iff.2 hend
    have hsame : run react fuel d = run react 0 d := by
      rw [run_of_done hnone, run_of_done hnone]
    exact Nat.le_of_eq (by rw [hsame])
  | succ n ih =>
    cases hstep : d.step react with
    | none =>
      have hsame : run react fuel d = run react (n + 1) d := by
        rw [run_of_done hstep, run_of_done hstep]
      exact Nat.le_of_eq (by rw [hsame])
    | some next =>
      rw [run_of_step hstep] at hend ⊢
      cases fuel with
      | zero =>
        have hless := (steps_of_step hstep).less
        have hnext : next.ring.added ≤ (next.run react n).ring.added := ih hend 0
        change d.ring.added ≤ _
        omega
      | succ fuel =>
        rw [run_of_step hstep]
        exact ih hend fuel

/-! ## The return of an add -/

theorem Steps.replaces {event : Option Event} (h : Steps react d event next) :
    ∃ job jobs new, d.jobs = job :: jobs ∧ next.jobs = new ++ jobs := by
  cases h with
  | returns hjobs | leaves hjobs | fails hjobs => exact ⟨_, _, [], hjobs, rfl⟩
  | hears hjobs | adds hjobs => exact ⟨_, _, [_, _], hjobs, rfl⟩
  | clears hjobs | subscribes hjobs | unsubscribes hjobs => exact ⟨_, _, [_], hjobs, rfl⟩

/-- An add of an entry is under way, on top of what went on before it. -/
def Underway (entry : Entry) (base : List Job) (d : Delivery σ) : Prop :=
  ∃ above listeners, d.jobs = above ++ .deliver entry listeners :: base

theorem Underway.step {entry : Entry} {base : List Job} (h : d.Underway entry base)
    (hstep : d.step react = some next) :
    d.event? = some (.returned entry) ∧ next.jobs = base ∨ next.Underway entry base := by
  obtain ⟨above, listeners, hjobs⟩ := h
  cases above with
  | nil =>
    rw [List.nil_append] at hjobs
    rw [Delivery.step, hjobs] at hstep
    rw [event?, hjobs]
    cases listeners with
    | nil =>
      cases hstep
      exact Or.inl ⟨rfl, rfl⟩
    | cons listener rest =>
      cases hstep
      exact Or.inr ⟨[.perform (some entry) (react d.memory listener entry).2], rest, rfl⟩
  | cons job above =>
    obtain ⟨job', jobs, new, hbefore, hafter⟩ := (steps_of_step hstep).replaces
    rw [hjobs, List.cons_append, List.cons.injEq] at hbefore
    refine Or.inr ⟨new ++ above, listeners, ?_⟩
    rw [hafter, ← hbefore.2, List.append_assoc]

/-- An add that is under way returns its entry before the work is at its end. -/
theorem Underway.returns {entry : Entry} {base : List Job} {fuel : Nat}
    (h : d.Underway entry base) (hend : (d.run react fuel).jobs = []) :
    ∃ n later, (d.run react n).jobs = base ∧ d.trace react n = later ++ [.returned entry] := by
  induction fuel generalizing d with
  | zero =>
    obtain ⟨above, listeners, hjobs⟩ := h
    rw [run, hjobs] at hend
    cases (List.append_eq_nil_iff.1 hend).2
  | succ fuel ih =>
    cases hstep : d.step react with
    | none =>
      obtain ⟨above, listeners, hjobs⟩ := h
      rw [step_eq_none_iff.1 hstep] at hjobs
      cases (List.append_eq_nil_iff.1 hjobs.symm).2
    | some next =>
      rcases h.step hstep with ⟨hevent, hbase⟩ | hnext
      · refine ⟨1, [], ?_, ?_⟩
        · rw [run_of_step hstep]
          exact hbase
        · rw [trace_of_step hstep, hevent]
          rfl
      · rw [run_of_step hstep] at hend
        obtain ⟨n, later, hbase, htrace⟩ := ih hnext hend
        refine ⟨n + 1, d.event?.toList ++ later, ?_, ?_⟩
        · rwa [run_of_step hstep]
        · rw [trace_of_step hstep, htrace, List.append_assoc]

end Delivery

/-- The states that a log of some capacity can come to, with what happened until then. -/
inductive History {σ : Type} (react : Reaction σ) (capacity : Nat) (clock : Clock) :
    Delivery σ → List Event → Prop where
  | start (memory : σ) : History react capacity clock { ring := { capacity, clock }, memory } []
  | call {d : Delivery σ} {events : List Event} (memory : σ) (acts : List Act) :
    History react capacity clock d events →
    History react capacity clock { d with memory, jobs := .perform none acts :: d.jobs } events
  | step {d next : Delivery σ} {events : List Event} : History react capacity clock d events →
    d.step react = some next → History react capacity clock next (events ++ d.event?.toList)

/-- The adds that have not returned, the latest first. An add makes an entry of what it was given,
and what returns is the entry of the latest add that has not returned. -/
inductive Answered : List Event → List Entry → Prop where
  | start : Answered [] []
  | added {events : List Event} {waiting : List Entry} {direction : Direction} {data : Bytes}
      {entry : Entry} : Answered events waiting → entry.direction = direction → entry.data = data →
    Answered (events ++ [.added direction data entry]) (entry :: waiting)
  | cleared {events : List Event} {waiting : List Entry} : Answered events waiting →
    Answered (events ++ [.cleared]) waiting
  | returned {events : List Event} {waiting : List Entry} {entry : Entry} :
    Answered events (entry :: waiting) → Answered (events ++ [.returned entry]) waiting

namespace History

variable {σ : Type} {react : Reaction σ} {capacity : Nat} {clock : Clock} {d : Delivery σ}
  {events : List Event}

theorem run (h : History react capacity clock d events) (fuel : Nat) :
    History react capacity clock (d.run react fuel) (events ++ d.trace react fuel) := by
  induction fuel generalizing d events with
  | zero => rwa [Delivery.run, Delivery.trace, List.append_nil]
  | succ fuel ih =>
    cases hstep : d.step react with
    | none =>
      rw [Delivery.run_of_done hstep, Delivery.trace, hstep, List.append_nil]
      exact h
    | some next =>
      rw [Delivery.run_of_step hstep, Delivery.trace_of_step hstep, ← List.append_assoc]
      exact ih (.step h hstep)

theorem answered (h : History react capacity clock d events) :
    Answered events (d.jobs.filterMap Job.entry?) := by
  induction h with
  | start memory => exact .start
  | call memory acts _ ih => exact ih
  | @step d next events _ hstep ih =>
    have hsteps := Delivery.steps_of_step hstep
    generalize d.event? = event at hsteps
    cases hsteps with
    | returns hjobs =>
      rw [hjobs] at ih
      exact .returned ih
    | adds hjobs =>
      rw [hjobs] at ih
      exact .added ih rfl rfl
    | clears hjobs =>
      rw [hjobs] at ih
      exact .cleared ih
    | hears hjobs | leaves hjobs | subscribes hjobs | unsubscribes hjobs | fails hjobs =>
      rw [hjobs] at ih
      rw [Option.toList_none, List.append_nil]
      exact ih

/-- Unless entries are added for ever, an add returns: what went on before it goes on, and the last
thing that happened is the return of its entry. -/
theorem add_returns (h : History react capacity clock d events) (direction : Direction)
    (data : Bytes) {bound : Nat}
    (hfew : ∀ fuel, (d.add react fuel direction data).2.ring.added ≤ bound) :
    ∃ fuel later, (d.add react fuel direction data).2.jobs = .perform none [] :: d.jobs ∧
      History react capacity clock (d.add react fuel direction data).2
        (events ++ .added direction data (d.ring.nextEntry direction data) :: later ++
          [.returned (d.ring.nextEntry direction data)]) := by
  let called : Delivery σ := { d with jobs := .perform none [.add direction data] :: d.jobs }
  let begun : Delivery σ := { d with
    ring := d.ring.append direction data
    jobs := .deliver (d.ring.nextEntry direction data) d.ring.listeners ::
      .perform none [] :: d.jobs }
  have hcalled : History react capacity clock called events := h.call d.memory _
  have hstep : called.step react = some begun := rfl
  have hrun : ∀ fuel, (d.add react fuel direction data).2 = called.run react fuel := fun _ => rfl
  simp only [hrun] at hfew ⊢
  obtain ⟨fuel, hend⟩ := Delivery.run_ends called hfew
  have hunder : begun.Underway (d.ring.nextEntry direction data) (.perform none [] :: d.jobs) :=
    ⟨[], d.ring.listeners, rfl⟩
  cases fuel with
  | zero => cases hend
  | succ fuel =>
    rw [Delivery.run_of_step hstep] at hend
    obtain ⟨n, later, hbase, htrace⟩ := hunder.returns hend
    refine ⟨n + 1, later, ?_, ?_⟩
    · rw [Delivery.run_of_step hstep, hbase]
    · have hhistory := hcalled.run (n + 1)
      rw [Delivery.trace_of_step hstep, htrace] at hhistory
      have hevents : called.event?.toList =
          [.added direction data (d.ring.nextEntry direction data)] := rfl
      rw [hevents] at hhistory
      simpa using hhistory

end History

end SerialConsole.Log
