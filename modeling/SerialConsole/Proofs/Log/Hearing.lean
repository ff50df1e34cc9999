import SerialConsole.Proofs.Log.History

set_option autoImplicit false

/-!
# Who hears of an entry

An entry is delivered once to each registration that was there when the entry was appended, in their
order, and to no other (`heard_once`). Deliveries nest, and while one is under way the registrations
may change in any way; but a delivery goes by the list that it began with, and no later entry has
the same number. So for each number the deliveries made and the deliveries still to make are
together the same list after every step (`promised_of_step`).
-/
namespace SerialConsole.Log

namespace Job

/-- The number of the entry that a job has to do with. -/
def about : Job → Option Nat
  | .deliver entry _ => some entry.id
  | .perform hearing _ => hearing.map Entry.id

/-- The deliveries of an entry that a job has still to make. -/
def outstanding (id : Nat) : Job → List (Listener × Entry)
  | .deliver entry listeners => if entry.id = id then listeners.map (·, entry) else []
  | .perform _ _ => []

def delivers (id : Nat) : Job → Bool
  | .deliver entry _ => entry.id == id
  | .perform _ _ => false

/-- A listener is hearing of the entry and is going to fail. -/
def raises (id : Nat) : Job → Bool
  | .perform (some entry) acts => entry.id == id && decide (Act.fail ∈ acts)
  | _ => false

variable {id : Nat} {job : Job} {jobs : List Job}

theorem outstanding_of_not_about (h : job.about ≠ some id) : job.outstanding id = [] := by
  cases job with
  | deliver entry listeners => exact if_neg fun heq => h (congrArg some heq)
  | perform hearing acts => rfl

theorem delivers_of_not_about (h : job.about ≠ some id) : job.delivers id = false := by
  cases job with
  | deliver entry listeners => simpa [delivers, about] using h
  | perform hearing acts => rfl

theorem raises_of_not_about (h : job.about ≠ some id) : job.raises id = false := by
  cases job with
  | deliver entry listeners => rfl
  | perform hearing acts =>
    cases hearing with
    | none => rfl
    | some entry =>
      have hid : entry.id ≠ id := fun heq => h (congrArg some heq)
      simp [raises, hid]

theorem flatMap_outstanding (h : ∀ job ∈ jobs, job.about ≠ some id) :
    jobs.flatMap (outstanding id) = [] :=
  List.flatMap_eq_nil_iff.2 fun job hjob => outstanding_of_not_about (h job hjob)

theorem countP_delivers (h : ∀ job ∈ jobs, job.about ≠ some id) :
    jobs.countP (delivers id) = 0 :=
  List.countP_eq_zero.2 fun job hjob => by simp [delivers_of_not_about (h job hjob)]

theorem countP_raises (h : ∀ job ∈ jobs, job.about ≠ some id) :
    jobs.countP (raises id) = 0 :=
  List.countP_eq_zero.2 fun job hjob => by simp [raises_of_not_about (h job hjob)]

end Job

def Event.returns (id : Nat) : Event → Bool
  | .returned entry => entry.id == id
  | _ => false

namespace Delivery

variable {σ : Type} {react : Reaction σ} {d next : Delivery σ} {id : Nat}

/-- The delivery that the next step makes. -/
def heard? (d : Delivery σ) : Option (Listener × Entry) :=
  match d.jobs with
  | .deliver entry (listener :: _) :: _ => some (listener, entry)
  | _ => none

/-- The entry of which a listener hears in the next step, if it is going to fail. -/
def raised? (react : Reaction σ) (d : Delivery σ) : Option Nat :=
  match d.jobs with
  | .deliver entry (listener :: _) :: _ =>
    if .fail ∈ (react d.memory listener entry).2 then some entry.id else none
  | _ => none

/-- The failure that the next step puts on record. -/
def failed? (d : Delivery σ) : Option Nat :=
  match d.jobs with
  | .perform (some entry) (.fail :: _) :: _ => some entry.id
  | _ => none

/-- The deliveries of an entry until now. -/
def deliveries (id : Nat) (d : Delivery σ) : List (Listener × Entry) :=
  d.delivered.filter fun delivery => delivery.2.id == id

/-- The deliveries of an entry until now, and those that are still to be made. -/
def promised (id : Nat) (d : Delivery σ) : List (Listener × Entry) :=
  d.deliveries id ++ d.jobs.flatMap (Job.outstanding id)

/-- No job has to do with the entry. -/
def Quiet (id : Nat) (d : Delivery σ) : Prop :=
  ∀ job ∈ d.jobs, job.about ≠ some id

/-! ## One step -/

theorem delivered_of_step (h : d.step react = some next) :
    next.delivered = d.delivered ++ d.heard?.toList := by
  have hsteps := steps_of_step h
  rw [heard?]
  generalize d.event? = event at hsteps
  cases hsteps with
  | hears hjobs => rw [hjobs]; rfl
  | returns hjobs | leaves hjobs | adds hjobs | clears hjobs | subscribes hjobs | unsubscribes hjobs
  | fails hjobs =>
    rw [hjobs]
    exact (List.append_nil _).symm

theorem failures_of_step (h : d.step react = some next) :
    next.failures = d.failures ++ d.failed?.toList := by
  rw [failed?]
  rw [step] at h
  cases hjobs : d.jobs with
  | nil => rw [hjobs] at h; cases h
  | cons job jobs =>
    rw [hjobs] at h
    cases job with
    | deliver entry listeners => cases listeners <;> cases h <;> simp
    | perform hearing acts =>
      cases acts with
      | nil => cases h; simp
      | cons a rest => cases a <;> cases hearing <;> cases h <;> simp [act]

theorem added_le_of_step (h : d.step react = some next) : d.ring.added ≤ next.ring.added := by
  have hless := (steps_of_step h).less
  omega

theorem ne_of_append {ring : Ring} {direction : Direction} {data : Bytes}
    (h : id ≤ ring.added ∨ (ring.append direction data).added < id) : id ≠ ring.added + 1 := by
  change id ≤ ring.added ∨ ring.added + 1 < id at h
  omega

/-- A step neither makes an outstanding delivery of an older entry come undone nor adds one. -/
theorem promised_of_step (h : d.step react = some next)
    (hid : id ≤ d.ring.added ∨ next.ring.added < id) :
    next.promised id = d.promised id := by
  rw [promised, promised, deliveries, deliveries, delivered_of_step h, List.filter_append,
    List.append_assoc]
  congr 1
  have hsteps := steps_of_step h
  rw [heard?]
  generalize d.event? = event at hsteps
  cases hsteps with
  | @hears entry listener rest jobs hjobs =>
    rw [hjobs]
    by_cases heq : entry.id = id <;> simp [Job.outstanding, heq]
  | adds hjobs =>
    have hother := ne_of_append hid
    rw [hjobs]
    simp [Job.outstanding, Ring.nextEntry, Ne.symm hother]
  | returns hjobs | leaves hjobs | clears hjobs | subscribes hjobs | unsubscribes hjobs
  | fails hjobs =>
    rw [hjobs]
    simp [Job.outstanding]

/-- A step returns an entry exactly if it ends the deliveries of it. -/
theorem delivering_of_step (h : d.step react = some next)
    (hid : id ≤ d.ring.added ∨ next.ring.added < id) :
    next.jobs.countP (Job.delivers id) + d.event?.toList.countP (Event.returns id) =
      d.jobs.countP (Job.delivers id) := by
  have hsteps := steps_of_step h
  generalize d.event? = event at hsteps
  cases hsteps with
  | adds hjobs =>
    have hother := ne_of_append hid
    rw [hjobs]
    simp [Job.delivers, Event.returns, Ring.nextEntry, Ne.symm hother]
  | returns hjobs | hears hjobs | leaves hjobs | clears hjobs | subscribes hjobs
  | unsubscribes hjobs | fails hjobs =>
    rw [hjobs]
    simp [Job.delivers, Event.returns, List.countP_cons]

/-- A listener that is going to fail does so once. -/
theorem failing_of_step (h : d.step react = some next) (id : Nat) :
    next.failures.count id + next.jobs.countP (Job.raises id) =
      d.failures.count id + d.jobs.countP (Job.raises id) +
        (d.raised? react).toList.count id := by
  rw [failures_of_step h, List.count_append, failed?, raised?]
  rw [step] at h
  cases hjobs : d.jobs with
  | nil => rw [hjobs] at h; cases h
  | cons job jobs =>
    rw [hjobs] at h
    cases job with
    | deliver entry listeners =>
      cases listeners with
      | nil => cases h; simp [Job.raises]
      | cons listener rest =>
        cases h
        by_cases hfail : Act.fail ∈ (react d.memory listener entry).2 <;>
          simp [Job.raises, hfail, List.countP_cons, List.count_singleton, Nat.add_assoc]
    | perform hearing acts =>
      cases acts with
      | nil => cases h; cases hearing <;> simp [Job.raises]
      | cons a rest =>
        cases a <;> cases hearing <;> cases h <;>
          simp [act, Job.raises, List.countP_cons, List.count_singleton]
        omega

/-! ## Entries that no job has to do with -/

theorem Quiet.step (hquiet : d.Quiet id) (h : d.step react = some next)
    (hid : id ≤ d.ring.added ∨ next.ring.added < id) : next.Quiet id := by
  have hsteps := steps_of_step h
  generalize d.event? = event at hsteps
  cases hsteps with
  | adds hjobs =>
    rw [Quiet, hjobs, List.forall_mem_cons] at hquiet
    have hentry : some (d.ring.added + 1) ≠ some id := fun heq =>
      ne_of_append hid (Option.some.inj heq).symm
    exact List.forall_mem_cons.2 ⟨hentry, List.forall_mem_cons.2 hquiet⟩
  | hears hjobs =>
    rw [Quiet, hjobs, List.forall_mem_cons] at hquiet
    exact List.forall_mem_cons.2 ⟨hquiet.1, List.forall_mem_cons.2 hquiet⟩
  | clears hjobs | subscribes hjobs | unsubscribes hjobs =>
    rw [Quiet, hjobs, List.forall_mem_cons] at hquiet
    exact List.forall_mem_cons.2 hquiet
  | returns hjobs | leaves hjobs | fails hjobs =>
    rw [Quiet, hjobs, List.forall_mem_cons] at hquiet
    exact hquiet.2

theorem Quiet.call (hquiet : d.Quiet id) (memory : σ) (acts : List Act) :
    Quiet id { d with memory, jobs := .perform none acts :: d.jobs } :=
  List.forall_mem_cons.2 ⟨nofun, hquiet⟩

theorem Quiet.promised (hquiet : d.Quiet id) : d.promised id = d.deliveries id := by
  rw [Delivery.promised, Job.flatMap_outstanding hquiet, List.append_nil]

theorem Quiet.not_raised (hquiet : d.Quiet id) : (d.raised? react).toList.count id = 0 := by
  rw [Quiet] at hquiet
  rw [raised?]
  split
  next entry listener rest jobs hjobs =>
    rw [hjobs, List.forall_mem_cons] at hquiet
    have hentry : entry.id ≠ id := fun heq => hquiet.1 (congrArg some heq)
    split
    · simp [hentry]
    · rfl
  next => rfl

/-- Nothing of an entry has happened, and no job has to do with it. -/
structure Unheard (id : Nat) (d : Delivery σ) : Prop where
  quiet : d.Quiet id
  deliveries : d.deliveries id = []
  failures : d.failures.count id = 0

theorem Unheard.step (hunheard : d.Unheard id) (h : d.step react = some next)
    (hid : id ≤ d.ring.added ∨ next.ring.added < id) : next.Unheard id where
  quiet := hunheard.quiet.step h hid
  deliveries := by
    rw [← (hunheard.quiet.step h hid).promised, promised_of_step h hid, hunheard.quiet.promised,
      hunheard.deliveries]
  failures := by
    have hfailing := failing_of_step h id
    rw [hunheard.failures, Job.countP_raises hunheard.quiet,
      hunheard.quiet.not_raised] at hfailing
    omega

end Delivery

/-- Numbers that were not given out yet have not been heard of. -/
theorem History.unheard {σ : Type} {react : Reaction σ} {capacity : Nat} {clock : Clock}
    {d : Delivery σ} {events : List Event} (h : History react capacity clock d events) {id : Nat}
    (hid : d.ring.added < id) : d.Unheard id := by
  induction h with
  | start memory => exact ⟨nofun, rfl, rfl⟩
  | call memory acts _ ih =>
    exact ⟨(ih hid).quiet.call memory acts, (ih hid).deliveries, (ih hid).failures⟩
  | step _ hstep ih =>
    have hle := Delivery.added_le_of_step hstep
    exact (ih (Nat.lt_of_le_of_lt hle hid)).step hstep (Or.inr hid)

/-! ## An entry from its append on -/

/-- The states that a log can come to from `begun`, with what happened since and, for each hearing
that made a listener fail, the number of the entry. A call from outside may come at any time. -/
inductive Onward {σ : Type} (react : Reaction σ) (begun : Delivery σ) :
    Delivery σ → List Event → List Nat → Prop where
  | start : Onward react begun begun [] []
  | call {d : Delivery σ} {events : List Event} {raised : List Nat} (memory : σ)
      (acts : List Act) : Onward react begun d events raised →
    Onward react begun { d with memory, jobs := .perform none acts :: d.jobs } events raised
  | step {d next : Delivery σ} {events : List Event} {raised : List Nat} :
    Onward react begun d events raised → d.step react = some next →
    Onward react begun next (events ++ d.event?.toList) (raised ++ (d.raised? react).toList)

/-- How a log stands to an entry that was delivered to `registered` on top of the jobs `base`. -/
structure Follows {σ : Type} (entry : Entry) (registered : List Listener) (base : List Job)
    (d : Delivery σ) (events : List Event) (raised : List Nat) : Prop where
  old : entry.id ≤ d.ring.added
  promised : d.promised entry.id = registered.map (·, entry)
  returns : d.jobs.countP (Job.delivers entry.id) + events.countP (Event.returns entry.id) = 1
  failures : d.failures.count entry.id + d.jobs.countP (Job.raises entry.id) =
    raised.count entry.id
  stage : d.Underway entry base ∨ d.Quiet entry.id

namespace Follows

variable {σ : Type} {react : Reaction σ} {entry : Entry} {registered : List Listener}
  {base : List Job} {d next : Delivery σ} {events : List Event} {raised : List Nat}

theorem call (h : Follows entry registered base d events raised) (memory : σ) (acts : List Act) :
    Follows entry registered base { d with memory, jobs := .perform none acts :: d.jobs } events
      raised where
  old := h.old
  promised := h.promised
  returns := h.returns
  failures := h.failures
  stage := by
    rcases h.stage with ⟨above, listeners, hjobs⟩ | hquiet
    · exact Or.inl ⟨.perform none acts :: above, listeners, congrArg _ hjobs⟩
    · exact Or.inr (hquiet.call memory acts)

theorem step (h : Follows entry registered base d events raised)
    (hbase : ∀ job ∈ base, job.about ≠ some entry.id) (hstep : d.step react = some next) :
    Follows entry registered base next (events ++ d.event?.toList)
      (raised ++ (d.raised? react).toList) where
  old := Nat.le_trans h.old (Delivery.added_le_of_step hstep)
  promised := by rw [Delivery.promised_of_step hstep (Or.inl h.old), h.promised]
  returns := by
    have hdelivering := Delivery.delivering_of_step hstep (Or.inl h.old)
    have hreturns := h.returns
    rw [List.countP_append]
    omega
  failures := by
    have hfailing := Delivery.failing_of_step hstep entry.id
    rw [hfailing, h.failures, List.count_append]
  stage := by
    rcases h.stage with hunder | hquiet
    · rcases hunder.step hstep with ⟨-, hjobs⟩ | hnext
      · exact Or.inr fun job hjob => hbase job (hjobs ▸ hjob)
      · exact Or.inl hnext
    · exact Or.inr (hquiet.step hstep (Or.inl h.old))

/-- After the return of the entry no job has to do with it. -/
theorem quiet (h : Follows entry registered base d events raised)
    (hreturned : .returned entry ∈ events) : d.Quiet entry.id := by
  have hevents : 0 < events.countP (Event.returns entry.id) :=
    List.countP_pos_iff.2 ⟨_, hreturned, by simp [Event.returns]⟩
  have hreturns := h.returns
  rcases h.stage with ⟨above, listeners, hjobs⟩ | hquiet
  · have hjob : 0 < d.jobs.countP (Job.delivers entry.id) :=
      List.countP_pos_iff.2 ⟨.deliver entry listeners, by simp [hjobs], by simp [Job.delivers]⟩
    omega
  · exact hquiet

end Follows

/-- The listeners that are going to fail in the next `fuel` steps, by the entries they hear of. -/
def Delivery.raisings {σ : Type} (react : Reaction σ) : Nat → Delivery σ → List Nat
  | 0, _ => []
  | fuel + 1, d =>
    match d.step react with
    | none => []
    | some next => (d.raised? react).toList ++ raisings react fuel next

namespace Onward

variable {σ : Type} {react : Reaction σ} {begun d : Delivery σ} {events : List Event}
  {raised : List Nat}

theorem run (h : Onward react begun d events raised) (fuel : Nat) :
    Onward react begun (d.run react fuel) (events ++ d.trace react fuel)
      (raised ++ d.raisings react fuel) := by
  induction fuel generalizing d events raised with
  | zero => simpa [Delivery.run, Delivery.trace, Delivery.raisings] using h
  | succ fuel ih =>
    cases hstep : d.step react with
    | none =>
      rw [Delivery.run_of_done hstep, Delivery.trace, Delivery.raisings, hstep, List.append_nil,
        List.append_nil]
      exact h
    | some next =>
      rw [Delivery.run_of_step hstep, Delivery.trace_of_step hstep, Delivery.raisings, hstep,
        ← List.append_assoc, ← List.append_assoc]
      exact ih (.step h hstep)

theorem follows {entry : Entry} {registered : List Listener} {base : List Job}
    (h : Onward react begun d events raised)
    (hbegun : Follows entry registered base begun [] [])
    (hbase : ∀ job ∈ base, job.about ≠ some entry.id) :
    Follows entry registered base d events raised := by
  induction h with
  | start => exact hbegun
  | call memory acts _ ih => exact ih.call memory acts
  | step _ hstep ih => exact ih.step hbase hstep

end Onward

namespace History

variable {σ : Type} {react : Reaction σ} {capacity : Nat} {clock : Clock} {d : Delivery σ}
  {events : List Event} {hearing : Option Entry} {direction : Direction} {data : Bytes}
  {rest : List Act} {jobs : List Job}

theorem follows (h : History react capacity clock d events)
    (hadd : d.jobs = .perform hearing (.add direction data :: rest) :: jobs) :
    (∀ job ∈ Job.perform hearing rest :: jobs,
      job.about ≠ some (d.ring.nextEntry direction data).id) ∧
    Follows (d.ring.nextEntry direction data) d.ring.listeners (.perform hearing rest :: jobs)
      (d.act hearing rest jobs (.add direction data)) [] [] := by
  obtain ⟨hquiet, hdeliveries, hfailures⟩ : d.Unheard (d.ring.nextEntry direction data).id :=
    h.unheard (Nat.lt_succ_self _)
  rw [Delivery.Quiet, hadd, List.forall_mem_cons] at hquiet
  have hbase : ∀ job ∈ Job.perform hearing rest :: jobs,
      job.about ≠ some (d.ring.nextEntry direction data).id := List.forall_mem_cons.2 hquiet
  have hjobs : (d.act hearing rest jobs (.add direction data)).jobs =
      .deliver (d.ring.nextEntry direction data) d.ring.listeners ::
        .perform hearing rest :: jobs := rfl
  exact ⟨hbase, {
    old := Nat.le_refl _
    promised := by
      rw [Delivery.promised, hjobs, List.flatMap_cons, Job.flatMap_outstanding hbase,
        List.append_nil, Job.outstanding, if_pos rfl]
      change d.deliveries _ ++ _ = _
      rw [hdeliveries, List.nil_append]
    returns := by
      rw [hjobs, List.countP_cons_of_pos (by simp [Job.delivers]), Job.countP_delivers hbase]
      rfl
    failures := by
      rw [hjobs, List.countP_cons_of_neg (by simp [Job.raises]), Job.countP_raises hbase]
      exact hfailures
    stage := Or.inl ⟨[], d.ring.listeners, rfl⟩ }⟩

/-- Whoever adds an entry, and whatever listeners do when they hear of it: the entry is delivered
once to each registration that was there when it was appended, in their order, and to no other. The
deliveries are those of a start of the list at any time, and all of them when the add has returned;
then there is one failure on record for each hearing in which a listener failed. Unless entries are
added for ever the add returns, and what went on before it goes on. -/
theorem heard_once (h : History react capacity clock d events)
    (hadd : d.jobs = .perform hearing (.add direction data :: rest) :: jobs) :
    let entry := d.ring.nextEntry direction data
    let begun := d.act hearing rest jobs (.add direction data)
    d.step react = some begun ∧ d.deliveries entry.id = [] ∧ d.failures.count entry.id = 0 ∧
    (∀ later more raised, Onward react begun later more raised →
      later.deliveries entry.id <+: d.ring.listeners.map (·, entry) ∧
      more.countP (Event.returns entry.id) ≤ 1 ∧
      (.returned entry ∈ more →
        later.deliveries entry.id = d.ring.listeners.map (·, entry) ∧
        later.failures.count entry.id = raised.count entry.id)) ∧
    ∀ bound, (∀ fuel, (begun.run react fuel).ring.added ≤ bound) →
      ∃ fuel more raised, Onward react begun (begun.run react fuel) more raised ∧
        (begun.run react fuel).jobs = .perform hearing rest :: jobs ∧ .returned entry ∈ more := by
  intro entry begun
  obtain ⟨hbase, hfollows⟩ := h.follows hadd
  have hunheard : d.Unheard entry.id := h.unheard (Nat.lt_succ_self _)
  have hstep : d.step react = some begun := by rw [Delivery.step, hadd]
  refine ⟨hstep, hunheard.deliveries, hunheard.failures, fun later more raised hlater => ?_,
    fun bound hbound => ?_⟩
  · have hlater := hlater.follows hfollows hbase
    refine ⟨⟨_, hlater.promised⟩, ?_, fun hreturned => ⟨?_, ?_⟩⟩
    · exact Nat.le_trans (Nat.le_add_left _ _) (Nat.le_of_eq hlater.returns)
    · rw [← hlater.promised, (hlater.quiet hreturned).promised]
    · rw [← hlater.failures, Job.countP_raises (hlater.quiet hreturned), Nat.add_zero]
  · have hunder : begun.Underway entry (.perform hearing rest :: jobs) :=
      ⟨[], d.ring.listeners, rfl⟩
    obtain ⟨fuel, hend⟩ := Delivery.run_ends begun hbound
    obtain ⟨n, earlier, hjobs, htrace⟩ := hunder.returns hend
    refine ⟨n, _, _, Onward.start.run n, hjobs, ?_⟩
    rw [htrace]
    simp

/-- The first listener takes out the second one, adds an entry and fails; the second one is heard
all the same, and what it registers hears only of later entries. -/
theorem heard_once_amid_changes :
    let react : Reaction Unit := fun _ listener entry =>
      ((), if entry.id = 1 then
        if listener = "a" then [.unsubscribe "b", .add .received [2], .fail, .clear]
        else [.subscribe "c"]
      else [])
    let d : Delivery Unit := {
      ring := { capacity := 2, listeners := ["a", "b", "a"] }
      memory := ()
      jobs := [.perform none [.add .sent [1], .clear]] }
    let entry := d.ring.nextEntry .sent [1]
    let begun := d.act none [.clear] [] (.add .sent [1])
    History react 2 .stopped d [] ∧
    (∃ later more raised, Onward react begun later more raised ∧
      later.deliveries 1 = [("a", entry), ("b", entry), ("a", entry)] ∧
      later.failures.count 1 = 2) ∧
    ∃ fuel, (begun.run react fuel).jobs = [.perform none [.clear]] := by
  intro react d entry begun
  have hhistory : History react 2 .stopped d [] :=
    .step (.step (.step (.call ()
      [.subscribe "a", .subscribe "b", .subscribe "a", .add .sent [1], .clear] (.start ()))
      rfl) rfl) rfl
  obtain ⟨-, -, -, hheard, hends⟩ := heard_once hhistory rfl
  have honward : Onward react begun (begun.run react 30) (begun.trace react 30)
      (begun.raisings react 30) := Onward.start.run 30
  obtain ⟨-, -, hreturned⟩ := hheard _ _ _ honward
  obtain ⟨hdeliveries, hfailures⟩ := hreturned (by decide)
  have hfew : ∀ fuel, (begun.run react fuel).ring.added ≤ 3 :=
    Delivery.added_le_of_ended (n := 30) (by decide)
  obtain ⟨fuel, more, raised, -, hjobs, -⟩ := hends 3 hfew
  exact ⟨hhistory, ⟨_, _, _, honward, hdeliveries, hfailures.trans (by decide)⟩, fuel, hjobs⟩

end History

end SerialConsole.Log
