import SerialConsole.Proofs.Loop.Ledger

set_option autoImplicit false

/-!
# Following the traffic

Who is registered at the log once hears of every entry once, in whatever way the loop goes on. A
`Passage` is a run that can be broken off: unlike in a course, an interrupt may leave the loop and
tasks may be cancelled at any time. Only a step of the session adds to the log and is heard of;
everything else leaves both alone, the registration of a counter apart (`Still`). So the followed
entries are the logged ones along every passage (`Passage.followed`).
-/
namespace SerialConsole.Loop

open SerialConsole.Session (logged)
open Session (Event)

namespace State

variable {l next : State}

/-! ## The record -/

/-- The session, and what was heard of its log. -/
def record (l : State) : Session × Array (Log.Listener × Log.Entry) :=
  (l.session, l.heard)

@[simp] theorem record_goOn (l : State) (n : Nat) (control : Control) (frames : List Frame) :
    (l.goOn n control frames).record = l.record :=
  rfl

@[simp] theorem record_suspend (l : State) (n : Nat) (frames : List Frame) (awaited : Awaited) :
    (l.suspend n frames awaited).record = l.record :=
  rfl

@[simp] theorem record_suspendFor (l : State) (n : Nat) (frames : List Frame) (awaited : Awaited)
    (seconds : Double) : (l.suspendFor n frames awaited seconds).record = l.record :=
  rfl

@[simp] theorem record_wake (l : State) (n : Nat) (tell : Tell) :
    (l.wake n tell).record = l.record := by
  unfold wake
  split <;> rfl

@[simp] theorem record_offerInput (l : State) : l.offerInput.record = l.record := by
  unfold offerInput
  split
  · split
    · exact record_wake l _ .goOn
    · rfl
  · rfl

@[simp] theorem record_cancelWaiting (l : State) (n : Nat) :
    (l.cancelWaiting n).record = l.record := by
  unfold cancelWaiting
  dsimp only
  split
  · rfl
  · split
    · exact record_wake l n .cancelled
    · rfl

@[simp] theorem record_cancel (l : State) (n : Nat) : (l.cancel n).record = l.record := by
  unfold cancel
  split <;> exact record_cancelWaiting l _

@[simp] theorem record_watch (l : State) (watched n : Nat) (direct : Bool) :
    (l.watch watched n direct).record = l.record := by
  unfold watch
  dsimp only
  split <;> rfl

@[simp] theorem record_abandon (l : State) (n : Nat) (frames : List Frame) (other : Nat)
    (fault : Option Fault) : (l.abandon n frames other fault).record = l.record := by
  simp [abandon]

theorem record_told (l : State) (watchers : List Watcher) (outcome : Outcome) :
    (watchers.foldl (fun l watcher =>
      if watcher.direct then l.wake watcher.task (.result outcome)
      else l.enqueue (.settle watcher.task watcher.ticket (.result outcome))) l).record =
      l.record := by
  induction watchers generalizing l with
  | nil => rfl
  | cons watcher rest ih =>
    rw [List.foldl_cons, ih]
    split
    · exact record_wake l _ _
    · rfl

@[simp] theorem record_endTask (l : State) (n : Nat) (outcome : Outcome) :
    (l.endTask n outcome).record = l.record := by
  unfold endTask
  dsimp only
  split
  · split
    · exact record_told _ _ _
    · exact record_told _ _ _
  · exact record_told _ _ _

@[simp] theorem record_askDevice (l : State) (n : Nat) (frames : List Frame) (request : DeviceCall)
    (point : Session.Point) : (l.askDevice n frames request point).record = l.record := by
  unfold askDevice
  generalize l.platform.call request = answer
  obtain ⟨platform, response⟩ := answer
  cases response <;> exact record_offerInput _

@[simp] theorem record_resumeSession (l : State) (n : Nat) (frames : List Frame)
    (point : Session.Point) (awaited : Awaited) (tell : Tell) :
    (l.resumeSession n frames point awaited tell).record = l.record := by
  unfold resumeSession
  split
  · rfl
  · split
    case h_2 => exact record_offerInput _
    case h_3 => split <;> rfl
    case h_6 => split <;> rfl
    all_goals rfl

@[simp] theorem record_resume (l : State) (n : Nat) (wait : Wait) (tell : Tell) :
    (l.resume n wait tell).record = l.record := by
  unfold resume
  dsimp only
  split
  case h_1 => exact record_resumeSession ..
  case h_2 =>
    split
    · rfl
    · exact record_abandon ..
  case h_3 =>
    cases tell with
    | cancelled => rfl
    | _ =>
      rw [if_neg Bool.false_ne_true]
      split <;> rfl
  case h_4 => rfl
  case h_5 => rfl

@[simp] theorem record_runReady (l : State) (ready : Ready) :
    (l.runReady ready).record = l.record := by
  unfold runReady
  split
  case h_1 =>
    dsimp only
    split <;> rfl
  case h_2 =>
    split
    · split
      · exact record_wake l _ _
      · rfl
    · rfl
  case h_3 =>
    split
    · split
      · exact record_resume ..
      · rfl
    · rfl

theorem record_jump (h : l.jump = some next) : next.record = l.record := by
  unfold jump at h
  split at h
  · cases h
  · cases h
    rfl

/-! ## Steps of the session -/

theorem told_cons (e : Effect) (effects : List Effect) :
    told (e :: effects) = told [e] ++ told effects := by
  rw [told, told, told, ← List.flatMap_append, ← List.filterMap_append, List.singleton_append]

theorem record_effect (l : State) (e : Effect) :
    (l.effect e).record = (l.session, l.heard ++ (told [e]).toArray) := by
  have hnothing : l.record = (l.session, l.heard ++ #[]) := by
    rw [Array.append_empty]
    rfl
  cases e with
  | note note => exact hnothing
  | logged entry listeners => simp [effect, record, told, Effect.logged?]
  | wake caller =>
    unfold effect
    dsimp only
    split
    · exact (record_wake l _ .goOn).trans hnothing
    · exact hnothing
  | startReader connection device => exact hnothing
  | cancelReader connection => exact (record_cancel l _).trans hnothing

theorem record_effects (l : State) (effects : List Effect) :
    (effects.foldl effect l).record = (l.session, l.heard ++ (told effects).toArray) := by
  induction effects generalizing l with
  | nil =>
    rw [List.foldl_nil, told, List.filterMap_nil, List.flatMap_nil, Array.append_empty]
    rfl
  | cons e rest ih =>
    have hfirst := record_effect l e
    rw [record, Prod.mk.injEq] at hfirst
    rw [List.foldl_cons, ih, hfirst.1, hfirst.2, told_cons e rest, Array.append_assoc,
      List.append_toArray (told [e])]

/-- A step of the session is all that a task does to the session, and what it tells is all that is
heard. -/
theorem record_absorb (l : State) (n : Nat) (frames : List Frame) (step : Session.Step) :
    (l.absorb n frames step).record =
      (step.session, l.heard ++ (told step.effects).toArray) := by
  have heffects := record_effects { l with session := step.session, active := none } step.effects
  unfold absorb
  generalize step.effects.foldl effect { l with session := step.session, active := none } = after
    at heffects
  dsimp only
  split
  case h_5 => split <;> simp [heffects]
  case h_6 => split <;> simp [heffects]
  all_goals simp [heffects]

/-! ## Everything else -/

/-- Nothing was logged, nothing was heard of, and nobody was registered or taken out but a
counter. -/
structure Still (l next : State) : Prop where
  heard : next.heard = l.heard
  log : ∃ listeners, next.session.log = { l.session.log with listeners }
  others : ∀ listener, listener ≠ counter →
    next.session.log.listeners.count listener = l.session.log.listeners.count listener

theorem still_of_listeners {listeners : List Log.Listener}
    (h : next.record =
      ({ l.session with log := { l.session.log with listeners } }, l.heard))
    (hothers : ∀ listener, listener ≠ counter →
      listeners.count listener = l.session.log.listeners.count listener) : l.Still next := by
  rw [record, Prod.mk.injEq] at h
  refine ⟨h.2, ⟨listeners, by rw [h.1]⟩, fun listener hlistener => ?_⟩
  rw [h.1]
  exact hothers listener hlistener

theorem still_of_record (h : next.record = l.record) : l.Still next :=
  still_of_listeners h fun _ _ => rfl

theorem listen_still (l : State) (n : Nat) (frames : List Frame) (duration : Option Double) :
    l.Still (l.listen n frames duration) := by
  have hothers : ∀ listener, listener ≠ counter →
      (l.session.log.subscribe counter).listeners.count listener =
        l.session.log.listeners.count listener := by
    intro listener hlistener
    rw [Log.Ring.subscribe, List.count_append, List.count_singleton,
      if_neg (by simpa using hlistener.symm), Nat.add_zero]
  refine still_of_listeners ?_ hothers
  unfold listen
  cases duration with
  | none => rfl
  | some seconds =>
    dsimp only
    split
    · exact record_watch ..
    · rw [record_watch, record_suspend, record_cancel]
      rfl

theorem begin_still {action : Action} (n : Nat) (frames : List Frame)
    (h : l.sessionStep? ⟨n, .begin action, frames⟩ = none) : l.Still (l.begin n frames action) := by
  cases action with
  | listen duration => exact listen_still l n frames duration
  | connect | send | sendData | disconnect | waitClosed => cases h
  | run script format ending =>
    apply still_of_record
    unfold begin
    dsimp only
    split <;> rfl
  | sleep seconds =>
    apply still_of_record
    unfold begin
    dsimp only
    split
    · rfl
    · exact record_wake ..
  | feed items =>
    apply still_of_record
    exact record_offerInput _
  | letGo gate =>
    apply still_of_record
    unfold begin
    dsimp only
    split
    · exact record_wake ..
    · rfl
  | inOrder steps | scope steps => cases steps <;> exact still_of_record rfl
  | stop | adjust | exportLog => exact still_of_record rfl

theorem takeTurn_still (l : State) (n : Nat) (frames : List Frame) (job : Job)
    (turn : Script.Turn) : l.Still (l.takeTurn n frames job turn) := by
  apply still_of_record
  cases turn with
  | finished outcome => rfl
  | asks request stage progress => cases request <;> rfl

theorem stopListening_still (l : State) (outcome : Outcome) :
    l.Still (l.stopListening outcome).1 := by
  refine still_of_listeners ?_ fun listener hlistener => List.count_erase_of_ne hlistener
  unfold stopListening
  cases outcome with
  | error fault => rfl
  | ok value =>
    dsimp only
    split <;> rfl

theorem give_still (l : State) (n : Nat) (outcome : Outcome) (frames : List Frame) :
    l.Still (l.give n outcome frames) := by
  cases frames with
  | nil => exact still_of_record (record_endTask ..)
  | cons frame frames =>
    cases frame with
    | listening =>
      have hstill := stopListening_still l outcome
      exact ⟨hstill.heard, hstill.log, hstill.others⟩
    | inOrder rest values =>
      apply still_of_record
      cases outcome with
      | ok value => cases rest <;> rfl
      | error fault => rfl
    | inScope rest values =>
      apply still_of_record
      cases outcome with
      | ok value => cases rest <;> rfl
      | error fault => rfl
    | leaving kept =>
      apply still_of_record
      cases outcome <;> rfl
    | _ => exact still_of_record rfl

theorem advance_still {a : Active} (h : l.sessionStep? a = none) : l.Still (l.advance a) := by
  obtain ⟨n, control, frames⟩ := a
  cases control with
  | begin action => exact begin_still n frames h
  | readLoop | signal => cases h
  | turn job turn => exact takeTurn_still l n frames job turn
  | give outcome => exact give_still l n outcome frames

/-- A step of the loop is one of the session, or nothing happens and the record is left alone. -/
theorem step_cases (h : l.step = some next) :
    (∃ a step, l.events = l.deeds a ∧ l.sessionStep? a = some step ∧
      next.record = (step.session, l.heard ++ (told step.effects).toArray)) ∨
    l.events = [] ∧ l.Still next := by
  unfold step at h
  split at h
  case h_1 a hactive =>
    obtain rfl : l.advance a = next := Option.some.inj h
    have hevents : l.events = l.deeds a := by rw [events, hactive]
    cases hstep : l.sessionStep? a with
    | some step =>
      refine Or.inl ⟨a, step, hevents, hstep, ?_⟩
      rw [advance_absorb hstep]
      exact record_absorb ..
    | none =>
      refine Or.inr ⟨?_, advance_still hstep⟩
      rw [hevents, deeds, hstep]
  case h_2 hactive =>
    have hevents : l.events = [] := by rw [events, hactive]
    refine Or.inr ⟨hevents, still_of_record ?_⟩
    split at h
    case h_1 ready rest _ =>
      cases h
      exact record_runReady _ ready
    case h_2 =>
      split at h
      · cases h
      · cases h
        rfl

/-! ## Passages -/

/-- A run in surroundings that do as they like, which can be broken off at any time. -/
inductive Passage (start : State) : List Event → State → Prop where
  | start : Passage start [] start
  | step {h : List Event} {l next : State} : Passage start h l → l.interrupted = none →
    l.step = some next → Passage start (h ++ l.events) next
  | jump {h : List Event} {l next : State} : Passage start h l → l.step = none →
    l.jump = some next → Passage start h next
  | surroundings {h : List Event} {l : State} (platform : Platform) (now : Double) :
    Passage start h l → Passage start h { l with platform, now }
  | answers {h : List Event} {l : State} {n : Nat} {wait : Wait} : Passage start h l →
    l.pendingWait n = some wait → wait.awaited.IsDevice → Passage start h (l.wake n .goOn)
  | balks {h : List Event} {l : State} {n position total : Nat} {job : Job} {stage : Script.Stage}
      {progress : Script.Progress} {frames : List Frame} (fault : Fault) : Passage start h l →
    l.active = some ⟨n, .turn job (.asks (.announce position total) stage progress), frames⟩ →
    Passage start h (l.goOn n (.turn job (job.plan.resume stage progress (.failed fault))) frames)
  | interrupts {h : List Event} {l : State} (interrupted : Option Fault) : Passage start h l →
    Passage start h { l with active := none, interrupted }
  | cancels {h : List Event} {l : State} (n : Nat) : Passage start h l →
    Passage start h (l.cancel n)

variable {start : State} {h : List Event}

theorem Passage.onward : Onward (Passage start) :=
  ⟨.step, .jump⟩

/-- Running a loop until a task has ended, and shutting it down then, is a passage, also if the task
has not ended by then. -/
theorem Passage.awaited_shutDown (start : State) (n : Nat) :
    ∃ events, Passage start events (start.await n).shutDown := by
  have hstart : Passage start [] start := .start
  obtain ⟨first, hfirst⟩ := Passage.onward.awaitWithin hstart n patience
  have hcancelled := cancelAll_keeps (fun _ n hl => hl.cancels n) (hfirst.interrupts none)
  obtain ⟨rest, hrest⟩ := Passage.onward.awaitAll hcancelled
    ({ start.await n with active := none, interrupted := none } : State).cancelAll.tasks.size
  exact ⟨_, hrest⟩

/-! ## What is followed -/

/-- A listener is registered once, and what it has heard of is what the log has grown by. -/
structure Followed (ring : Log.Ring) (listener : Log.Listener) (h : List Event) (l : State) :
    Prop where
  grows : ring.Grows (logged h) { l.session.log with listeners := ring.listeners }
  heard : hearings l.heard listener = logged h
  once : l.session.log.listeners.count listener = 1

namespace Followed

variable {ring : Log.Ring} {listener : Log.Listener}

theorem still (hl : Followed ring listener h l) (hlistener : listener ≠ counter)
    (hstill : l.Still next) : Followed ring listener h next := by
  obtain ⟨listeners, hlog⟩ := hstill.log
  refine ⟨?_, hstill.heard ▸ hl.heard, (hstill.others listener hlistener).trans hl.once⟩
  rw [hlog]
  exact hl.grows

theorem sessionStep (hl : Followed ring listener h l) {a : Active} {step : Session.Step}
    (hstep : l.sessionStep? a = some step)
    (hnext : next.record = (step.session, l.heard ++ (told step.effects).toArray)) :
    Followed ring listener (h ++ l.deeds a) next := by
  rw [record, Prod.mk.injEq] at hnext
  obtain ⟨hsession, hheard⟩ := hnext
  refine ⟨?_, ?_, ?_⟩
  · rw [Session.logged_append, hsession]
    exact grows_of_sessionStep hstep hl.grows
  · rw [Session.logged_append, hheard, hearings_once hstep hl.once, hl.heard]
  · rw [hsession, (logs_of_sessionStep hstep).log]
    cases l.payload? a <;> exact hl.once

end Followed

/-- Who follows the traffic at the start of a passage has followed all of it. -/
theorem Passage.followed (hpassage : Passage start h l) {ring : Log.Ring}
    {listener : Log.Listener} (hstart : Followed ring listener [] start)
    (hlistener : listener ≠ counter) : Followed ring listener h l := by
  -- of all that happens, only a step of the session adds to the history, the log and what is heard
  induction hpassage with
  | start => exact hstart
  | step _ _ hstep ih =>
    rcases step_cases hstep with ⟨a, step, hevents, hsession, hrecord⟩ | ⟨hevents, hstill⟩
    · exact hevents ▸ ih.sessionStep hsession hrecord
    · rw [hevents, List.append_nil]
      exact ih.still hlistener hstill
  | jump _ _ hjump ih => exact ih.still hlistener (still_of_record (record_jump hjump))
  | surroundings platform now _ ih => exact ih.still hlistener (still_of_record rfl)
  | answers _ _ _ ih => exact ih.still hlistener (still_of_record (record_wake _ _ .goOn))
  | balks fault _ _ ih => exact ih.still hlistener (still_of_record rfl)
  | interrupts interrupted _ ih => exact ih.still hlistener (still_of_record rfl)
  | cancels n _ ih => exact ih.still hlistener (still_of_record (record_cancel _ n))

end State

end SerialConsole.Loop
