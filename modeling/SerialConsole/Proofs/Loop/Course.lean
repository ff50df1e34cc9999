import SerialConsole.Loop.Run
import SerialConsole.Proofs.Loop.Bystanders
import SerialConsole.Proofs.Session.Inbound

set_option autoImplicit false

/-!
# The course of a loop

A `Course` is a run of a loop in surroundings that do as they like: between two steps the platform
may become any other and time may pass, a device may answer a waiting call whenever it wants to, and
who is told of the progress of a script may fail. Once the main task has ended the loop is shut down:
other tasks are cancelled at any time. What happens to the device and the log on the way is a list of
events.
-/
namespace SerialConsole.Session

/-! ## What is read off the events -/

/-- The device call whose answer is awaited at a point. -/
def Point.call? : Point → Option DeviceCall
  | .opening device line => some (.openWith device line)
  | .writing device data => some (.write device data)
  | .cancelling (some device) _ => some (.cancelRead device)
  | .closing (some device) => some (.close device)
  | .reading device => some (.read device)
  | _ => none

/-- The device that was opened. -/
def Event.opened? : Event → Option Handle
  | .answered _ (.openWith _ _) (.failed _) => none
  | .answered _ (.openWith device _) _ => some device
  | _ => none

/-- The devices that were opened, in order. -/
def opened (history : List Event) : List Handle :=
  history.filterMap Event.opened?

/-- The device whose closing was asked for. -/
def Event.closed? : Event → Option Handle
  | .asked _ (.close device) => some device
  | _ => none

/-- The devices that were closed, in order, whether or not that failed. -/
def closed (history : List Event) : List Handle :=
  history.filterMap Event.closed?

/-- Whether a disconnect begins: it tells the device to end a pending read. -/
def Event.isParting : Event → Bool
  | .asked _ (.cancelRead _) => true
  | _ => false

/-- A chunk with something in it that a read got. -/
def Event.data? : Event → Option Bytes
  | .answered _ (.read _) (.chunk (some data)) => if data.isEmpty then none else some data
  | _ => none

/-- The chunks with something in them that reads got before a disconnect began. -/
def taken (history : List Event) : List Bytes :=
  (history.takeWhile fun e => !e.isParting).filterMap Event.data?

/-- A history in which the device failed with ordinary faults only. -/
def Calm (history : List Event) : Prop :=
  ∀ caller call fault, .answered caller call (.failed fault) ∈ history → fault.isOrdinary = true

theorem logged_append (xs ys : List Event) : logged (xs ++ ys) = logged xs ++ logged ys :=
  List.filterMap_append

theorem opened_append (xs ys : List Event) : opened (xs ++ ys) = opened xs ++ opened ys :=
  List.filterMap_append

theorem closed_append (xs ys : List Event) : closed (xs ++ ys) = closed xs ++ closed ys :=
  List.filterMap_append

theorem Calm.left {xs ys : List Event} (h : Calm (xs ++ ys)) : Calm xs :=
  fun caller call fault hmem => h caller call fault (List.mem_append_left ys hmem)

end SerialConsole.Session

namespace SerialConsole.Loop

open Session (Event)

/-- The answer of the device that a task goes on with. -/
def Control.answer? (me : Caller) : Control → Option Event
  | .signal point (.reply reply) => point.call?.map fun call => .answered me call reply
  | _ => none

namespace State

/-- What happens when a task takes a step of the session: the device has answered, entries are
logged, and the task asks the device for something or its call returns. -/
def deeds (l : State) (a : Active) : List Event :=
  match l.sessionStep? a with
  | some step =>
    let me := (l.task a.task).caller
    (a.control.answer? me).toList ++
      ((step.effects.filterMap Effect.logged?).map fun p => .logged p.1) ++ step.pause.events me
  | none => []

/-- What happens in the next step of the loop. -/
def events (l : State) : List Event :=
  match l.active with
  | some a => l.deeds a
  | none => []

inductive Course (start : State) : List Event → State → Prop where
  | start : Course start [] start
  | step {h : List Event} {l next : State} : Course start h l → l.interrupted = none →
    l.step = some next → Course start (h ++ l.events) next
  | jump {h : List Event} {l next : State} : Course start h l → l.step = none →
    l.jump = some next → Course start h next
  | surroundings {h : List Event} {l : State} (platform : Platform) (now : Double) :
    Course start h l → Course start h { l with platform, now }
  | answers {h : List Event} {l : State} {n : Nat} {wait : Wait} : Course start h l →
    l.pendingWait n = some wait → wait.awaited.IsDevice → Course start h (l.wake n .goOn)
  | balks {h : List Event} {l : State} {n position total : Nat} {job : Job} {stage : Script.Stage}
      {progress : Script.Progress} {frames : List Frame} (fault : Fault) : Course start h l →
    l.active = some ⟨n, .turn job (.asks (.announce position total) stage progress), frames⟩ →
    Course start h (l.goOn n (.turn job (job.plan.resume stage progress (.failed fault))) frames)
  | leaves {h : List Event} {l : State} : Course start h l → (l.resultOf 0).isSome →
    Course start h { l with active := none, interrupted := none }
  | cancels {h : List Event} {l : State} (n : Nat) : Course start h l → (l.resultOf 0).isSome →
    Course start h (l.cancel n)

/-! ## The runs of the loop itself -/

/-- A relation of histories and states that every step and every move of time keeps. -/
structure Onward (R : List Event → State → Prop) : Prop where
  step : ∀ {h : List Event} {l next : State}, R h l → l.interrupted = none → l.step = some next →
    R (h ++ l.events) next
  jump : ∀ {h : List Event} {l next : State}, R h l → l.step = none → l.jump = some next → R h next

variable {R : List Event → State → Prop} {start l : State} {h : List Event}

theorem Onward.awaitWithin (hR : Onward R) (hl : R h l) (n fuel : Nat) :
    ∃ events, R (h ++ events) (l.awaitWithin n fuel) := by
  induction fuel generalizing h l with
  | zero => exact ⟨[], (List.append_nil h).symm ▸ hl⟩
  | succ fuel ih =>
    unfold State.awaitWithin
    split
    case isTrue => exact ⟨[], (List.append_nil h).symm ▸ hl⟩
    case isFalse hgoes =>
      rw [Bool.or_eq_true, not_or, Bool.not_eq_true, Bool.not_eq_true, Option.isSome_eq_false_iff,
        Option.isSome_eq_false_iff, Option.isNone_iff_eq_none, Option.isNone_iff_eq_none] at hgoes
      split
      case h_1 next hstep =>
        obtain ⟨events, hnext⟩ := ih (hR.step hl hgoes.2 hstep)
        exact ⟨l.events ++ events, List.append_assoc h _ _ ▸ hnext⟩
      case h_2 hstep =>
        split
        case h_1 next hjump => exact ih (hR.jump hl hstep hjump)
        case h_2 => exact ⟨[], (List.append_nil h).symm ▸ hl⟩

theorem Onward.awaitAll (hR : Onward R) (hl : R h l) (count : Nat) :
    ∃ events, R (h ++ events) (awaitAll count l) := by
  induction count generalizing h l with
  | zero => exact ⟨[], (List.append_nil h).symm ▸ hl⟩
  | succ count ih =>
    unfold State.awaitAll
    split
    case h_1 n _ =>
      obtain ⟨first, hfirst⟩ := hR.awaitWithin hl n patience
      obtain ⟨rest, hrest⟩ := ih hfirst
      exact ⟨first ++ rest, List.append_assoc h _ _ ▸ hrest⟩
    case h_2 => exact ⟨[], (List.append_nil h).symm ▸ hl⟩

/-- Cancelling all keeps what cancelling one keeps. -/
theorem cancelAll_keeps {Q : State → Prop} (hQ : ∀ l n, Q l → Q (l.cancel n)) (hl : Q l) :
    Q l.cancelAll := by
  unfold State.cancelAll
  generalize List.range l.tasks.size = tasks
  induction tasks generalizing l with
  | nil => exact hl
  | cons n rest ih =>
    rw [List.foldl_cons]
    split
    · exact ih hl
    · exact ih (hQ l n hl)

theorem Course.onward : Onward (Course start) :=
  ⟨.step, .jump⟩

/-- Running on until a task has ended goes on with a course. -/
theorem Course.awaitWithin (hcourse : Course start h l) (n fuel : Nat) :
    ∃ events, Course start (h ++ events) (l.awaitWithin n fuel) :=
  Course.onward.awaitWithin hcourse n fuel

theorem resultOf_modifyTask (l : State) (n m : Nat) {f : Task → Task}
    (hf : ∀ t, (f t).result = t.result) : (l.modifyTask n f).resultOf m = l.resultOf m := by
  unfold resultOf
  rw [task_modifyTask]
  split
  · exact hf _
  · rfl

theorem resultOf_wake (l : State) (n m : Nat) (tell : Tell) :
    (l.wake n tell).resultOf m = l.resultOf m := by
  unfold wake
  split
  · exact resultOf_modifyTask l n m fun _ => rfl
  · rfl

theorem resultOf_cancelWaiting (l : State) (n m : Nat) :
    (l.cancelWaiting n).resultOf m = l.resultOf m := by
  unfold cancelWaiting
  dsimp only
  split
  · rfl
  · split
    · exact resultOf_wake l n m .cancelled
    · exact resultOf_modifyTask l n m fun _ => rfl

/-- Nobody loses a result by being cancelled. -/
theorem resultOf_cancel (l : State) (n m : Nat) : (l.cancel n).resultOf m = l.resultOf m := by
  unfold cancel
  split <;> exact resultOf_cancelWaiting l _ m

theorem Course.cancelAll (hcourse : Course start h l) (hover : (l.resultOf 0).isSome) :
    Course start h l.cancelAll :=
  (cancelAll_keeps (Q := fun l => Course start h l ∧ (l.resultOf 0).isSome)
    (fun l n hl => ⟨hl.1.cancels n hl.2, resultOf_cancel l n 0 ▸ hl.2⟩) ⟨hcourse, hover⟩).1

/-- When the main task has ended, shutting down goes on with a course. -/
theorem Course.shutDown (hcourse : Course start h l) (hover : (l.resultOf 0).isSome) :
    ∃ events, Course start (h ++ events) l.shutDown :=
  Course.onward.awaitAll ((hcourse.leaves hover).cancelAll hover) _

end State

end SerialConsole.Loop
