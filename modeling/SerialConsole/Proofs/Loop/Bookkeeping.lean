import SerialConsole.Loop.Step
import SerialConsole.Proofs.Session.Asides

set_option autoImplicit false

/-!
# The bookkeeping of the event loop

Task 0 of a loop is its main task. The others are bystanders: read loops and waits for the end of
reading (`Task.Helps`). `Orderly` says that there are no other tasks and that nobody cancels the
main task. Most of what the loop does is bookkeeping: it wakes tasks, starts bystanders and cancels
them. That keeps the loop orderly and changes nothing that can be seen of a task (`Tended`).
-/
namespace SerialConsole.Loop

/-- What can be seen of a task from outside: what it still has to do, what it waits for, and its
result. -/
structure Gist where
  frames : List Frame := []
  awaited : Option Awaited := none
  result : Option Outcome := none

def Task.gist (t : Task) : Gist :=
  ⟨t.frames, t.wait.map Wait.awaited, t.result⟩

section

variable (P : Fault → Prop)

/-- An outcome that is no fault but one of some faults. -/
def Outcome.Within (outcome : Outcome) : Prop :=
  ∀ fault, outcome = .error fault → P fault

/-- A signal that brings no result of a read loop but one within some faults. -/
def Signal.Within (signal : Session.Signal) : Prop :=
  ∀ fault, signal = .joined (.error fault) → P fault

/-- Where a bystander can wait. Read loops exist only if `reads`. -/
def Point.Helps (reads : Prop) (point : Session.Point) : Prop :=
  (reads ∧ point.sideline? = some .reading) ∨ point.sideline? = some .awaiting

/-- What a bystander can do next. -/
def Control.Helps (reads : Prop) : Control → Prop
  | .begin .waitClosed => True
  | .readLoop _ => reads
  | .signal point s => Point.Helps reads point ∧ Signal.Within P s
  | .give outcome => Outcome.Within P outcome
  | _ => False

/-- What a bystander can wait for. It waits for the end of no task but another bystander. -/
def Awaited.Helps : Awaited → Prop
  | .endOf task => task ≠ 0
  | .resultOf _ => False
  | _ => True

/-- A task that reads, or that waits for the end of reading; it fails only with some faults. -/
structure Task.Helps (reads : Prop) (t : Task) : Prop where
  first : t.first.Helps P reads
  frames : t.frames = [] ∨ ∃ point, t.frames = [.session point] ∧ Point.Helps reads point
  awaited : ∀ wait, t.wait = some wait → wait.awaited.Helps
  result : ∀ outcome, t.result = some outcome → outcome.Within P

/-- What the main task can be told. -/
def Tell.Fair : Tell → Prop
  | .goOn => True
  | .result outcome => Outcome.Within P outcome
  | .cancelled => False

/-- Something that may run in a turn once the main task has started. -/
def Ready.Fair : Ready → Prop
  | .start n => n ≠ 0
  | .settle n _ tell | .wake n _ tell => n = 0 → tell.Fair P

namespace State

/-- All tasks but the main one are bystanders. Nobody cancels the main task or waits for its end. -/
structure Orderly (l : State) : Prop where
  started : 0 < l.tasks.size
  uncancelled : (l.task 0).mustCancel = false
  unwatched : (l.task 0).watchers = []
  helps : ∀ n, n ≠ 0 → (l.task n).Helps P (0 < l.readers.size)
  tells : ∀ ready ∈ l.batch ++ l.queued.toList, ready.Fair P

/-- The state after some bookkeeping. -/
structure Tended (l next : State) : Prop where
  active : next.active = l.active
  session : next.session = l.session
  readers : next.readers = l.readers
  heard : next.heard = l.heard
  gist : ∀ n, (next.task n).gist = (l.task n).gist
  orderly : l.Orderly P → next.Orderly P

end State

end

section

variable {P Q : Fault → Prop} {reads : Prop} {t : Task}

theorem Outcome.Within.mono {outcome : Outcome} (h : outcome.Within P) (hPQ : ∀ f, P f → Q f) :
    outcome.Within Q :=
  fun fault hfault => hPQ fault (h fault hfault)

theorem Outcome.within_ok (value : Value) : Outcome.Within P (.ok value) :=
  fun _ hfault => nomatch hfault

theorem Point.Helps.mono {more : Prop} {point : Session.Point} (h : Point.Helps reads point)
    (hmore : reads → more) : Point.Helps more point :=
  h.imp (fun hreads => ⟨hmore hreads.1, hreads.2⟩) id

theorem Control.Helps.mono {more : Prop} {control : Control} (h : control.Helps P reads)
    (hPQ : ∀ f, P f → Q f) (hmore : reads → more) : control.Helps Q more := by
  cases control with
  | begin action =>
    cases action with
    | waitClosed => exact h
    | _ => exact h.elim
  | readLoop device => exact hmore h
  | signal point signal =>
    exact ⟨Point.Helps.mono h.1 hmore, fun fault hfault => hPQ fault (h.2 fault hfault)⟩
  | turn job turn => exact h.elim
  | give outcome => exact Outcome.Within.mono h hPQ

theorem Task.Helps.mono {more : Prop} (h : t.Helps P reads) (hPQ : ∀ f, P f → Q f)
    (hmore : reads → more) : t.Helps Q more := by
  refine ⟨h.first.mono hPQ hmore, ?_, h.awaited, fun o ho => (h.result o ho).mono hPQ⟩
  rcases h.frames with hnil | ⟨point, hframes, hpoint⟩
  · exact .inl hnil
  · exact .inr ⟨point, hframes, hpoint.mono hmore⟩

/-- A task that does not exist yet. -/
theorem helps_default : (default : Task).Helps P reads :=
  ⟨Outcome.within_ok _, .inl rfl, nofun, nofun⟩

theorem Tell.Fair.mono {tell : Tell} (h : tell.Fair P) (hPQ : ∀ f, P f → Q f) : tell.Fair Q := by
  cases tell with
  | goOn => exact h
  | result outcome => exact Outcome.Within.mono h hPQ
  | cancelled => exact h

theorem Ready.Fair.mono {ready : Ready} (h : ready.Fair P) (hPQ : ∀ f, P f → Q f) :
    ready.Fair Q := by
  cases ready with
  | start n => exact h
  | settle n ticket tell => exact fun hn => Tell.Fair.mono (h hn) hPQ
  | wake n ticket tell => exact fun hn => Tell.Fair.mono (h hn) hPQ

namespace State

variable {l next last : State} {n m : Nat}

theorem Orderly.mono (h : l.Orderly P) (hPQ : ∀ f, P f → Q f) : l.Orderly Q :=
  ⟨h.started, h.uncancelled, h.unwatched, fun n hn => (h.helps n hn).mono hPQ id,
    fun ready hready => (h.tells ready hready).mono hPQ⟩

theorem Tended.refl (l : State) : l.Tended P l :=
  ⟨rfl, rfl, rfl, rfl, fun _ => rfl, id⟩

theorem Tended.trans (h : l.Tended P next) (h' : next.Tended P last) : l.Tended P last :=
  ⟨h'.active.trans h.active, h'.session.trans h.session, h'.readers.trans h.readers,
    h'.heard.trans h.heard, fun n => (h'.gist n).trans (h.gist n), fun ho => h'.orderly (h.orderly ho)⟩

/-! ## Single operations -/

theorem task_modifyTask (l : State) (n m : Nat) (f : Task → Task) :
    (l.modifyTask n f).task m = if m = n ∧ m < l.tasks.size then f (l.task m) else l.task m := by
  simp only [task, modifyTask, Array.getD_eq_getD_getElem?, Array.getElem?_modify]
  by_cases h : n = m
  · subst h
    by_cases hn : n < l.tasks.size
    · simp [hn]
    · simp [hn]
  · rw [if_neg h, if_neg (fun h' => h h'.1.symm)]

theorem size_modifyTask (l : State) (n : Nat) (f : Task → Task) :
    (l.modifyTask n f).tasks.size = l.tasks.size :=
  Array.size_modify

/-- A change of one task that cannot be seen. -/
theorem modifyTask_tended {f : Task → Task} (hgist : (f (l.task n)).gist = (l.task n).gist)
    (hfirst : (f (l.task n)).first = (l.task n).first)
    (hcancel : n = 0 → (f (l.task n)).mustCancel = (l.task n).mustCancel)
    (hwatch : n = 0 → (f (l.task n)).watchers = (l.task n).watchers) :
    l.Tended P (l.modifyTask n f) := by
  refine ⟨rfl, rfl, rfl, rfl, fun m => ?_, fun ho => ⟨?_, ?_, ?_, fun m hm => ?_, ho.tells⟩⟩
  · rw [task_modifyTask]
    split
    case isTrue h => rw [h.1, hgist]
    case isFalse => rfl
  · rw [size_modifyTask]
    exact ho.started
  · rw [task_modifyTask]
    split
    case isTrue h => rw [h.1, hcancel h.1.symm, ← h.1, ho.uncancelled]
    case isFalse => exact ho.uncancelled
  · rw [task_modifyTask]
    split
    case isTrue h => rw [h.1, hwatch h.1.symm, ← h.1, ho.unwatched]
    case isFalse => exact ho.unwatched
  · rw [task_modifyTask]
    split
    case isFalse => exact ho.helps m hm
    case isTrue h =>
      have hold := ho.helps m hm
      rw [h.1] at hold ⊢
      have hframes : (f (l.task n)).frames = (l.task n).frames := congrArg Gist.frames hgist
      have hwait : (f (l.task n)).wait.map Wait.awaited = (l.task n).wait.map Wait.awaited :=
        congrArg Gist.awaited hgist
      have hresult : (f (l.task n)).result = (l.task n).result := congrArg Gist.result hgist
      refine ⟨hfirst.symm ▸ hold.first, hframes.symm ▸ hold.frames, fun wait h => ?_,
        hresult.symm ▸ hold.result⟩
      rw [h, Option.map_some] at hwait
      obtain ⟨old, hsome, heq⟩ := Option.map_eq_some_iff.1 hwait.symm
      rw [← heq]
      exact hold.awaited old hsome

theorem enqueue_tended {ready : Ready} (h : ready.Fair P) : l.Tended P (l.enqueue ready) := by
  refine ⟨rfl, rfl, rfl, rfl, fun _ => rfl,
    fun ho => ⟨ho.started, ho.uncancelled, ho.unwatched, ho.helps, fun r hr => ?_⟩⟩
  rw [enqueue, Array.toList_push, ← List.append_assoc] at hr
  rcases List.mem_append.1 hr with hold | hnew
  · exact ho.tells r hold
  · rw [List.mem_singleton.1 hnew]
    exact h

theorem wait_of_pendingWait {wait : Wait} (h : l.pendingWait n = some wait) :
    (l.task n).wait = some wait := by
  rw [pendingWait, Option.filter_eq_some_iff] at h
  exact h.1

theorem wake_tended {tell : Tell} (h : n = 0 → tell.Fair P) : l.Tended P (l.wake n tell) := by
  unfold wake
  cases hwait : l.pendingWait n with
  | none => exact .refl l
  | some wait =>
    have hold := wait_of_pendingWait hwait
    refine Tended.trans (modifyTask_tended ?_ rfl (fun _ => rfl) fun _ => rfl) (enqueue_tended h)
    simp only [Task.gist, hold]
    rfl

theorem spawn_tended {caller : Caller} {first : Control}
    (h : first.Helps P (0 < l.readers.size)) : l.Tended P (l.spawn caller first).1 := by
  have htask : ∀ m, (l.spawn caller first).1.task m =
      if m = l.tasks.size then { caller, first } else l.task m := by
    intro m
    simp only [spawn, task, enqueue, Array.getD_eq_getD_getElem?, Array.getElem?_push]
    split <;> rfl
  refine ⟨rfl, rfl, rfl, rfl, fun m => ?_, fun ho => ⟨?_, ?_, ?_, fun m hm => ?_, fun r hr => ?_⟩⟩
  · rw [htask]
    split
    case isTrue hm => simp [task, hm, Task.gist, default]
    case isFalse => rfl
  · simp [spawn, enqueue]
  · rw [htask, if_neg (Nat.ne_of_lt ho.started)]
    exact ho.uncancelled
  · rw [htask, if_neg (Nat.ne_of_lt ho.started)]
    exact ho.unwatched
  · rw [htask]
    split
    case isTrue => exact ⟨h, .inl rfl, nofun, nofun⟩
    case isFalse => exact ho.helps m hm
  · simp only [spawn, enqueue, Array.toList_push, ← List.append_assoc] at hr
    rcases List.mem_append.1 hr with hold | hnew
    · exact ho.tells r hold
    · rw [List.mem_singleton.1 hnew]
      exact Nat.ne_of_gt ho.started

theorem cancelWaiting_tended (hn : n ≠ 0) : l.Tended P (l.cancelWaiting n) := by
  unfold cancelWaiting
  dsimp only
  split
  · exact .refl l
  · split
    · exact wake_tended fun h => absurd h hn
    · exact modifyTask_tended rfl rfl (fun h => absurd h hn) fun h => absurd h hn

/-- A bystander is cancelled, or something that it waits for: it waits for no other task. -/
theorem cancel_tended (hn : n ≠ 0) (ho : l.Orderly P) : l.Tended P (l.cancel n) := by
  unfold cancel
  split
  case h_1 ticket m pending hwait =>
    exact ((ho.helps n hn).awaited _ (wait_of_pendingWait hwait)).elim
  case h_2 => exact cancelWaiting_tended hn

theorem watch_tended {watched : Nat} (hwatched : watched ≠ 0) (direct : Bool) :
    l.Tended P (l.watch watched n direct) := by
  unfold watch
  dsimp only
  split
  · exact enqueue_tended fun _ => trivial
  · exact modifyTask_tended rfl rfl (fun _ => rfl) fun h => absurd h hwatched

theorem offerInput_tended : l.Tended P l.offerInput := by
  unfold offerInput
  split
  · split
    · exact wake_tended fun _ => trivial
    · exact .refl l
  · exact .refl l

theorem fireTimers_tended : l.Tended P l.fireTimers := by
  refine ⟨rfl, rfl, rfl, rfl, fun _ => rfl,
    fun ho => ⟨ho.started, ho.uncancelled, ho.unwatched, ho.helps, fun r hr => ?_⟩⟩
  simp only [fireTimers, Array.toList_append, ← List.append_assoc, List.mem_append] at hr
  rcases hr with hold | hnew
  · exact ho.tells r (List.mem_append.2 hold)
  · simp only [Array.toList_map, List.mem_map] at hnew
    obtain ⟨timer, _, rfl⟩ := hnew
    exact fun _ => trivial

theorem startTurn_tended : l.Tended P l.startTurn := by
  refine fireTimers_tended.trans ⟨rfl, rfl, rfl, rfl, fun _ => rfl,
    fun ho => ⟨ho.started, ho.uncancelled, ho.unwatched, ho.helps, fun r hr => ?_⟩⟩
  simp only [startTurn, List.append_nil] at hr
  exact ho.tells r (List.mem_append_right _ hr)

/-! ## Effects -/

/-- What the effects tell those who listen to the log. -/
def told (effects : List Effect) : List (Log.Listener × Log.Entry) :=
  (effects.filterMap Effect.logged?).flatMap fun p => p.2.map (·, p.1)

theorem Tended.hearing (h : l.Tended P next) (heard : Array (Log.Listener × Log.Entry)) :
    { l with heard := l.heard ++ heard }.Tended P { next with heard := next.heard ++ heard } := by
  refine ⟨h.active, h.session, h.readers, ?_, h.gist, fun ho => ?_⟩
  · exact congrArg (· ++ heard) h.heard
  · have hnext := h.orderly ⟨ho.started, ho.uncancelled, ho.unwatched, ho.helps, ho.tells⟩
    exact ⟨hnext.started, hnext.uncancelled, hnext.unwatched, hnext.helps, hnext.tells⟩

/-- Effects tell the listeners what is logged; apart from that they are bookkeeping. -/
theorem effects_tended {effects : List Effect} (ho : l.Orderly P)
    (h : ∀ e ∈ effects, e.isMild = true ∨
      ∃ connection, e = .cancelReader connection ∧ l.readers.getD connection 0 ≠ 0) :
    { l with heard := l.heard ++ (told effects).toArray }.Tended P (effects.foldl effect l) := by
  induction effects generalizing l with
  | nil =>
    rw [List.foldl_nil, told, List.filterMap_nil, List.flatMap_nil, Array.append_empty]
    exact .refl l
  | cons e rest ih =>
    have hrest := fun f hf => h f (List.mem_cons_of_mem e hf)
    rw [List.foldl_cons]
    cases e with
    | logged entry listeners =>
      have hnext := ih (l := l.effect (.logged entry listeners))
        ⟨ho.started, ho.uncancelled, ho.unwatched, ho.helps, ho.tells⟩ hrest
      simp only [effect, Array.append_assoc, List.append_toArray] at hnext
      exact hnext
    | note note =>
      have hstep : l.Tended P (l.effect (.note note)) :=
        ⟨rfl, rfl, rfl, rfl, fun _ => rfl,
          fun ho => ⟨ho.started, ho.uncancelled, ho.unwatched, ho.helps, ho.tells⟩⟩
      exact (hstep.hearing _).trans (ih (hstep.orderly ho) hrest)
    | wake caller =>
      have hstep : l.Tended P (l.effect (.wake caller)) := by
        unfold effect
        dsimp only
        split
        · exact wake_tended fun _ => trivial
        · exact .refl l
      exact (hstep.hearing _).trans
        (ih (hstep.orderly ho) fun f hf => hstep.readers ▸ hrest f hf)
    | startReader connection device =>
      rcases h _ List.mem_cons_self with hmild | ⟨_, heq, _⟩
      · cases hmild
      · cases heq
    | cancelReader connection =>
      have hreader : l.readers.getD connection 0 ≠ 0 := by
        rcases h _ List.mem_cons_self with hmild | ⟨_, heq, hreader⟩
        · cases hmild
        · cases heq
          exact hreader
      have hstep : l.Tended P (l.effect (.cancelReader connection)) := cancel_tended hreader ho
      exact (hstep.hearing _).trans
        (ih (hstep.orderly ho) fun f hf => hstep.readers ▸ hrest f hf)

end State

end

end SerialConsole.Loop
