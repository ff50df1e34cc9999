import SerialConsole.Session.Call

set_option autoImplicit false

/-!
# Calls side by side

A `World` is a session with the tasks that run on it and the history of what they did. A task gives
way only where its step pauses, so a move of the world is one step of one task: a call begins, a
device answers, a lock comes free, a read loop starts, ends or is cancelled. Which move comes next
is open. A device may answer at any time, with whatever fits the call; it fails with ordinary faults
only. Nobody but a disconnect cancels anything.
-/
namespace SerialConsole

/-- Whether a reply fits a device call. A call fails with ordinary faults only. -/
def DeviceCall.admits : DeviceCall → Reply → Bool
  | _, .failed fault => fault.isOrdinary
  | .request _, .device _ => true
  | .read _, .chunk _ => true
  | .openWith _ _, .done | .write _ _, .done | .cancelRead _, .done | .close _, .done => true
  | _, _ => false

namespace Session

/-- A call of a task on a session. -/
inductive Operation where
  | connect (line : LineSettings) (hint : Option String)
  | send (data : Bytes)
  | sendData (data format ending : String)
  | disconnect
  | waitClosed
  deriving DecidableEq, Repr

def Operation.start (s : Session) (me : Caller) : Operation → Step
  | .connect line hint => s.beginConnect me line hint
  | .send data => s.beginSend me data
  | .sendData data format ending => s.beginSendData me data format ending
  | .disconnect => s.beginDisconnect me
  | .waitClosed => s.beginWaitClosed

/-- Where a task is: it has not begun, it is a read loop that is about to start, or it rests at the
end of a step. Who waits for a lock may have been told that the lock is free. -/
inductive Status where
  | absent
  | due (device : Handle)
  | rests (pause : Pause) (told : Bool)

/-- Something that happened. A device call is asked when it starts and answered when it ends. -/
inductive Event where
  | begun (caller : Caller) (operation : Operation)
  | asked (caller : Caller) (call : DeviceCall)
  | answered (caller : Caller) (call : DeviceCall) (reply : Reply)
  | logged (entry : Log.Entry)
  | returned (caller : Caller) (result : Except Fault Result)

/-- A session, its tasks, the read loops that were told to end and what happened so far. -/
structure World where
  session : Session
  tasks : Caller → Status := fun _ => .absent
  cancelled : Nat → Bool := fun _ => false
  history : List Event := []

/-- The point at which a task rests, unless it is over. -/
def Pause.point? : Pause → Option Point
  | .over _ => none
  | .askDevice _ point | .awaitTurn _ point | .awaitEndOfReading _ point | .joinReader _ point
  | .watchReader _ point => some point

/-- What happens when a task comes to rest. -/
def Pause.events (me : Caller) : Pause → List Event
  | .over result => [.returned me result]
  | .askDevice call _ => [.asked me call]
  | _ => []

namespace World

/-- A world in which nothing has happened yet. -/
def fresh (log : Log.Ring) (closeTimeout : Double) : World :=
  { session := { log, closeTimeout } }

def setTask (w : World) (caller : Caller) (status : Status) : World :=
  { w with tasks := fun c => if c = caller then status else w.tasks c }

/-- The world with events behind its history. -/
def happen (w : World) (events : List Event) : World :=
  { w with history := w.history ++ events }

/-- What a step did besides changing the session. -/
def effect (w : World) : Effect → World
  | .note _ => w
  | .logged entry _ => w.happen [.logged entry]
  | .wake caller =>
    match w.tasks caller with
    | .rests pause _ => w.setTask caller (.rests pause true)
    | _ => w
  | .startReader connection device => w.setTask (.reader connection) (.due device)
  | .cancelReader connection =>
    { w with cancelled := fun n => n = connection || w.cancelled n }

def after (w : World) (s : Session) (effects : List Effect) : World :=
  effects.foldl effect { w with session := s }

/-- The world after a task has come to rest. -/
def rest (w : World) (me : Caller) (pause : Pause) : World :=
  (w.setTask me (.rests pause false)).happen (pause.events me)

/-- The world after a step of a task. -/
def absorb (w : World) (me : Caller) (step : Step) : World :=
  (w.after step.session step.effects).rest me step.pause

/-- The result of a read loop that has ended. -/
def resultOf (w : World) (connection : Nat) : Option (Except Fault Result) :=
  match w.tasks (.reader connection) with
  | .rests (.over result) _ => some result
  | _ => none

/-- A task goes on from where it rests. -/
def goOn (w : World) (me : Caller) (point : Point) (signal : Signal) : World :=
  w.absorb me (w.session.resume me point signal)

end World

/-- What can happen next in a world. -/
inductive Move where
  | begin (id : Nat) (operation : Operation)
  | answer (caller : Caller) (reply : Reply)
  | turn (caller : Caller)
  | stopWaiting (caller : Caller)
  | join (caller : Caller)
  | startReading (connection : Nat)
  | cancelReading (connection : Nat)

namespace World

/-- A world without the order to end a read loop. -/
def toldToEnd (w : World) (connection : Nat) : World :=
  { w with cancelled := fun n => n ≠ connection && w.cancelled n }

/-- The world after a move, if the move is possible. -/
def move (w : World) : Move → Option World
  | .begin id operation =>
    match w.tasks (.call id) with
    | .absent =>
      some ((w.happen [.begun (.call id) operation]).absorb (.call id)
        (operation.start w.session (.call id)))
    | _ => none
  | .answer caller reply =>
    match w.tasks caller with
    | .rests (.askDevice call point) _ =>
      if call.admits reply then
        some ((w.happen [.answered caller call reply]).goOn caller point (.reply reply))
      else none
    | _ => none
  | .turn caller =>
    match w.tasks caller with
    | .rests (.awaitTurn _ point) true => some (w.goOn caller point .turn)
    | _ => none
  | .stopWaiting caller =>
    match w.tasks caller with
    | .rests (.awaitEndOfReading connection point) _ =>
      some (w.goOn caller point (.readingEnded (w.resultOf connection).isSome))
    | _ => none
  | .join caller =>
    match w.tasks caller with
    | .rests (.joinReader connection point) _ | .rests (.watchReader connection point) _ =>
      (w.resultOf connection).map fun result => w.goOn caller point (.joined result)
    | _ => none
  | .startReading connection =>
    match w.tasks (.reader connection) with
    | .due device =>
      if w.cancelled connection then none
      else some (w.absorb (.reader connection) (w.session.beginRead (.reader connection) device))
    | _ => none
  | .cancelReading connection =>
    if w.cancelled connection then
      match w.tasks (.reader connection) with
      | .due _ => some ((w.toldToEnd connection).rest (.reader connection)
          (.over (.error .cancelled)))
      | .rests pause _ =>
        pause.point?.map fun point =>
          (w.toldToEnd connection).goOn (.reader connection) point .cancelled
      | .absent => none
    else none

/-- The possible moves, one case for each way in which a task goes on. -/
inductive Moved (w : World) : World → Prop where
  | begun {id : Nat} {operation : Operation} : w.tasks (.call id) = .absent →
    Moved w ((w.happen [.begun (.call id) operation]).absorb (.call id)
      (operation.start w.session (.call id)))
  | answered {c : Caller} {call : DeviceCall} {point : Point} {told : Bool} {reply : Reply} :
    w.tasks c = .rests (.askDevice call point) told → call.admits reply = true →
    Moved w ((w.happen [.answered c call reply]).goOn c point (.reply reply))
  | turned {c : Caller} {name : LockName} {point : Point} :
    w.tasks c = .rests (.awaitTurn name point) true → Moved w (w.goOn c point .turn)
  | stoppedWaiting {c : Caller} {n : Nat} {point : Point} {told : Bool} :
    w.tasks c = .rests (.awaitEndOfReading n point) told →
    Moved w (w.goOn c point (.readingEnded (w.resultOf n).isSome))
  | joined {c : Caller} {n : Nat} {point : Point} {told : Bool} {result : Except Fault Result} :
    w.tasks c = .rests (.joinReader n point) told → w.resultOf n = some result →
    Moved w (w.goOn c point (.joined result))
  | watched {c : Caller} {n : Nat} {point : Point} {told : Bool} {result : Except Fault Result} :
    w.tasks c = .rests (.watchReader n point) told → w.resultOf n = some result →
    Moved w (w.goOn c point (.joined result))
  | startedReading {n : Nat} {device : Handle} : w.tasks (.reader n) = .due device →
    w.cancelled n = false →
    Moved w (w.absorb (.reader n) (w.session.beginRead (.reader n) device))
  | neverRead {n : Nat} {device : Handle} : w.tasks (.reader n) = .due device →
    w.cancelled n = true →
    Moved w ((w.toldToEnd n).rest (.reader n) (.over (.error .cancelled)))
  | cancelledReading {n : Nat} {pause : Pause} {point : Point} {told : Bool} :
    w.tasks (.reader n) = .rests pause told → pause.point? = some point →
    w.cancelled n = true → Moved w ((w.toldToEnd n).goOn (.reader n) point .cancelled)

theorem moved_of_move {w next : World} {m : Move} (h : w.move m = some next) : Moved w next := by
  cases m with
  | begin id operation =>
    rw [move] at h
    split at h
    case h_1 habsent =>
      cases h
      exact .begun habsent
    case h_2 => cases h
  | answer c reply =>
    rw [move] at h
    split at h
    case h_1 call point told htask =>
      split at h
      case isTrue hadmits =>
        cases h
        exact .answered htask hadmits
      case isFalse => cases h
    case h_2 => cases h
  | turn c =>
    rw [move] at h
    split at h
    case h_1 name point htask =>
      cases h
      exact .turned htask
    case h_2 => cases h
  | stopWaiting c =>
    rw [move] at h
    split at h
    case h_1 n point told htask =>
      cases h
      exact .stoppedWaiting htask
    case h_2 => cases h
  | join c =>
    rw [move] at h
    split at h
    case h_1 n point told htask =>
      obtain ⟨result, hresult, rfl⟩ := Option.map_eq_some_iff.1 h
      exact .joined htask hresult
    case h_2 n point told htask =>
      obtain ⟨result, hresult, rfl⟩ := Option.map_eq_some_iff.1 h
      exact .watched htask hresult
    case h_3 => cases h
  | startReading n =>
    rw [move] at h
    split at h
    case h_1 device hdue =>
      split at h
      case isTrue => cases h
      case isFalse hgoes =>
        cases h
        exact .startedReading hdue (Bool.eq_false_iff.2 hgoes)
    case h_2 => cases h
  | cancelReading n =>
    rw [move] at h
    split at h
    case isTrue htold =>
      split at h
      case h_1 device hdue =>
        cases h
        exact .neverRead hdue htold
      case h_2 pause told htask =>
        obtain ⟨point, hpoint, rfl⟩ := Option.map_eq_some_iff.1 h
        exact .cancelledReading htask hpoint htold
      case h_3 => cases h
    case isFalse => cases h

/-- The world after some moves, if they are possible. -/
def run (w : World) (moves : List Move) : Option World :=
  moves.foldlM move w

theorem run_cons_eq_some {w v : World} {m : Move} {moves : List Move} :
    w.run (m :: moves) = some v ↔ ∃ next, w.move m = some next ∧ next.run moves = some v := by
  rw [run, List.foldlM_cons]
  exact Option.bind_eq_some_iff

/-- A world that comes about from one in which nothing had happened. -/
def Reachable (w : World) : Prop :=
  ∃ log closeTimeout moves, (fresh log closeTimeout).run moves = some w

/-- A property that holds at first and that every move keeps holds of every reachable world. -/
theorem Reachable.induct {P : World → Prop} {w : World} (h : w.Reachable)
    (start : ∀ log closeTimeout, P (fresh log closeTimeout))
    (keep : ∀ v next, P v → Moved v next → P next) : P w := by
  obtain ⟨log, closeTimeout, moves, hrun⟩ := h
  have hstart := start log closeTimeout
  generalize fresh log closeTimeout = v at hrun hstart
  induction moves generalizing v with
  | nil =>
    cases hrun
    exact hstart
  | cons m rest ih =>
    obtain ⟨next, hmove, hrest⟩ := run_cons_eq_some.1 hrun
    exact ih next hrest (keep v next hstart (moved_of_move hmove))

end World

end Session

end SerialConsole
