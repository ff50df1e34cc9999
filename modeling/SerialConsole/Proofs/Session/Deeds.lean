import SerialConsole.Proofs.Session.Rounds

set_option autoImplicit false

/-!
# What a move does

`Sound.does`: a move of a sound world is the deed of one task. `Deed` lists what a task can do
between two points at which it waits: what comes behind the history, the session after it but for
its locks, and where the task rests then. `Changes` says that nothing else is touched: other tasks
are at most told that a lock is free, and the rows of those who wait keep their order.
-/
namespace SerialConsole

/-- What an effect leaves in the history. -/
def Effect.event? : Effect → Option Session.Event
  | .logged entry _ => some (.logged entry)
  | _ => none

namespace Session

/-- What a send is to write, or why that cannot be said. -/
def Operation.payload? : Operation → Option (Except Fault Bytes)
  | .send data => some (.ok data)
  | .sendData data format ending => some (Payload.encode data format ending)
  | _ => none

/-- A session without its locks. -/
def bare (s : Session) : Session :=
  { s with lifecycleLock := {}, readerLock := {}, writerLock := {} }

section

variable {s t : Session}

theorem phase_of_bare (h : t.bare = s) : t.phase = s.phase := by
  rw [← h]
  rfl

theorem device_of_bare (h : t.bare = s) : t.device = s.device := by
  rw [← h]
  rfl

theorem reader_of_bare (h : t.bare = s) : t.reader = s.reader := by
  rw [← h]
  rfl

theorem readError_of_bare (h : t.bare = s) : t.readError = s.readError := by
  rw [← h]
  rfl

theorem stopReading_of_bare (h : t.bare = s) : t.stopReading = s.stopReading := by
  rw [← h]
  rfl

theorem connections_of_bare (h : t.bare = s) : t.connections = s.connections := by
  rw [← h]
  rfl

theorem log_of_bare (h : t.bare = s) : t.log = s.log := by
  rw [← h]
  rfl

end

@[simp] theorem bare_setLock (s : Session) (name : LockName) (lock : Lock) :
    (s.setLock name lock).bare = s.bare := by
  cases name <;> rfl

@[simp] theorem bare_take (s : Session) (name : LockName) : (s.take name).bare = s.bare :=
  bare_setLock s name _

@[simp] theorem bare_takeTurn (s : Session) (name : LockName) (c : Caller) :
    (s.takeTurn name c).bare = s.bare :=
  bare_setLock s name _

@[simp] theorem bare_queue (s : Session) (name : LockName) (c : Caller) :
    (s.queue name c).bare = s.bare :=
  bare_setLock s name _

@[simp] theorem bare_release (s : Session) (name : LockName) : (s.release name).bare = s.bare :=
  bare_setLock s name _

@[simp] theorem bare_giveUp (s : Session) (name : LockName) (c : Caller) :
    (s.giveUp name c).1.bare = s.bare :=
  bare_setLock s name _

@[simp] theorem waiting_take (s : Session) (name other : LockName) :
    ((s.take name).lock other).waiting = (s.lock other).waiting := by
  cases name <;> cases other <;> rfl

@[simp] theorem waiting_release (s : Session) (name other : LockName) :
    ((s.release name).lock other).waiting = (s.lock other).waiting := by
  cases name <;> cases other <;> rfl

theorem waiting_takeTurn (s : Session) (name other : LockName) (c : Caller) :
    ((s.takeTurn name c).lock other).waiting =
      if other = name then (s.lock other).waiting.erase c else (s.lock other).waiting := by
  cases name <;> cases other <;> rfl

theorem waiting_giveUp (s : Session) (name other : LockName) (c : Caller) :
    ((s.giveUp name c).1.lock other).waiting =
      if other = name then (s.lock other).waiting.erase c else (s.lock other).waiting := by
  cases name <;> cases other <;> rfl

theorem waiting_queue (s : Session) (name other : LockName) (c : Caller) :
    ((s.queue name c).lock other).waiting =
      (s.lock other).waiting ++ if some name = some other then [c] else [] := by
  cases name <;> cases other <;> first | rfl | exact (List.append_nil _).symm

namespace World

variable {w v next : World} {me : Caller} {course : Course} {before events : List Event}
  {s t : Session}

/-! ## Deeds -/

/-- Why a send ends at once. -/
inductive Refuses (s : Session) : Operation → Fault → Prop where
  | unencoded {op : Operation} {fault : Fault} : op.payload? = some (.error fault) →
    Refuses s op fault
  | unconnected {op : Operation} {data : Bytes} : op.payload? = some (.ok data) →
    s.phase ≠ .connected → Refuses s op .notConnected
  | empty {op : Operation} : op.payload? = some (.ok []) → s.phase = .connected →
    Refuses s op .emptyPayload

/-- The read loop of the connection that a disconnect ends has ended, or there is none. -/
inductive ReadingOver (w : World) (c : Caller) (d : Handle) : List Event → Prop where
  | unread {told : Bool} {reply : Reply} :
    w.tasks c = .rests (.askDevice (.cancelRead d) (.cancelling (some d) none)) told →
    ReadingOver w c d [.answered c (.cancelRead d) reply]
  | inTime {n : Nat} {told : Bool} :
    w.tasks c = .rests (.awaitEndOfReading n (.endOfReading (some d) n)) told →
    w.resultOf n ≠ none → ReadingOver w c d []
  | joined {n : Nat} {told : Bool} :
    w.tasks c = .rests (.joinReader n (.cancelledReading (some d))) told →
    w.resultOf n ≠ none → ReadingOver w c d []

/-- A task comes to a point at which it needs a lock that it has not waited for. -/
inductive Wants (w : World) : Caller → LockName → Point → List Event → Prop where
  | connect {id : Nat} {line : LineSettings} {hint : Option String} :
    w.tasks (.call id) = .absent →
    Wants w (.call id) .lifecycle (.connectTurn line hint) [.begun (.call id) (.connect line hint)]
  | disconnect {id : Nat} : w.tasks (.call id) = .absent →
    Wants w (.call id) .lifecycle .disconnectTurn [.begun (.call id) .disconnect]
  | send {id : Nat} {op : Operation} {data : Bytes} : w.tasks (.call id) = .absent →
    op.payload? = some (.ok data) → w.session.phase = .connected → data ≠ [] →
    Wants w (.call id) .writer (.sendTurn data) [.begun (.call id) op]
  | read {n : Nat} {d : Handle} : w.tasks (.reader n) = .due d →
    Wants w (.reader n) .reader (.readTurn d) []
  | close {id : Nat} {d : Handle} {events : List Event} : ReadingOver w (.call id) d events →
    Vacant w.session .closing → Wants w (.call id) .writer (.closeTurn (some d)) events

/-- A task gets a lock, at once or because its turn has come. -/
inductive Gets (w : World) (c : Caller) (name : LockName) (point : Point) : List Event → Prop where
  | atOnce {events : List Event} : Wants w c name point events → w.session.isFree name = true →
    Gets w c name point events
  | inTurn : w.tasks c = .rests (.awaitTurn name point) true → Gets w c name point []

/-- What a read loop does with the answer to its read. -/
inductive Hears (s : Session) (n : Nat) (d : Handle) : List Event → Session → Pause → Prop where
  | endsData : Hears s n d [.answered (.reader n) (.read d) (.chunk none),
      .returned (.reader n) (.ok .nothing)] s.bare (.over (.ok .nothing))
  | drops {data : Bytes} : s.stopReading = true →
    Hears s n d [.answered (.reader n) (.read d) (.chunk (some data)),
      .returned (.reader n) (.ok .nothing)] s.bare (.over (.ok .nothing))
  | readsAgain : s.stopReading = false →
    Hears s n d [.answered (.reader n) (.read d) (.chunk (some [])), .asked (.reader n) (.read d)]
      s.bare (.askDevice (.read d) (.reading d))
  | receives {data : Bytes} : s.stopReading = false → data ≠ [] →
    Hears s n d [.answered (.reader n) (.read d) (.chunk (some data)),
        .logged (s.log.nextEntry .received data), .asked (.reader n) (.read d)]
      (s.record .received data).bare (.askDevice (.read d) (.reading d))
  | interrupted {fault : Fault} : s.stopReading = true →
    Hears s n d [.answered (.reader n) (.read d) (.failed fault),
      .returned (.reader n) (.ok .nothing)] s.bare (.over (.ok .nothing))
  | breaks {fault : Fault} : s.stopReading = false →
    Hears s n d [.answered (.reader n) (.read d) (.failed fault),
      .returned (.reader n) (.ok .nothing)] { s.bare with readError := some fault }
      (.over (.ok .nothing))

theorem Hears.alike {n : Nat} {d : Handle} {pause : Pause} (h : Hears t n d events s pause) :
    Alike t s := by
  cases h <;> exact ⟨rfl, rfl, rfl⟩

theorem Hears.connections_eq {n : Nat} {d : Handle} {pause : Pause}
    (h : Hears t n d events s pause) : s.connections = t.connections := by
  cases h <;> rfl

theorem Hears.pause_cases {n : Nat} {d : Handle} {pause : Pause}
    (h : Hears t n d events s pause) :
    pause = .over (.ok .nothing) ∨ pause = .askDevice (.read d) (.reading d) := by
  cases h with
  | endsData | drops _ | interrupted _ | breaks _ => exact Or.inl rfl
  | readsAgain _ | receives _ _ => exact Or.inr rfl

/-- What a task does in one step: the events behind the history, the session after it without its
locks, and where the task rests. -/
inductive Deed (w : World) : Caller → List Event → Session → Pause → Prop where
  | queues {c : Caller} {name : LockName} {point : Point} {events : List Event} :
    Wants w c name point events → w.session.isFree name = false →
    Deed w c events w.session.bare (.awaitTurn name point)
  -- connecting
  | busy {c : Caller} {line : LineSettings} {hint : Option String} {events : List Event}
    {d : Handle} : Gets w c .lifecycle (.connectTurn line hint) events →
    w.session.phase = .connected → w.session.device = some d →
    Deed w c (events ++ [.returned c (.error (.sessionBusy d.name Phase.connected.word))])
      w.session.bare (.over (.error (.sessionBusy d.name Phase.connected.word)))
  | misconfigured {c : Caller} {line : LineSettings} {hint : Option String} {events : List Event}
    {fault : Fault} : Gets w c .lifecycle (.connectTurn line hint) events →
    w.session.phase = .disconnected → line.check = .error fault →
    Deed w c (events ++ [.returned c (.error fault)]) w.session.bare (.over (.error fault))
  | requests {c : Caller} {line : LineSettings} {hint : Option String} {events : List Event} :
    Gets w c .lifecycle (.connectTurn line hint) events → w.session.phase = .disconnected →
    line.check = .ok () →
    Deed w c (events ++ [.asked c (.request hint)]) { w.session.bare with phase := .connecting }
      (.askDevice (.request hint) (.requesting line))
  | unoffered {c : Caller} {line : LineSettings} {hint : Option String} {told : Bool}
    {fault : Fault} : w.tasks c = .rests (.askDevice (.request hint) (.requesting line)) told →
    w.session.phase = .connecting →
    Deed w c [.answered c (.request hint) (.failed fault), .returned c (.error fault)]
      { w.session.bare with phase := .disconnected } (.over (.error fault))
  | opens {c : Caller} {line : LineSettings} {hint : Option String} {told : Bool} {d : Handle} :
    w.tasks c = .rests (.askDevice (.request hint) (.requesting line)) told →
    w.session.phase = .connecting →
    Deed w c [.answered c (.request hint) (.device d), .asked c (.openWith d line)]
      w.session.bare (.askDevice (.openWith d line) (.opening d line))
  | unopened {c : Caller} {line : LineSettings} {told : Bool} {d : Handle} {fault : Fault} :
    w.tasks c = .rests (.askDevice (.openWith d line) (.opening d line)) told →
    w.session.phase = .connecting →
    Deed w c [.answered c (.openWith d line) (.failed fault),
        .returned c (.error (openFault d fault))]
      { w.session.bare with phase := .disconnected } (.over (.error (openFault d fault)))
  | connects {c : Caller} {line : LineSettings} {told : Bool} {d : Handle} :
    w.tasks c = .rests (.askDevice (.openWith d line) (.opening d line)) told →
    Vacant w.session .connecting →
    Deed w c [.answered c (.openWith d line) .done, .returned c (.ok .nothing)]
      (w.session.connectedTo d line).bare (.over (.ok .nothing))
  -- sending
  | refused {id : Nat} {op : Operation} {fault : Fault} : w.tasks (.call id) = .absent →
    Refuses w.session op fault →
    Deed w (.call id) [.begun (.call id) op, .returned (.call id) (.error fault)] w.session.bare
      (.over (.error fault))
  | writes {c : Caller} {data : Bytes} {events : List Event} {d : Handle} :
    Gets w c .writer (.sendTurn data) events → w.session.phase = .connected →
    w.session.device = some d →
    Deed w c (events ++ [.asked c (.write d data)]) w.session.bare
      (.askDevice (.write d data) (.writing d data))
  | lost {c : Caller} {data : Bytes} {events : List Event} :
    Gets w c .writer (.sendTurn data) events → w.session.phase ≠ .connected →
    Deed w c (events ++ [.returned c (.error .connectionLost)]) w.session.bare
      (.over (.error .connectionLost))
  | unwritten {c : Caller} {data : Bytes} {d : Handle} {told : Bool} {fault : Fault} :
    w.tasks c = .rests (.askDevice (.write d data) (.writing d data)) told →
    fault.isOrdinary = true →
    Deed w c [.answered c (.write d data) (.failed fault),
        .returned c (.error (writeFault d fault))]
      w.session.bare (.over (.error (writeFault d fault)))
  | written {c : Caller} {data : Bytes} {d : Handle} {told : Bool} :
    w.tasks c = .rests (.askDevice (.write d data) (.writing d data)) told →
    Deed w c [.answered c (.write d data) .done, .logged (w.session.log.nextEntry .sent data),
        .returned c (.ok (.entry (w.session.log.nextEntry .sent data)))]
      (w.session.record .sent data).bare
      (.over (.ok (.entry (w.session.log.nextEntry .sent data))))
  -- disconnecting
  | nothingToEnd {c : Caller} {events : List Event} :
    Gets w c .lifecycle .disconnectTurn events → w.session.phase = .disconnected →
    Deed w c (events ++ [.returned c (.ok .nothing)]) w.session.bare (.over (.ok .nothing))
  | ends {c : Caller} {events : List Event} {d : Handle} {n : Nat} :
    Gets w c .lifecycle .disconnectTurn events → w.session.phase = .connected →
    w.session.device = some d → w.session.reader = some n →
    Deed w c (events ++ [.asked c (.cancelRead d)])
      { w.session.bare with phase := .closing, device := none, reader := none, stopReading := true }
      (.askDevice (.cancelRead d) (.cancelling (some d) (some n)))
  | waitsForReader {c : Caller} {d : Handle} {n : Nat} {told : Bool} {reply : Reply} :
    w.tasks c = .rests (.askDevice (.cancelRead d) (.cancelling (some d) (some n))) told →
    Vacant w.session .closing →
    Deed w c [.answered c (.cancelRead d) reply] w.session.bare
      (.awaitEndOfReading n (.endOfReading (some d) n))
  | cancelsReader {c : Caller} {d : Handle} {n : Nat} {told : Bool} :
    w.tasks c = .rests (.awaitEndOfReading n (.endOfReading (some d) n)) told →
    Vacant w.session .closing → w.resultOf n = none →
    Deed w c [] w.session.bare (.joinReader n (.cancelledReading (some d)))
  | closes {c : Caller} {d : Handle} {events : List Event} :
    Gets w c .writer (.closeTurn (some d)) events → Vacant w.session .closing →
    Deed w c (events ++ [.asked c (.close d)]) w.session.bare
      (.askDevice (.close d) (.closing (some d)))
  | closed {c : Caller} {d : Handle} {told : Bool} {reply : Reply} :
    w.tasks c = .rests (.askDevice (.close d) (.closing (some d))) told →
    Vacant w.session .closing →
    Deed w c [.answered c (.close d) reply, .returned c (.ok .nothing)]
      { w.session.bare with phase := .disconnected } (.over (.ok .nothing))
  -- waiting for the end of reading
  | watches {id n : Nat} : w.tasks (.call id) = .absent → w.session.reader = some n →
    Deed w (.call id) [.begun (.call id) .waitClosed] w.session.bare (.watchReader n .closed)
  | nothingToWatch {id : Nat} : w.tasks (.call id) = .absent → w.session.reader = none →
    Deed w (.call id) [.begun (.call id) .waitClosed, .returned (.call id) (.ok .nothing)]
      w.session.bare (.over (.ok .nothing))
  | watched {id n : Nat} {told : Bool} {result : Except Fault Result} :
    w.tasks (.call id) = .rests (.watchReader n .closed) told → w.resultOf n = some result →
    Deed w (.call id) [.returned (.call id) (result.map fun _ => .nothing)] w.session.bare
      (.over (result.map fun _ => .nothing))
  -- reading
  | stopsReading {n : Nat} {d : Handle} {events : List Event} :
    Gets w (.reader n) .reader (.readTurn d) events → w.session.stopReading = true →
    Deed w (.reader n) (events ++ [.returned (.reader n) (.ok .nothing)]) w.session.bare
      (.over (.ok .nothing))
  | reads {n : Nat} {d : Handle} {events : List Event} :
    Gets w (.reader n) .reader (.readTurn d) events → w.session.stopReading = false →
    Deed w (.reader n) (events ++ [.asked (.reader n) (.read d)]) w.session.bare
      (.askDevice (.read d) (.reading d))
  | hears {n : Nat} {d : Handle} {told : Bool} {events : List Event} {s : Session} {pause : Pause} :
    w.tasks (.reader n) = .rests (.askDevice (.read d) (.reading d)) told →
    Hears w.session n d events s pause → Deed w (.reader n) events s pause
  | cancelled {n : Nat} : w.tasks (.reader n) ≠ .absent → w.resultOf n = none →
    w.cancelled n = true →
    Deed w (.reader n) [.returned (.reader n) (.error .cancelled)] w.session.bare
      (.over (.error .cancelled))

/-- How a deed changes a world: nothing else is touched. Only a connect brings a new task. -/
structure Changes (w next : World) (me : Caller) (events : List Event) (s : Session)
    (pause : Pause) : Prop where
  history : next.history = w.history ++ events
  bare : next.session.bare = s
  mine : next.tasks me = .rests pause false
  others : ∀ c, c ≠ me →
    c ≠ .reader w.session.connections ∨ s.connections = w.session.connections →
    SameButTold (w.tasks c) (next.tasks c)
  born : s.connections ≠ w.session.connections →
    ∃ d, s.device = some d ∧ next.tasks (.reader w.session.connections) = .due d
  rows : ∀ name, (next.session.lock name).waiting =
    (w.session.lock name).waiting.erase me ++ if pause.awaits = some name then [me] else []

/-- The next world comes about by a deed of a task. -/
def Does (w : World) (me : Caller) (next : World) : Prop :=
  ∃ events s pause, Deed w me events s pause ∧ Changes w next me events s pause

/-! ## The world after a step -/

theorem history_effect (w : World) (e : Effect) :
    (w.effect e).history = w.history ++ e.event?.toList := by
  cases e with
  | logged entry listeners => rfl
  | wake c =>
    rw [effect]
    split <;> exact (List.append_nil _).symm
  | note n | startReader n d | cancelReader n => exact (List.append_nil _).symm

theorem history_after (w : World) (s : Session) (effects : List Effect) :
    (w.after s effects).history = w.history ++ effects.filterMap Effect.event? := by
  rw [after]
  have hstart : ({ w with session := s } : World).history = w.history := rfl
  rw [← hstart]
  generalize ({ w with session := s } : World) = v
  induction effects generalizing v with
  | nil => exact (List.append_nil _).symm
  | cons e rest ih =>
    rw [List.foldl_cons, ih, history_effect, List.append_assoc, List.filterMap_cons]
    cases e.event? <;> rfl

theorem tasks_effect (w : World) (e : Effect) (c : Caller)
    (hstarts : ∀ n d, e = .startReader n d → c ≠ .reader n) :
    SameButTold (w.tasks c) ((w.effect e).tasks c) := by
  cases e with
  | note n | logged entry listeners | cancelReader n => exact Or.inl rfl
  | startReader n d => exact Or.inl (setTask_of_ne _ _ (hstarts n d rfl))
  | wake d =>
    rw [effect]
    split
    case h_1 pause told hrests =>
      by_cases hc : c = d
      · subst hc
        exact Or.inr ⟨pause, told, hrests, setTask_self _ _ _⟩
      · exact Or.inl (setTask_of_ne _ _ hc)
    case h_2 => exact Or.inl rfl

theorem tasks_after (w : World) (s : Session) (effects : List Effect) (c : Caller)
    (hstarts : ∀ n d, .startReader n d ∈ effects → c ≠ .reader n) :
    SameButTold (w.tasks c) ((w.after s effects).tasks c) := by
  rw [after]
  have hstart : SameButTold (w.tasks c) (({ w with session := s } : World).tasks c) := Or.inl rfl
  generalize ({ w with session := s } : World) = v at hstart
  induction effects generalizing v with
  | nil => exact hstart
  | cons e rest ih =>
    refine ih (fun n d hmem => hstarts n d (List.mem_cons_of_mem e hmem)) (v.effect e)
      (hstart.trans (tasks_effect v e c fun n d heq => hstarts n d ?_))
    rw [heq]
    exact List.mem_cons_self

theorem session_absorb (v : World) (me : Caller) (step : Step) :
    (v.absorb me step).session = step.session :=
  session_after v step.session step.effects

theorem history_absorb (w : World) (me : Caller) (step : Step) :
    (w.absorb me step).history =
      w.history ++ step.effects.filterMap Effect.event? ++ step.pause.events me := by
  change (w.after step.session step.effects).history ++ _ = _
  rw [history_after]

theorem event?_wakeFirst (s : Session) (name : LockName) :
    (s.wakeFirst name).filterMap Effect.event? = [] := by
  rw [wakeFirst]
  cases (s.lock name).waiting.head? <;> rfl

theorem startReader_not_mem_wakeFirst (s : Session) (name : LockName) (n : Nat) (d : Handle) :
    .startReader n d ∉ s.wakeFirst name := by
  rw [wakeFirst]
  cases (s.lock name).waiting.head? <;> simp

theorem event?_giveUp (s : Session) (name : LockName) (c : Caller) :
    (s.giveUp name c).2.filterMap Effect.event? = [] := by
  rw [giveUp]
  split
  · rfl
  · exact event?_wakeFirst _ _

theorem startReader_not_mem_giveUp (s : Session) (name : LockName) (c : Caller) (n : Nat)
    (d : Handle) : .startReader n d ∉ (s.giveUp name c).2 := by
  rw [giveUp]
  split
  · exact List.not_mem_nil
  · exact startReader_not_mem_wakeFirst _ _ n d

/-! ## In the middle of a step -/

/-- A task is on its way from one resting place to the next: it has left the rows that it was in,
and has not changed the session but for its locks. -/
structure Underway (w v : World) (me : Caller) (before : List Event) (t : Session) : Prop where
  tasks : v.tasks = w.tasks
  history : v.history = w.history ++ before
  bare : t.bare = w.session.bare
  rows : ∀ name, (t.lock name).waiting = (w.session.lock name).waiting.erase me

namespace Underway

theorem phase_eq (u : Underway w v me before t) : t.phase = w.session.phase :=
  (phase_of_bare u.bare :)

theorem device_eq (u : Underway w v me before t) : t.device = w.session.device :=
  (device_of_bare u.bare :)

theorem reader_eq (u : Underway w v me before t) : t.reader = w.session.reader :=
  (reader_of_bare u.bare :)

theorem stop_eq (u : Underway w v me before t) : t.stopReading = w.session.stopReading :=
  (stopReading_of_bare u.bare :)

theorem take (u : Underway w v me before t) (name : LockName) :
    Underway w v me before (t.take name) :=
  ⟨u.tasks, u.history, (bare_take t name).trans u.bare, fun other => by
    rw [waiting_take, u.rows other]⟩

theorem history_absorb (u : Underway w v me before t) {step : Step}
    (hevents : before ++ step.effects.filterMap Effect.event? ++ step.pause.events me = events) :
    (v.absorb me step).history = w.history ++ events := by
  rw [World.history_absorb, u.history, List.append_assoc w.history, List.append_assoc w.history,
    hevents]

theorem tasks_absorb (u : Underway w v me before t) {step : Step} {c : Caller} (hc : c ≠ me)
    (hstarts : ∀ n d, .startReader n d ∈ step.effects → c ≠ .reader n) :
    SameButTold (w.tasks c) ((v.absorb me step).tasks c) := by
  rw [← u.tasks]
  change SameButTold _ (((v.after step.session step.effects).setTask me _).tasks c)
  rw [setTask_of_ne _ _ hc]
  exact tasks_after v step.session step.effects c hstarts

/-- A step that begins no read loop and queues for no lock. -/
theorem changes (u : Underway w v me before t) {step : Step}
    (hrows : ∀ name, (step.session.lock name).waiting = (t.lock name).waiting)
    (hconnections : step.session.connections = t.connections)
    (hstarts : ∀ n d, .startReader n d ∉ step.effects)
    (hawaits : step.pause.awaits = none)
    (hevents : before ++ step.effects.filterMap Effect.event? ++ step.pause.events me = events) :
    Changes w (v.absorb me step) me events step.session.bare step.pause := by
  have hcount : step.session.bare.connections = w.session.connections :=
    hconnections.trans (connections_of_bare u.bare :)
  refine ⟨u.history_absorb hevents, congrArg Session.bare (session_absorb v me step),
    setTask_self _ _ _, fun c hc _ => u.tasks_absorb hc fun n d hmem => absurd hmem (hstarts n d),
    fun hne => absurd hcount hne, fun name => ?_⟩
  rw [session_absorb, hrows name, u.rows name, hawaits]
  exact (List.append_nil _).symm

theorem finishes (u : Underway w v me before t) {result : Except Fault Result}
    (hevents : before ++ [.returned me result] = events) :
    Changes w (v.absorb me (t.finish [] result)) me events w.session.bare (.over result) := by
  have hchanges : Changes w (v.absorb me (t.finish [] result)) me events t.bare (.over result) :=
    u.changes (fun _ => rfl) rfl (fun _ _ => List.not_mem_nil) rfl
      (by rw [← hevents, finish, List.filterMap_nil, List.append_nil]; rfl)
  rwa [u.bare] at hchanges

theorem leaves (u : Underway w v me before t) {name : LockName} {effects : List Effect}
    {result : Except Fault Result}
    (hrows : ∀ other, (s.lock other).waiting = (t.lock other).waiting)
    (hconnections : s.connections = t.connections)
    (hstarts : ∀ n d, .startReader n d ∉ effects)
    (hevents : before ++ effects.filterMap Effect.event? ++ [.returned me result] = events) :
    Changes w (v.absorb me (s.leave name effects result)) me events s.bare (.over result) := by
  have hchanges : Changes w (v.absorb me (s.leave name effects result)) me events
      (s.release name).bare (.over result) := by
    refine u.changes (fun other => ?_) ?_ (fun n d hmem => ?_) rfl ?_
    · exact (waiting_release s name other).trans (hrows other)
    · exact (connections_setLock s name _).trans hconnections
    · rcases List.mem_append.1 hmem with hin | hin
      · exact hstarts n d hin
      · exact startReader_not_mem_wakeFirst s name n d hin
    · rw [← hevents]
      change before ++ (effects ++ s.wakeFirst name).filterMap Effect.event? ++ _ = _
      rw [List.filterMap_append, event?_wakeFirst, List.append_nil]
      rfl
  rwa [bare_release] at hchanges

theorem leavesOnly (u : Underway w v me before t) {name : LockName} {effects : List Effect}
    {result : Except Fault Result} (hstarts : ∀ n d, .startReader n d ∉ effects)
    (hevents : before ++ effects.filterMap Effect.event? ++ [.returned me result] = events) :
    Changes w (v.absorb me (t.leave name effects result)) me events w.session.bare
      (.over result) := by
  rw [← u.bare]
  exact u.leaves (fun _ => rfl) rfl hstarts hevents

theorem asks (u : Underway w v me before t) {effects : List Effect} {call : DeviceCall}
    {point : Point} (hrows : ∀ other, (s.lock other).waiting = (t.lock other).waiting)
    (hconnections : s.connections = t.connections)
    (hstarts : ∀ n d, .startReader n d ∉ effects)
    (hevents : before ++ effects.filterMap Effect.event? ++ [.asked me call] = events) :
    Changes w (v.absorb me ⟨s, effects, .askDevice call point⟩) me events s.bare
      (.askDevice call point) :=
  u.changes hrows hconnections hstarts rfl hevents

theorem asksOnly (u : Underway w v me before t) {effects : List Effect} {call : DeviceCall}
    {point : Point} (hstarts : ∀ n d, .startReader n d ∉ effects)
    (hevents : before ++ effects.filterMap Effect.event? ++ [.asked me call] = events) :
    Changes w (v.absorb me ⟨t, effects, .askDevice call point⟩) me events w.session.bare
      (.askDevice call point) := by
  rw [← u.bare]
  exact u.asks (fun _ => rfl) rfl hstarts hevents

theorem queues (u : Underway w v me before t) {name : LockName} {point : Point}
    {effects : List Effect} (hstarts : ∀ n d, .startReader n d ∉ effects)
    (hevents : before ++ effects.filterMap Effect.event? = events) :
    Changes w (v.absorb me ⟨t.queue name me, effects, .awaitTurn name point⟩) me events
      w.session.bare (.awaitTurn name point) := by
  refine ⟨u.history_absorb ((List.append_nil _).trans hevents), ?_, setTask_self _ _ _,
    fun c hc _ => u.tasks_absorb hc fun n d hmem => absurd hmem (hstarts n d),
    fun hne => absurd rfl hne, fun other => ?_⟩
  · rw [session_absorb, bare_queue, u.bare]
  · rw [session_absorb, waiting_queue, u.rows other]
    rfl

theorem enters (u : Underway w v me before w.session) {name : LockName} {point : Point}
    {go : Session → Step} (hwants : Wants w me name point before)
    (hgo : Gets w me name point before → Underway w v me before (w.session.take name) →
      w.Does me (v.absorb me (go (w.session.take name)))) :
    w.Does me (v.absorb me (w.session.enter me name point go)) := by
  rw [enter]
  cases hfree : w.session.isFree name with
  | true => exact hgo (.atOnce hwants hfree) (u.take name)
  | false =>
    exact ⟨_, _, _, .queues hwants hfree,
      u.queues (fun _ _ => List.not_mem_nil) (List.append_nil before)⟩

end Underway

/-! ## Connecting -/

section Connecting

variable {line : LineSettings} {hint : Option String} {d : Handle}

theorem connectLocked_does (u : Underway w v me before t)
    (hgets : Gets w me .lifecycle (.connectTurn line hint) before) (hs : Settled w.session course) :
    w.Does me (v.absorb me (connectLocked line hint t)) := by
  rw [connectLocked]
  cases hs with
  | @connected d n hphase hdevice hreader =>
    have hname : t.deviceName = d.name := by
      rw [deviceName, u.device_eq, hdevice]
      rfl
    rw [hname, u.phase_eq, hphase, if_pos (by decide)]
    exact ⟨_, _, _, .busy hgets hphase hdevice, u.leavesOnly (by simp) (by simp)⟩
  | disconnected hs =>
    rw [u.phase_eq, hs.phase_eq, if_neg (by decide)]
    cases hcheck : line.check with
    | error fault =>
      exact ⟨_, _, _, .misconfigured hgets hs.phase_eq hcheck, u.leavesOnly (by simp) (by simp)⟩
    | ok _ =>
      refine ⟨_, _, _, .requests hgets hs.phase_eq hcheck, ?_⟩
      rw [← u.bare]
      exact u.asks (s := { t with phase := .connecting }) (fun other => by cases other <;> rfl)
        rfl (by simp) (by simp)

theorem connectFailed_does (u : Underway w v me before w.session) {fault : Fault}
    (hdeed : Deed w me (before ++ [.returned me (.error fault)])
      { w.session.bare with phase := .disconnected } (.over (.error fault))) :
    w.Does me (v.absorb me (w.session.connectFailed fault)) :=
  ⟨_, _, _, hdeed, u.leaves (fun other => by cases other <;> rfl) rfl (by simp) (by simp)⟩

/-- A connect that succeeds brings the read loop of its connection. -/
theorem connected_changes (u : Underway w v me before w.session)
    (hme : me ≠ .reader w.session.connections) {result : Except Fault Result} :
    Changes w (v.absorb me (leave (w.session.connectedTo d line) .lifecycle
      [.startReader w.session.connections d, connectedNote d line] result)) me
      (before ++ [.returned me result]) (w.session.connectedTo d line).bare (.over result) := by
  generalize hs : w.session.connectedTo d line = s
  have hstarts : ∀ n e, .startReader n e ∈ (leave s .lifecycle
      [.startReader w.session.connections d, connectedNote d line] result).effects →
      n = w.session.connections := by
    intro n e hmem
    rcases List.mem_append.1 hmem with hin | hin
    · simp only [List.mem_cons, Effect.startReader.injEq, List.not_mem_nil, or_false] at hin
      rcases hin with ⟨rfl, _⟩ | hin
      · rfl
      · cases hin
    · exact absurd hin (startReader_not_mem_wakeFirst s .lifecycle n e)
  have hconnections : s.connections = w.session.connections + 1 := by
    rw [← hs]
    rfl
  refine ⟨u.history_absorb ?_, ?_, setTask_self _ _ _, fun c hc hnew => u.tasks_absorb hc ?_,
    fun _ => ⟨d, ?_, ?_⟩, fun name => ?_⟩
  · change before ++ (_ ++ s.wakeFirst .lifecycle).filterMap Effect.event? ++ _ = _
    rw [List.filterMap_append, event?_wakeFirst]
    exact congrArg (· ++ _) (List.append_nil before)
  · rw [session_absorb, leave, bare_release]
  · intro n e hmem
    rw [hstarts n e hmem]
    exact hnew.resolve_right (by rw [show s.bare.connections = _ from hconnections]; omega)
  · rw [← hs]
    rfl
  · change ((v.after (s.release .lifecycle) ([.startReader w.session.connections d] ++
      (connectedNote d line :: s.wakeFirst .lifecycle))).setTask me _).tasks _ = _
    rw [setTask_of_ne _ _ hme.symm, ← after_after v (s.release .lifecycle)]
    have hborn : (v.after (s.release .lifecycle) [.startReader w.session.connections d]).tasks
        (.reader w.session.connections) = .due d := setTask_self _ _ _
    have hsame := tasks_after (v.after (s.release .lifecycle)
      [.startReader w.session.connections d]) (s.release .lifecycle)
      (connectedNote d line :: s.wakeFirst .lifecycle) (.reader w.session.connections)
      fun n e hmem => by
        rcases List.mem_cons.1 hmem with heq | hin
        · cases heq
        · exact absurd hin (startReader_not_mem_wakeFirst s .lifecycle n e)
    rcases hsame with heq | ⟨pause, told, hrests, _⟩
    · exact heq.trans hborn
    · rw [hborn] at hrests
      cases hrests
  · rw [session_absorb, leave, waiting_release]
    have hlock : s.lock name = w.session.lock name := by
      rw [← hs]
      cases name <;> rfl
    rw [hlock]
    exact (u.rows name).trans (List.append_nil _).symm

end Connecting

/-! ## Sending -/

theorem sendLocked_does {data : Bytes} (u : Underway w v me before t)
    (hgets : Gets w me .writer (.sendTurn data) before)
    (hdevice : w.session.phase = .connected → ∃ d, w.session.device = some d) :
    w.Does me (v.absorb me (sendLocked data t)) := by
  by_cases hphase : w.session.phase = .connected
  · obtain ⟨d, hd⟩ := hdevice hphase
    rw [sendLocked, u.phase_eq, u.device_eq, hphase, hd]
    exact ⟨_, _, _, .writes hgets hphase hd, u.asksOnly (by simp) (by simp)⟩
  · have hlost : sendLocked data t = t.leave .writer [] (.error .connectionLost) := by
      rw [sendLocked]
      split
      case h_1 d ht _ => exact absurd (u.phase_eq.symm.trans ht) hphase
      case h_2 => rfl
    rw [hlost]
    exact ⟨_, _, _, .lost hgets hphase, u.leavesOnly (by simp) (by simp)⟩

theorem written_does {data : Bytes} {d : Handle} {told : Bool}
    (u : Underway w v me [.answered me (.write d data) .done] w.session)
    (htask : w.tasks me = .rests (.askDevice (.write d data) (.writing d data)) told) :
    w.Does me (v.absorb me (w.session.written data)) :=
  ⟨_, _, _, .written htask,
    u.leaves (fun other => by cases other <;> rfl) rfl (by simp [recorded]) rfl⟩

/-! ## Disconnecting -/

section Disconnecting

variable {id : Nat} {d : Handle} {effects : List Effect}

theorem disconnectLocked_does (u : Underway w v (.call id) before t)
    (hgets : Gets w (.call id) .lifecycle .disconnectTurn before)
    (hs : Settled w.session course) :
    w.Does (.call id) (v.absorb (.call id) (disconnectLocked (.call id) t)) := by
  rw [disconnectLocked]
  cases hs with
  | disconnected hs =>
    rw [if_pos (u.phase_eq.trans hs.phase_eq)]
    exact ⟨_, _, _, .nothingToEnd hgets hs.phase_eq, u.leavesOnly (by simp) (by simp)⟩
  | @connected d n hphase hdevice hreader =>
    rw [if_neg (by rw [u.phase_eq, hphase]; decide), u.device_eq, hdevice, u.reader_eq, hreader]
    refine ⟨_, _, _, .ends hgets hphase hdevice hreader, ?_⟩
    rw [← u.bare]
    exact u.asks (s := { t with
        phase := .closing, device := none, reader := none, stopReading := true })
      (fun other => by cases other <;> rfl) rfl (by simp) (by simp)

theorem closeLocked_does (u : Underway w v (.call id) before t)
    (hgets : Gets w (.call id) .writer (.closeTurn (some d)) before)
    (hs : Vacant w.session .closing) (hstarts : ∀ n e, .startReader n e ∉ effects)
    (hlogs : effects.filterMap Effect.event? = []) :
    w.Does (.call id) (v.absorb (.call id) (closeLocked (some d) effects t)) :=
  ⟨_, _, _, .closes hgets hs, u.asksOnly hstarts (by rw [hlogs, List.append_nil])⟩

theorem closeNext_does (u : Underway w v (.call id) before w.session)
    (hover : ReadingOver w (.call id) d before) (hs : Vacant w.session .closing)
    (hstarts : ∀ n e, .startReader n e ∉ effects)
    (hlogs : effects.filterMap Effect.event? = []) :
    w.Does (.call id)
      (v.absorb (.call id) (w.session.closeNext (.call id) effects (some d))) := by
  rw [closeNext]
  have hwants : Wants w (.call id) .writer (.closeTurn (some d)) before := .close hover hs
  cases hfree : w.session.isFree .writer with
  | true =>
    exact closeLocked_does (u.take .writer) (.atOnce hwants hfree) hs hstarts hlogs
  | false =>
    exact ⟨_, _, _, .queues hwants hfree,
      u.queues hstarts (by rw [hlogs, List.append_nil])⟩

theorem readerNext_does {told : Bool} {reply : Reply} {reader : Option Nat}
    (u : Underway w v (.call id) [.answered (.call id) (.cancelRead d) reply] w.session)
    (htask : w.tasks (.call id) =
      .rests (.askDevice (.cancelRead d) (.cancelling (some d) reader)) told)
    (hs : Vacant w.session .closing) (hstarts : ∀ n e, .startReader n e ∉ effects)
    (hlogs : effects.filterMap Effect.event? = []) :
    w.Does (.call id)
      (v.absorb (.call id) (w.session.readerNext (.call id) effects (some d) reader)) := by
  cases reader with
  | none => exact closeNext_does u (.unread htask) hs hstarts hlogs
  | some n =>
    have hdeed : Deed w (.call id) [.answered (.call id) (.cancelRead d) reply] w.session.bare
        (.awaitEndOfReading n (.endOfReading (some d) n)) := .waitsForReader htask hs
    exact ⟨_, _, _, hdeed, u.changes (fun _ => rfl) rfl hstarts rfl (by
      rw [readerNext, hlogs]
      rfl)⟩

theorem disconnected_does {told : Bool} {reply : Reply}
    (u : Underway w v me [.answered me (.close d) reply] w.session)
    (htask : w.tasks me = .rests (.askDevice (.close d) (.closing (some d))) told)
    (hs : Vacant w.session .closing) (hstarts : ∀ n e, .startReader n e ∉ effects)
    (hlogs : effects.filterMap Effect.event? = []) :
    w.Does me (v.absorb me (w.session.disconnected effects (some d))) := by
  have hdeed : Deed w me [.answered me (.close d) reply, .returned me (.ok .nothing)]
      { w.session.bare with phase := .disconnected } (.over (.ok .nothing)) := .closed htask hs
  have hlogs' : (effects ++ w.session.wakeFirst .writer ++
      [say .info ("Disconnected from " ++ nameOf (some d))]).filterMap Effect.event? = [] := by
    rw [List.filterMap_append, List.filterMap_append, hlogs, event?_wakeFirst]
    rfl
  have hstarts' : ∀ n e, .startReader n e ∉ effects ++ w.session.wakeFirst .writer ++
      [say .info ("Disconnected from " ++ nameOf (some d))] := by
    intro n e hmem
    simp only [List.mem_append, List.mem_singleton, say, reduceCtorEq, or_false] at hmem
    rcases hmem with hin | hin
    · exact hstarts n e hin
    · exact startReader_not_mem_wakeFirst w.session .writer n e hin
  exact ⟨_, _, _, hdeed, u.leaves (fun other => by cases other <;> rfl) rfl hstarts'
    (by rw [hlogs']; rfl)⟩

end Disconnecting

/-! ## Reading -/

section Reading

variable {n : Nat} {d : Handle} {told : Bool}

theorem readNext_does (u : Underway w v (.reader n) before t)
    (hgets : Gets w (.reader n) .reader (.readTurn d) before) :
    w.Does (.reader n) (v.absorb (.reader n) (t.readNext [] d)) := by
  rw [readNext, u.stop_eq]
  cases hstop : w.session.stopReading with
  | true => exact ⟨_, _, _, .stopsReading hgets hstop, u.leavesOnly (by simp) (by simp)⟩
  | false => exact ⟨_, _, _, .reads hgets hstop, u.asksOnly (by simp) (by simp)⟩

theorem chunkRead_does {data : Option Bytes}
    (u : Underway w v (.reader n) [.answered (.reader n) (.read d) (.chunk data)] w.session)
    (htask : w.tasks (.reader n) = .rests (.askDevice (.read d) (.reading d)) told) :
    w.Does (.reader n) (v.absorb (.reader n) (w.session.chunkRead d data)) := by
  cases data with
  | none => exact ⟨_, _, _, .hears htask .endsData, u.leavesOnly (by simp [say]) rfl⟩
  | some data =>
    rw [chunkRead]
    cases hstop : w.session.stopReading with
    | true => exact ⟨_, _, _, .hears htask (.drops hstop), u.leavesOnly (by simp) rfl⟩
    | false =>
      cases data with
      | nil =>
        refine ⟨_, _, _, .hears htask (.readsAgain hstop), ?_⟩
        rw [List.isEmpty_nil, readNext, hstop]
        exact u.asksOnly (by simp) rfl
      | cons b rest =>
        refine ⟨_, _, _, .hears htask (.receives hstop (List.cons_ne_nil b rest)), ?_⟩
        have hnext : readNext (w.session.record .received (b :: rest))
            [w.session.recorded .received (b :: rest)] d =
              ⟨w.session.record .received (b :: rest), [w.session.recorded .received (b :: rest)],
                .askDevice (.read d) (.reading d)⟩ :=
          if_neg (by
            change ¬ w.session.stopReading = true
            rw [hstop]
            decide)
        rw [if_neg (by decide), List.isEmpty_cons, if_neg (by decide), hnext]
        exact u.asks (fun other => by cases other <;> rfl) rfl (by simp [recorded]) rfl

theorem readFailed_does {fault : Fault}
    (u : Underway w v (.reader n) [.answered (.reader n) (.read d) (.failed fault)] w.session)
    (htask : w.tasks (.reader n) = .rests (.askDevice (.read d) (.reading d)) told)
    (hordinary : fault.isOrdinary = true) :
    w.Does (.reader n) (v.absorb (.reader n) (w.session.readFailed d fault)) := by
  rw [readFailed, hordinary, if_neg (by decide)]
  by_cases hstop : w.session.stopReading = true
  · rw [if_pos hstop]
    exact ⟨_, _, _, .hears htask (.interrupted hstop), u.leavesOnly (by simp) rfl⟩
  · rw [if_neg hstop]
    have hdeed : Deed w (.reader n) [.answered (.reader n) (.read d) (.failed fault),
        .returned (.reader n) (.ok .nothing)] { w.session.bare with readError := some fault }
        (.over (.ok .nothing)) := .hears htask (.breaks (Bool.eq_false_iff.2 hstop))
    exact ⟨_, _, _, hdeed, u.leaves (s := { w.session with readError := some fault })
      (fun other => by cases other <;> rfl) rfl (by simp [say]) rfl⟩

end Reading

end World

end Session

end SerialConsole
