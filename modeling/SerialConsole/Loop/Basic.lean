import SerialConsole.Device.SimulatedLine
import SerialConsole.Runner
import SerialConsole.Session.Call

set_option autoImplicit false

/-!
# The event loop

Tasks that run one at a time and give way only where they wait. What a waiting task waits for
happens by way of handles, which run first come, first served, in turns: a turn runs the handles
that were ready when it started. Time is virtual and moves only when nothing is ready.
-/
namespace SerialConsole.Loop

/-- Something that a task does on the session. -/
inductive Action where
  | connect (line : LineSettings) (hint : Option String)
  | send (data : Bytes)
  | sendData (data format ending : String)
  | disconnect
  | waitClosed
  | run (script format ending : String)
  | sleep (seconds : Double)
  | stop
  | feed (items : List Inbound)
  | adjust (change : Behaviour → Behaviour)
  | letGo (gate : Gate)
  | exportLog (display : Log.Display)
  | inOrder (steps : List Action)
  | scope (steps : List Action)
  | listen (duration : Option Double)

/-- What an action gives. -/
inductive Value where
  | nothing
  | entry (entry : Log.Entry)
  | tally (tally : Script.Tally)
  | count (n : Nat)
  | flag (held : Bool)
  | text (text : List Char)
  | many (values : List Value)
  deriving Inhabited

abbrev Outcome := Except Fault Value

/-- What a task still has to do when the thing it waits for has happened; the innermost first. -/
inductive Frame where
  | session (point : Session.Point)
  | sleeping
  | answering (job : Job) (stage : Script.Stage) (progress : Script.Progress)
  | inOrder (rest : List Action) (values : List Value)
  | inScope (rest : List Action) (values : List Value)
  | leaving (outcome : Outcome)
  | listening
  | timed (task : Nat)
  | abandoning (task : Nat) (fault : Option Fault)

/-- What a running task does next. -/
inductive Control where
  | begin (action : Action)
  | readLoop (device : Handle)
  | signal (point : Session.Point) (signal : Session.Signal)
  | turn (job : Job) (turn : Script.Turn)
  | give (outcome : Outcome)

/-- What a task waits for. -/
inductive Awaited where
  | turn
  | gate (gate : Gate) (call : DeviceCall)
  | input
  | answer (reply : Reply)
  | time
  | endOf (task : Nat)
  | resultOf (task : Nat)

/-- A wait. Its ticket tells it from all others; it is pending until the thing has happened. -/
structure Wait where
  ticket : Nat
  awaited : Awaited
  pending : Bool := true

/-- What a task is told when it goes on. -/
inductive Tell where
  | goOn
  | result (outcome : Outcome)
  | cancelled

/-- What is done when a task that another one waits for has ended: the other one goes on in the
next turn, or is first told and goes on one turn later. -/
structure Watcher where
  task : Nat
  ticket : Nat
  direct : Bool

structure Task where
  caller : Caller
  first : Control
  frames : List Frame := []
  wait : Option Wait := none
  mustCancel : Bool := false
  result : Option Outcome := none
  watchers : List Watcher := []

instance : Inhabited Task := ⟨{ caller := .call 0, first := .give (.ok .nothing) }⟩

/-- Something that runs in a turn: a task starts, a task that waits is told, or a task goes on. -/
inductive Ready where
  | start (task : Nat)
  | settle (task ticket : Nat) (tell : Tell)
  | wake (task ticket : Nat) (tell : Tell)

/-- A moment at which a waiting task is to be told. -/
structure Timer where
  due : Double
  task : Nat
  ticket : Nat

/-- The devices of a loop. -/
inductive Platform where
  | scripted (device : Scripted)
  | simulated (line : SimulatedLine)
  deriving Inhabited

/-- The task that runs, what it does next and what it does after that. -/
structure Active where
  task : Nat
  control : Control
  frames : List Frame

/-- An event loop with one session, its runner and its devices. -/
structure State where
  session : Session := {}
  runner : Runner := {}
  platform : Platform := default
  tasks : Array Task := #[]
  readers : Array Nat := #[]
  active : Option Active := none
  batch : List Ready := []
  queued : Array Ready := #[]
  timers : List Timer := []
  now : Double := Double.zero
  tickets : Nat := 0
  interrupted : Option Fault := none
  notes : Array Note := #[]
  heard : Array (Log.Listener × Log.Entry) := #[]
  announced : Array (Nat × Nat) := #[]
  deriving Inhabited

/-- The listener that counts what is received while listening. -/
def counter : Log.Listener := "count"

namespace Platform

def call (platform : Platform) (request : DeviceCall) : Platform × Response :=
  match platform with
  | .scripted device =>
    let (device, response) := device.call request
    (.scripted device, response)
  | .simulated line =>
    let (line, response) := line.call request
    (.simulated line, response)

/-- Ends a call that waited at a gate. -/
def letGo (platform : Platform) (request : DeviceCall) : Platform × Reply :=
  match platform with
  | .scripted device =>
    let (device, reply) := device.letGo request
    (.scripted device, reply)
  | .simulated line => (.simulated line, .done)

/-- What a read gets, if there is something. -/
def takeNext (platform : Platform) : Option (Platform × Reply) :=
  match platform with
  | .scripted device => device.takeNext.map fun (device, reply) => (.scripted device, reply)
  | .simulated _ => none

/-- Whether there is something to read. -/
def hasInput (platform : Platform) : Bool :=
  match platform with
  | .scripted device => !device.queue.isEmpty
  | .simulated _ => false

/-- Changes a scripted device. -/
def change (platform : Platform) (f : Scripted → Scripted) : Platform :=
  match platform with
  | .scripted device => .scripted (f device)
  | .simulated line => .simulated line

end Platform

namespace State

def modifyTask (l : State) (task : Nat) (f : Task → Task) : State :=
  { l with tasks := l.tasks.modify task f }

def task (l : State) (n : Nat) : Task :=
  l.tasks.getD n default

/-- The outcome of a task that has ended. -/
def resultOf (l : State) (n : Nat) : Option Outcome :=
  (l.task n).result

/-- Puts something behind what is ready. -/
def enqueue (l : State) (ready : Ready) : State :=
  { l with queued := l.queued.push ready }

/-- The wait of a task that is still pending. -/
def pendingWait (l : State) (n : Nat) : Option Wait :=
  (l.task n).wait.filter Wait.pending

/-- Marks the wait of a task as over; the task goes on in a later turn. -/
def wake (l : State) (n : Nat) (tell : Tell) : State :=
  match l.pendingWait n with
  | some wait =>
    (l.modifyTask n fun t => { t with wait := some { wait with pending := false } }).enqueue
      (.wake n wait.ticket tell)
  | none => l

/-- The first task whose pending wait fits. -/
def findWaiting (l : State) (fits : Task → Wait → Bool) : Option Nat :=
  (List.range l.tasks.size).find? fun n =>
    match l.pendingWait n with
    | some wait => fits (l.task n) wait
    | none => false

/-- Of the tasks whose pending wait fits, the one that has waited longest. -/
def longestWaiting (l : State) (fits : Task → Wait → Bool) : Option Nat :=
  let found := (List.range l.tasks.size).filterMap fun n =>
    match l.pendingWait n with
    | some wait => if fits (l.task n) wait then some (wait.ticket, n) else none
    | none => none
  (found.foldl (fun best next =>
    match best with
    | some (ticket, n) => if next.1 < ticket then some next else some (ticket, n)
    | none => some next) none).map (·.2)

/-- Lets a waiting read go on when there is something to read. -/
def offerInput (l : State) : State :=
  if l.platform.hasInput then
    match l.findWaiting fun _ wait => match wait.awaited with
      | .input => true
      | _ => false with
    | some n => l.wake n .goOn
    | none => l
  else l

/-- Adds a task, which starts in a later turn. -/
def spawn (l : State) (caller : Caller) (first : Control) : State × Nat :=
  let n := l.tasks.size
  (({ l with tasks := l.tasks.push { caller, first } }).enqueue (.start n), n)

/-- Adds a task for an action. -/
def spawnAction (l : State) (action : Action) : State × Nat :=
  l.spawn (.call l.tasks.size) (.begin action)

/-- Cancels a task that waits for no other task: where it waits it is told, and if it does not
wait it is told when it goes on. -/
def cancelWaiting (l : State) (n : Nat) : State :=
  let t := l.task n
  if t.result.isSome then l
  else if (l.pendingWait n).isSome then l.wake n .cancelled
  else l.modifyTask n fun t => { t with mustCancel := true }

/-- Cancels a task. One that waits for the result of another task passes the cancellation on. -/
def cancel (l : State) (n : Nat) : State :=
  match l.pendingWait n with
  | some { awaited := .resultOf m, .. } => l.cancelWaiting m
  | _ => l.cancelWaiting n

/-- Writes down what a step of a session did besides changing it. -/
def effect (l : State) : Effect → State
  | .note note => { l with notes := l.notes.push note }
  | .logged entry listeners =>
    { l with heard := l.heard ++ (listeners.map fun listener => (listener, entry)).toArray }
  | .wake caller =>
    match l.findWaiting fun t wait => t.caller = caller && match wait.awaited with
      | .turn => true
      | _ => false with
    | some n => l.wake n .goOn
    | none => l
  | .startReader connection device =>
    let (l, n) := l.spawn (.reader connection) (.readLoop device)
    { l with readers := l.readers.push n }
  | .cancelReader connection => l.cancel (l.readers.getD connection 0)

def suspend (l : State) (n : Nat) (frames : List Frame) (awaited : Awaited) : State :=
  { l.modifyTask n fun t => { t with frames, wait := some { ticket := l.tickets, awaited } } with
    tickets := l.tickets + 1
    active := none }

/-- Suspends a task until some time has passed. -/
def suspendFor (l : State) (n : Nat) (frames : List Frame) (awaited : Awaited)
    (seconds : Double) : State :=
  let ticket := l.tickets
  let l := l.suspend n frames awaited
  let timer : Timer := ⟨l.now.add seconds, n, ticket⟩
  { l with
    timers := l.timers.takeWhile (fun t => !timer.due.lt t.due) ++ timer ::
      l.timers.dropWhile (fun t => !timer.due.lt t.due) }

/-- Has a task watched by the wait that the watching task has started last. A task that has ended
tells its watcher in the next turn. -/
def watch (l : State) (watched n : Nat) (direct : Bool) : State :=
  let ticket := ((l.task n).wait.map Wait.ticket).getD 0
  if (l.resultOf watched).isSome then l.enqueue (.settle n ticket .goOn)
  else l.modifyTask watched fun t => { t with watchers := t.watchers ++ [⟨n, ticket, direct⟩] }

/-- Lets the active task go on with something. -/
def goOn (l : State) (n : Nat) (control : Control) (frames : List Frame) : State :=
  { l with active := some ⟨n, control, frames⟩ }

end State

end SerialConsole.Loop
