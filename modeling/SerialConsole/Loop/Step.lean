import SerialConsole.Loop.Basic

set_option autoImplicit false

/-!
# Steps of the event loop

`step` does one thing: the running task takes one step, or the next handle of the turn runs, or a
new turn starts. It is undefined exactly when nothing is ready.
-/
namespace SerialConsole.Loop

/-- What a call on the session gives, as the value of an action. -/
def valueOf : Session.Result → Value
  | .nothing => .nothing
  | .entry entry => .entry entry

namespace State

/-- Hands a device call of a task to the platform. -/
def askDevice (l : State) (n : Nat) (frames : List Frame) (request : DeviceCall)
    (point : Session.Point) : State :=
  let (platform, response) := l.platform.call request
  let l := { l with platform }
  let l := match response with
    | .answered reply => l.goOn n (.signal point (.reply reply)) frames
    | .held gate => l.suspend n (.session point :: frames) (.gate gate request)
    | .idle => l.suspend n (.session point :: frames) .input
    | .after seconds reply => l.suspendFor n (.session point :: frames) (.answer reply) seconds
  l.offerInput

/-- Takes over the outcome of a step of the session. -/
def absorb (l : State) (n : Nat) (frames : List Frame) (step : Session.Step) : State :=
  let l := step.effects.foldl effect { l with session := step.session, active := none }
  match step.pause with
  | .over result => l.goOn n (.give (result.map valueOf)) frames
  | .askDevice request point => l.askDevice n frames request point
  | .awaitTurn _ point => l.suspend n (.session point :: frames) .turn
  | .awaitEndOfReading connection point =>
    let reader := l.readers.getD connection 0
    let l := l.suspendFor n (.session point :: frames) (.endOf reader) l.session.closeTimeout
    l.watch reader n false
  | .joinReader connection point =>
    let reader := l.readers.getD connection 0
    match l.resultOf reader with
    | some result => l.goOn n (.signal point (.joined (result.map fun _ => .nothing))) frames
    | none => (l.suspend n (.session point :: frames) (.resultOf reader)).watch reader n true
  | .watchReader connection point =>
    let reader := l.readers.getD connection 0
    match l.resultOf reader with
    | some result => l.goOn n (.signal point (.joined (result.map fun _ => .nothing))) frames
    | none => (l.suspend n (.session point :: frames) (.endOf reader)).watch reader n false

/-- Does a list of steps; a scope ends with a disconnect in any case. -/
def nextInScope (l : State) (n : Nat) (frames : List Frame) (values : List Value) :
    List Action → State
  | [] => l.goOn n (.begin .disconnect) (.leaving (.ok (.many values.reverse)) :: frames)
  | action :: rest => l.goOn n (.begin action) (.inScope rest values :: frames)

def nextInOrder (l : State) (n : Nat) (frames : List Frame) (values : List Value) :
    List Action → State
  | [] => l.goOn n (.give (.ok (.many values.reverse))) frames
  | action :: rest => l.goOn n (.begin action) (.inOrder rest values :: frames)

/-- Starts to listen, for some time or until the end of data. -/
def listen (l : State) (n : Nat) (frames : List Frame) (duration : Option Double) : State :=
  let l := { l with session := { l.session with log := l.session.log.subscribe counter } }
  let frames := .listening :: frames
  match duration with
  | none => l.goOn n (.begin .waitClosed) frames
  | some seconds =>
    let (l, closing) := l.spawnAction .waitClosed
    if seconds.isPositive then
      let l := l.suspendFor n (.timed closing :: frames) (.endOf closing) seconds
      l.watch closing n false
    else
      let l := l.cancel closing
      (l.suspend n (.abandoning closing none :: frames) (.endOf closing)).watch closing n false

def begin (l : State) (n : Nat) (frames : List Frame) (action : Action) : State :=
  let me := (l.task n).caller
  match action with
  | .connect line hint => l.absorb n frames (l.session.beginConnect me line hint)
  | .send data => l.absorb n frames (l.session.beginSend me data)
  | .sendData data format ending =>
    l.absorb n frames (l.session.beginSendData me data format ending)
  | .disconnect => l.absorb n frames (l.session.beginDisconnect me)
  | .waitClosed => l.absorb n frames l.session.beginWaitClosed
  | .run script format ending =>
    match l.runner.start script format ending with
    | .ok (runner, job, note) =>
      { l with runner, notes := l.notes.push note }.goOn n (.turn job job.plan.start) frames
    | .error fault => l.goOn n (.give (.error fault)) frames
  | .sleep seconds =>
    if seconds.isPositive then l.suspendFor n (.sleeping :: frames) .time seconds
    else (l.suspend n (.sleeping :: frames) .time).wake n .goOn
  | .stop =>
    let (runner, notes) := l.runner.stop
    { l with runner, notes := l.notes ++ notes.toArray }.goOn n (.give (.ok .nothing)) frames
  | .feed items =>
    let l := { l with
      platform := l.platform.change fun d => { d with queue := d.queue ++ items } }
    l.offerInput.goOn n (.give (.ok .nothing)) frames
  | .adjust change =>
    { l with platform := l.platform.change fun d =>
        { d with behaviour := change d.behaviour } }.goOn n (.give (.ok .nothing)) frames
  | .letGo gate =>
    match l.longestWaiting fun _ wait => match wait.awaited with
      | .gate at_ _ => at_ = gate
      | _ => false with
    | some held => (l.wake held .goOn).goOn n (.give (.ok (.flag true))) frames
    | none => l.goOn n (.give (.ok (.flag false))) frames
  | .exportLog display =>
    l.goOn n (.give ((l.session.log.exportText display).map .text)) frames
  | .inOrder steps => l.nextInOrder n frames [] steps
  | .scope steps => l.nextInScope n frames [] steps
  | .listen duration => l.listen n frames duration

/-- Handles what an execution does next. -/
def takeTurn (l : State) (n : Nat) (frames : List Frame) (job : Job) : Script.Turn → State
  | .finished outcome =>
    { l with runner := l.runner.finish }.goOn n (.give (outcome.map .tally)) frames
  | .asks .poll stage p =>
    l.goOn n (.turn job (job.plan.resume stage p (.stop l.runner.stopRequested))) frames
  | .asks (.announce position total) stage p =>
    { l with
      runner := l.runner.announce position total
      announced := l.announced.push (position, total)
      }.goOn n (.turn job (job.plan.resume stage p .done)) frames
  | .asks (.send value) stage p =>
    l.goOn n (.begin (.sendData value job.format job.ending)) (.answering job stage p :: frames)
  | .asks (.sleep seconds) stage p =>
    l.goOn n (.begin (.sleep seconds)) (.answering job stage p :: frames)

/-- The number of entries that were received while the counter listened. -/
def countReceived (l : State) : Nat :=
  l.heard.foldl (fun count (listener, entry) =>
    if listener = counter && entry.direction = .received then count + 1 else count) 0

def stopListening (l : State) (outcome : Outcome) : State × Outcome :=
  let l := { l with session := { l.session with log := l.session.log.unsubscribe counter } }
  match outcome with
  | .error fault => (l, .error fault)
  | .ok _ =>
    match l.session.readError with
    | some fault => (l, .error (.readingFailed fault))
    | none => (l, .ok (.count l.countReceived))

/-- Ends a task: those who watch it are told, and an interrupt leaves the loop. -/
def endTask (l : State) (n : Nat) (outcome : Outcome) : State :=
  let watchers := (l.task n).watchers
  let l := { l.modifyTask n fun t =>
    { t with result := some outcome, watchers := [], frames := [], wait := none } with
    active := none }
  let l := watchers.foldl (fun l watcher =>
    if watcher.direct then l.wake watcher.task (.result outcome)
    else l.enqueue (.settle watcher.task watcher.ticket (.result outcome))) l
  match outcome with
  | .error fault =>
    if fault.isOrdinary || fault.kind = .cancelled then l else { l with interrupted := some fault }
  | .ok _ => l

/-- Hands an outcome to what a task does next. -/
def give (l : State) (n : Nat) (outcome : Outcome) : List Frame → State
  | [] => l.endTask n outcome
  | .answering job stage p :: frames =>
    let answer := match outcome with
      | .ok _ => Script.Answer.done
      | .error fault => .failed fault
    l.goOn n (.turn job (job.plan.resume stage p answer)) frames
  | .inOrder rest values :: frames =>
    match outcome with
    | .ok value => l.nextInOrder n frames (value :: values) rest
    | .error fault => l.goOn n (.give (.error fault)) frames
  | .inScope rest values :: frames =>
    match outcome with
    | .ok value => l.nextInScope n frames (value :: values) rest
    | .error fault => l.goOn n (.begin .disconnect) (.leaving (.error fault) :: frames)
  | .leaving kept :: frames =>
    match outcome with
    | .ok _ => l.goOn n (.give kept) frames
    | .error fault => l.goOn n (.give (.error fault)) frames
  | .listening :: frames =>
    let (l, outcome) := l.stopListening outcome
    l.goOn n (.give outcome) frames
  | _ :: frames => l.goOn n (.give outcome) frames

/-- The running task takes one step. -/
def advance (l : State) (a : Active) : State :=
  match a.control with
  | .begin action => l.begin a.task a.frames action
  | .readLoop device =>
    l.absorb a.task a.frames (l.session.beginRead (l.task a.task).caller device)
  | .signal point signal =>
    l.absorb a.task a.frames (l.session.resume (l.task a.task).caller point signal)
  | .turn job turn => l.takeTurn a.task a.frames job turn
  | .give outcome => l.give a.task outcome a.frames

/-- A task goes on in a call on the session. -/
def resumeSession (l : State) (n : Nat) (frames : List Frame) (point : Session.Point)
    (awaited : Awaited) : Tell → State
  | .cancelled => l.goOn n (.signal point .cancelled) frames
  | tell =>
    match awaited with
    | .turn => l.goOn n (.signal point .turn) frames
    | .gate _ request =>
      let (platform, reply) := l.platform.letGo request
      { l with platform }.offerInput.goOn n (.signal point (.reply reply)) frames
    | .input =>
      match l.platform.takeNext with
      | some (platform, reply) =>
        { l with platform }.goOn n (.signal point (.reply reply)) frames
      | none => l.suspend n (.session point :: frames) .input
    | .answer reply => l.goOn n (.signal point (.reply reply)) frames
    | .time => l.goOn n (.signal point .turn) frames
    | .endOf reader =>
      match point with
      | .closed =>
        let result := (l.resultOf reader).getD (.ok .nothing)
        l.goOn n (.signal point (.joined (result.map fun _ => .nothing))) frames
      | _ => l.goOn n (.signal point (.readingEnded (l.resultOf reader).isSome)) frames
    | .resultOf reader =>
      let result := match tell with
        | .result outcome => outcome
        | _ => (l.resultOf reader).getD (.ok .nothing)
      l.goOn n (.signal point (.joined (result.map fun _ => .nothing))) frames

/-- Stops waiting for a task: it is cancelled, and its end is awaited. -/
def abandon (l : State) (n : Nat) (frames : List Frame) (other : Nat) (fault : Option Fault) :
    State :=
  let l := l.cancel other
  (l.suspend n (.abandoning other fault :: frames) (.endOf other)).watch other n false

/-- A waiting task goes on. -/
def resume (l : State) (n : Nat) (wait : Wait) (tell : Tell) : State :=
  let cancelled := match tell with
    | .cancelled => true
    | _ => false
  match (l.task n).frames with
  | .session point :: frames => l.resumeSession n frames point wait.awaited tell
  | .timed other :: frames =>
    match l.resultOf other with
    | some outcome => l.goOn n (.give outcome) frames
    | none => l.abandon n frames other (if cancelled then some .cancelled else none)
  | .abandoning other fault :: frames =>
    if cancelled then l.goOn n (.give (.error .cancelled)) frames
    else
      match fault, l.resultOf other with
      | some fault, _ => l.goOn n (.give (.error fault)) frames
      | none, some (.error .cancelled) => l.goOn n (.give (.ok .nothing)) frames
      | none, some outcome => l.goOn n (.give outcome) frames
      | none, none => l.goOn n (.give (.ok .nothing)) frames
  | .sleeping :: frames =>
    l.goOn n (.give (if cancelled then .error .cancelled else .ok .nothing)) frames
  | frames => l.goOn n (.give (.ok .nothing)) frames

def runReady (l : State) : Ready → State
  | .start n =>
    let t := l.task n
    if t.mustCancel then
      (l.modifyTask n fun t => { t with mustCancel := false }).goOn n (.give (.error .cancelled)) []
    else l.goOn n t.first []
  | .settle n ticket tell =>
    match l.pendingWait n with
    | some wait => if wait.ticket = ticket then l.wake n tell else l
    | none => l
  | .wake n ticket tell =>
    match (l.task n).wait with
    | some wait =>
      if wait.ticket = ticket then
        let tell := if (l.task n).mustCancel then .cancelled else tell
        let l := l.modifyTask n fun t => { t with mustCancel := false, wait := none }
        let l := { l with timers := l.timers.filter fun timer => timer.task ≠ n }
        l.resume n wait tell
      else l
    | none => l

/-- The time by which a timer may be early. -/
def resolution : Double := Double.ofFraction false 1 1000000000

/-- Takes out the timers that are due; their tasks are told in the next turn. -/
def fireTimers (l : State) : State :=
  let horizon := l.now.add resolution
  let isDue (timer : Timer) : Bool := timer.due.lt horizon
  { l with
    timers := l.timers.dropWhile isDue
    queued := l.queued ++ (l.timers.takeWhile isDue).toArray.map fun timer =>
      .settle timer.task timer.ticket .goOn }

/-- Starts a turn with what is ready and what is due. -/
def startTurn (l : State) : State :=
  let l := l.fireTimers
  { l with batch := l.queued.toList, queued := #[] }

/-- Does the next thing, if anything is ready. -/
def step (l : State) : Option State :=
  match l.active with
  | some a => some (l.advance a)
  | none =>
    match l.batch with
    | ready :: rest => some ({ l with batch := rest }.runReady ready)
    | [] => if l.queued.isEmpty then none else some l.startTurn

/-- Moves time to the next timer, if there is one. -/
def jump (l : State) : Option State :=
  match l.timers with
  | [] => none
  | timer :: _ =>
    some ({ l with now := if l.now.lt timer.due then timer.due else l.now }.startTurn)

end State

end SerialConsole.Loop
