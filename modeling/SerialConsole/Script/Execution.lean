import SerialConsole.Script.Command
import SerialConsole.Numeral.Double

set_option autoImplicit false

/-!
# Executing commands

An execution is a machine that asks its surroundings for one thing at a time: whether it should
stop, to be told of its progress, to send, or to sleep. `resume` takes the answer and gives the
next request, or the outcome. The machine keeps a stack of open loops and counts steps and sends.
-/
namespace SerialConsole.Script

/-- An open loop: the place of its LOOP, how often the body runs, and how often it has run. -/
structure OpenLoop where
  start : Nat
  target : Int
  completed : Int
  deriving DecidableEq, Repr

/-- The counts of an execution that ran to its end. -/
structure Tally where
  steps : Nat
  sends : Nat
  total : Nat
  deriving DecidableEq, Repr, Inhabited

/-- The most steps of an execution unless another limit is given. -/
def defaultMaxSteps : Int := 1000000

/-- What an execution runs, whether it can be stopped, and the most steps it may take. -/
structure Plan where
  commands : Array Command
  stoppable : Bool := true
  maxSteps : Int := defaultMaxSteps
  deriving Repr

/-- The number of commands. -/
def Plan.total (plan : Plan) : Nat :=
  plan.commands.size

/-- Where an execution is: the next command, the open loops (the innermost first) and the counts. -/
structure Progress where
  index : Nat := 0
  loops : List OpenLoop := []
  steps : Nat := 0
  sends : Nat := 0
  deriving DecidableEq, Repr, Inhabited

/-- What an execution waits for. -/
inductive Stage where
  | beforeStep
  | announcing
  | sending
  | sleeping
  | slicing (remaining : Double)
  | slept (remaining slice : Double)
  | afterDelay
  deriving DecidableEq, Repr

/-- A request of an execution to its surroundings. -/
inductive Request where
  | poll
  | announce (position total : Nat)
  | send (value : String)
  | sleep (seconds : Double)
  deriving DecidableEq, Repr

inductive Answer where
  | done
  | stop (requested : Bool)
  | failed (fault : Fault)
  deriving Repr

/-- What an execution does next: it ends, or waits for an answer. -/
inductive Turn where
  | finished (outcome : Except Fault Tally)
  | asks (request : Request) (stage : Stage) (progress : Progress)

/-- The longest sleep between two looks at the stop request, 0.05 seconds. -/
def sliceSeconds : Double := Double.ofFraction false 5 100

/-- A number of milliseconds in seconds. -/
def seconds (ms : Int) : Double :=
  Double.ofFraction (ms < 0) ms.natAbs 1000

/-- The fault of a delay with more seconds than any double. -/
def hugeDelay : Fault :=
  .external .overflow "integer division result too large for a float"

/-- The next slice of a delay, or the look at the stop request that ends it. -/
def slice (remaining : Double) (p : Progress) : Turn :=
  if remaining.isPositive then .asks .poll (.slicing remaining) p
  else .asks .poll .afterDelay p

namespace Plan

/-- The end of the commands: loops that are still open are a fault. -/
def conclude (plan : Plan) (p : Progress) : Turn :=
  if p.loops.isEmpty then .finished (.ok ⟨p.steps, p.sends, plan.total⟩)
  else .finished (.error (.openLoops (plan.total - 1) plan.total p.loops.length))

/-- Starts a step, which counts it and announces it, unless there were too many. -/
def startStep (plan : Plan) (p : Progress) : Turn :=
  if plan.maxSteps < p.steps + 1 then
    .finished (.error (.runaway p.index plan.total plan.maxSteps))
  else .asks (.announce (p.index + 1) plan.total) .announcing { p with steps := p.steps + 1 }

/-- Goes on to the next step, with a look at the stop request before it if there is one. -/
def proceed (plan : Plan) (p : Progress) : Turn :=
  if plan.total ≤ p.index then plan.conclude p
  else if plan.stoppable then .asks .poll .beforeStep p
  else plan.startStep p

/-- Runs an END at the current place. -/
def closeLoop (plan : Plan) (p : Progress) (startAt : Int) : Except Fault Progress :=
  match p.loops with
  | [] => .error (.strayEnd p.index plan.total)
  | top :: outer =>
    if startAt ≠ top.start then .error (.crossedEnd p.index plan.total startAt top.start)
    else if top.completed + 1 < top.target then
      .ok { p with
        index := top.start + 1
        loops := { top with completed := top.completed + 1 } :: outer }
    else .ok { p with index := p.index + 1, loops := outer }

/-- Starts a delay of some seconds, in slices if the execution can be stopped. -/
def pause (plan : Plan) (whole : Double) (p : Progress) : Turn :=
  if whole.isFinite then
    if plan.stoppable then slice whole p else .asks (.sleep whole) .sleeping p
  else .finished (.error hugeDelay)

/-- Runs the current command after it was announced. -/
def perform (plan : Plan) (p : Progress) : Turn :=
  match plan.commands[p.index]? with
  | none => plan.conclude p
  | some (.send value _) => .asks (.send value) .sending p
  | some (.delay ms _) => plan.pause (seconds ms) p
  | some (.loop count _ _) =>
    plan.proceed { p with index := p.index + 1, loops := ⟨p.index, count, 0⟩ :: p.loops }
  | some (.loopEnd startAt _) =>
    match plan.closeLoop p startAt with
    | .ok next => plan.proceed next
    | .error fault => .finished (.error fault)
  | some (.unknown name) => .finished (.error (.unknownCommand p.index plan.total name))

/-- The first request of an execution. -/
def start (plan : Plan) : Turn :=
  if plan.total = 0 then .finished (.error .noCommands) else plan.proceed {}

/-- The fault that a failed request leads to: a failed send names its command. -/
def faultOf (plan : Plan) (stage : Stage) (p : Progress) (fault : Fault) : Fault :=
  match stage with
  | .sending => if fault.isOrdinary then .sendFailed p.index plan.total fault else fault
  | _ => fault

/-- The next request after an answer. -/
def resume (plan : Plan) (stage : Stage) (p : Progress) : Answer → Turn
  | .failed fault => .finished (.error (plan.faultOf stage p fault))
  | .done =>
    match stage with
    | .announcing => plan.perform p
    | .sending => plan.proceed { p with index := p.index + 1, sends := p.sends + 1 }
    | .slept remaining taken => slice (remaining.sub taken) p
    | _ => plan.proceed { p with index := p.index + 1 }
  | .stop true =>
    match stage with
    | .slicing _ => .asks .poll .afterDelay p
    | .afterDelay => .finished (.error (.stopped p.index plan.total true))
    | _ => .finished (.error (.stopped p.index plan.total false))
  | .stop false =>
    match stage with
    | .slicing remaining =>
      .asks (.sleep (Double.min remaining sliceSeconds))
        (.slept remaining (Double.min remaining sliceSeconds)) p
    | .afterDelay => plan.proceed { p with index := p.index + 1 }
    | _ => plan.startStep p

end Plan

end SerialConsole.Script
