import SerialConsole.Script.Execution

set_option autoImplicit false

/-!
# Runs

An execution together with surroundings that answer its requests. The surroundings may look at
how many requests of each sort came before. A run records what was done, in order.
-/
namespace SerialConsole.Script

/-- How many requests of each sort were made; sends and sleeps count when they succeed. -/
structure Counts where
  polls : Nat := 0
  announcements : Nat := 0
  sends : Nat := 0
  sleeps : Nat := 0
  deriving DecidableEq, Repr, Inhabited

/-- Answers to the requests of an execution. Each answer may depend on the counts, which include
the poll or announcement that is being answered. -/
structure Surroundings where
  stop : Counts → Bool := fun _ => false
  announce : Counts → Option Fault := fun _ => none
  send : Counts → String → Option Fault := fun _ _ => none
  sleep : Counts → Double → Option Fault := fun _ _ => none

/-- Something that an execution did. -/
inductive Event where
  | step (position total : Nat)
  | sent (value : String)
  | slept (seconds : Double)
  deriving DecidableEq, Repr

/-- What happened so far in a run, the latest event first, and the counts. -/
structure Trace where
  events : List Event := []
  counts : Counts := {}
  deriving Repr, Inhabited

namespace Surroundings

/-- The answer to a request, with what happened written down. -/
def answer (world : Surroundings) (trace : Trace) : Request → Answer × Trace
  | .poll =>
    let counts := { trace.counts with polls := trace.counts.polls + 1 }
    (.stop (world.stop counts), { trace with counts })
  | .announce position total =>
    let counts := { trace.counts with announcements := trace.counts.announcements + 1 }
    match world.announce counts with
    | some fault => (.failed fault, { trace with counts })
    | none => (.done, { events := .step position total :: trace.events, counts })
  | .send value =>
    match world.send trace.counts value with
    | some fault => (.failed fault, trace)
    | none =>
      (.done, { events := .sent value :: trace.events
                counts := { trace.counts with sends := trace.counts.sends + 1 } })
  | .sleep seconds =>
    match world.sleep trace.counts seconds with
    | some fault => (.failed fault, trace)
    | none =>
      (.done, { events := .slept seconds :: trace.events
                counts := { trace.counts with sleeps := trace.counts.sleeps + 1 } })

end Surroundings

namespace Plan

/-- Answers at most `fuel` requests; `none` when that is not enough. -/
def drive (plan : Plan) (world : Surroundings) :
    Nat → Turn → Trace → Option (Except Fault Tally) × Trace
  | _, .finished outcome, trace => (some outcome, trace)
  | 0, .asks _ _ _, trace => (none, trace)
  | fuel + 1, .asks request stage p, trace =>
    let (answer, trace) := world.answer trace request
    plan.drive world fuel (plan.resume stage p answer) trace

/-- A bound on the requests that one command makes. -/
def requestsOf : Command → Nat
  | .delay ms _ => ms.toNat / 5 + 16
  | _ => 4

/-- A bound on the requests of a whole execution. -/
def requestBound (plan : Plan) : Nat :=
  (plan.maxSteps.toNat + 2) *
    (plan.commands.foldl (fun bound command => max bound (requestsOf command)) 4)

/-- Runs an execution to its end. A run that never ends has no outcome. -/
def run (plan : Plan) (world : Surroundings) : Option (Except Fault Tally) × Trace :=
  plan.drive world plan.requestBound plan.start {}

end Plan

end SerialConsole.Script
