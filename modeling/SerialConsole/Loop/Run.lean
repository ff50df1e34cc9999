import SerialConsole.Loop.Step

set_option autoImplicit false

/-!
# Running the event loop

Running until nothing is ready, running until a task has ended, and running one task as the whole
of a loop. An interrupt ends the latter: all other tasks are cancelled and run to their ends
first.
-/
namespace SerialConsole.Loop.State

/-- The number of steps after which a run is given up. -/
def patience : Nat := 0x1000000000000000

/-- Takes at most `fuel` steps while something is ready and no interrupt has left the loop. -/
def settleWithin : Nat → State → State
  | 0, l => l
  | fuel + 1, l =>
    if l.interrupted.isSome then l
    else
      match l.step with
      | some next => settleWithin fuel next
      | none => l

/-- Runs until nothing is ready. -/
def settle (l : State) : State :=
  settleWithin patience l

/-- Takes at most `fuel` steps and moves of time, until a task has ended. -/
def awaitWithin (n : Nat) : Nat → State → State
  | 0, l => l
  | fuel + 1, l =>
    if (l.resultOf n).isSome || l.interrupted.isSome then l
    else
      match l.step with
      | some next => awaitWithin n fuel next
      | none =>
        match l.jump with
        | some next => awaitWithin n fuel next
        | none => l

/-- Runs until a task has ended. -/
def await (l : State) (n : Nat) : State :=
  awaitWithin n patience l

/-- Cancels all tasks that have not ended. -/
def cancelAll (l : State) : State :=
  (List.range l.tasks.size).foldl (fun l n =>
    if (l.resultOf n).isSome then l else l.cancel n) l

/-- The first task that has not ended. -/
def unfinished (l : State) : Option Nat :=
  (List.range l.tasks.size).find? fun n => (l.resultOf n).isNone

/-- Waits for the tasks that have not ended, at most `count` of them. -/
def awaitAll : Nat → State → State
  | 0, l => l
  | count + 1, l =>
    match l.unfinished with
    | some n => awaitAll count (l.await n)
    | none => l

/-- Cancels what still runs and waits for it. -/
def shutDown (l : State) : State :=
  let l := { l with active := none, interrupted := none }.cancelAll
  awaitAll l.tasks.size l

/-- The outcome of a task: the interrupt that has left the loop, if one has, or its result. -/
def outcomeOf (l : State) (n : Nat) : Outcome :=
  match l.interrupted with
  | some fault => .error fault
  | none => (l.resultOf n).getD (.error .cancelled)

def runAlone (l : State) (action : Action) : State × Outcome :=
  let (l, n) := l.spawnAction action
  let l := l.await n
  (l.shutDown, l.outcomeOf n)

end SerialConsole.Loop.State
