import SerialConsole.Log.Ring

set_option autoImplicit false

/-!
# Delivery of entries

A new entry is delivered to every registration that was there when the entry was appended, in
order. A listener may react by acting on the log, also by adding entries, whose deliveries then
come first; a listener that fails loses the rest of its actions and is put on record.
-/
namespace SerialConsole.Log

/-- What a listener does to the log while it hears of an entry. -/
inductive Act where
  | add (direction : Direction) (data : Bytes)
  | subscribe (listener : Listener)
  | unsubscribe (listener : Listener)
  | clear
  | fail
  deriving DecidableEq, Repr

/-- How listeners react to an entry; `σ` is what they remember. -/
abbrev Reaction (σ : Type) := σ → Listener → Entry → σ × List Act

/-- Work that is still to be done: deliveries of an entry, or actions of a listener that is hearing
of an entry. -/
inductive Job where
  | deliver (entry : Entry) (listeners : List Listener)
  | perform (hearing : Option Entry) (acts : List Act)
  deriving DecidableEq, Repr

/-- A log in the middle of deliveries: the innermost job comes first. -/
structure Delivery (σ : Type) where
  ring : Ring
  memory : σ
  jobs : List Job := []
  delivered : List (Listener × Entry) := []
  failures : List Nat := []

namespace Delivery

variable {σ : Type}

/-- Performs one action; what remains of the same job is `rest`. -/
def act (d : Delivery σ) (hearing : Option Entry) (rest : List Act) (jobs : List Job) :
    Act → Delivery σ
  | .add direction data =>
    { d with
      ring := d.ring.append direction data
      jobs := .deliver (d.ring.nextEntry direction data) d.ring.listeners ::
        .perform hearing rest :: jobs }
  | .subscribe listener =>
    { d with ring := d.ring.subscribe listener, jobs := .perform hearing rest :: jobs }
  | .unsubscribe listener =>
    { d with ring := d.ring.unsubscribe listener, jobs := .perform hearing rest :: jobs }
  | .clear => { d with ring := d.ring.clear, jobs := .perform hearing rest :: jobs }
  | .fail =>
    match hearing with
    | some entry => { d with failures := d.failures ++ [entry.id], jobs := jobs }
    | none => { d with jobs := jobs }

/-- Does the next piece of work, if there is any. -/
def step (react : Reaction σ) (d : Delivery σ) : Option (Delivery σ) :=
  match d.jobs with
  | [] => none
  | .deliver _ [] :: jobs => some { d with jobs }
  | .deliver entry (listener :: rest) :: jobs =>
    let (memory, acts) := react d.memory listener entry
    some { d with
      memory
      delivered := d.delivered ++ [(listener, entry)]
      jobs := .perform (some entry) acts :: .deliver entry rest :: jobs }
  | .perform _ [] :: jobs => some { d with jobs }
  | .perform hearing (a :: rest) :: jobs => some (d.act hearing rest jobs a)

/-- Does at most `fuel` pieces of work. -/
def run (react : Reaction σ) : Nat → Delivery σ → Delivery σ
  | 0, d => d
  | fuel + 1, d =>
    match d.step react with
    | none => d
    | some next => run react fuel next

/-- Adds an entry and delivers it. The result is the new entry and the log after at most `fuel`
pieces of work. -/
def add (react : Reaction σ) (fuel : Nat) (d : Delivery σ) (direction : Direction) (data : Bytes) :
    Entry × Delivery σ :=
  (d.ring.nextEntry direction data,
    run react fuel { d with jobs := .perform none [.add direction data] :: d.jobs })

end Delivery

end SerialConsole.Log
