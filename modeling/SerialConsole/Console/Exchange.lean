import SerialConsole.Console.Basic

set_option autoImplicit false

/-!
# Exchanges with a device

An exchange connects to a device, does some work over the connection and disconnects, whatever
comes of the work. All traffic goes into the log of the console.
-/
namespace SerialConsole

/-- How to reach a device, and whether to follow the traffic. -/
structure Contact where
  line : Option LineSettings := none
  port : Option String := none
  watched : Bool := false
  deriving DecidableEq, Repr, Inhabited

/-- What an exchange leaves: the workplace and the console after it, the entries that were followed,
the steps that were announced, and the result. -/
structure Exchange (α : Type) where
  workplace : Workplace
  console : Console
  entries : List Log.Entry := []
  steps : List (Nat × Nat) := []
  result : Except Fault α

namespace Exchange

/-- Who follows the traffic. -/
def watcher : Log.Listener := "watch"

/-- An exchange that a fault keeps from taking place. -/
def refused {α : Type} (w : Workplace) (c : Console) (fault : Fault) : Exchange α :=
  { workplace := w, console := c, result := .error fault }

/-- The value of the first piece of work, if all went well. -/
def firstValue : Loop.Outcome → Except Fault Loop.Value
  | .ok (.many [_, .many (value :: _)]) => .ok value
  | .ok _ => .ok .nothing
  | .error fault => .error fault

/-- The port to ask for: the given one, if it is not empty, or that of the settings. -/
def portOf (settings : Settings) (port : Option String) : Option String :=
  match port with
  | some port => if port = "" then settings.port else some port
  | none => settings.port

/-- The loop in which an exchange takes place. Who follows the traffic is registered at the log
of the console. -/
def loopOf (w : Workplace) (c : Console) (contact : Contact) : Loop.State :=
  let log := { c.log with clock := w.clock }
  { session := { log := if contact.watched then log.subscribe watcher else log }
    platform := w.platform }

/-- To connect, and then to do the work and to disconnect whatever comes of it. -/
def errand (c : Console) (contact : Contact) (work : List Loop.Action) : Loop.Action :=
  .inOrder [.connect (contact.line.getD c.settings.line) (portOf c.settings contact.port),
    .scope work]

/-- The exchange that took place in a loop. Who followed the traffic is registered no more. -/
def left (w : Workplace) (c : Console) (contact : Contact) (l : Loop.State)
    (outcome : Loop.Outcome) : Exchange Loop.Value :=
  let log := if contact.watched then l.session.log.unsubscribe watcher else l.session.log
  { workplace :=
      { w with platform := l.platform, clock := log.clock, notes := w.notes ++ l.notes }
    console := { c with log }
    entries := (l.heard.toList.filter (·.1 = watcher)).map (·.2)
    steps := l.announced.toList
    result := firstValue outcome }

/-- Connects, does the work and disconnects. -/
def perform (w : Workplace) (c : Console) (contact : Contact) (work : List Loop.Action) :
    Exchange Loop.Value :=
  let (l, outcome) := (loopOf w c contact).runAlone (errand c contact work)
  left w c contact l outcome

def read {α : Type} (x : Exchange Loop.Value) (f : Loop.Value → Option α) : Exchange α :=
  { workplace := x.workplace
    console := x.console
    entries := x.entries
    steps := x.steps
    result := match x.result with
      | .error fault => .error fault
      | .ok value =>
        match f value with
        | some a => .ok a
        | none => .error .cancelled }

/-- A sleep of some seconds, unless they are none. -/
def pause (seconds : Double) : List Loop.Action :=
  if seconds.isPositive then [.sleep seconds] else []

end Exchange

namespace Console

open Exchange

/-- Runs a script, and goes on reading for some seconds after it. -/
def runScript (c : Console) (w : Workplace) (contact : Contact) (script format ending : String)
    (settle : Double) : Exchange Script.Tally :=
  (perform w c contact (.run script format ending :: pause settle)).read fun
    | .tally tally => some tally
    | _ => none

def runSavedScript (c : Console) (w : Workplace) (contact : Contact)
    (name format ending : String) : Exchange Script.Tally :=
  match c.resolveScript w none (some name) with
  | .ok script => c.runScript w contact script format ending Double.zero
  | .error fault => refused w c fault

/-- Sends data, and listens for some seconds after it. -/
def send (c : Console) (w : Workplace) (contact : Contact) (data format ending : String)
    (listen : Double) : Exchange Log.Entry :=
  (perform w c contact (.sendData data format ending :: pause listen)).read fun
    | .entry entry => some entry
    | _ => none

def sendCommand (c : Console) (w : Workplace) (contact : Contact) (name : String)
    (listen : Double) : Exchange Log.Entry :=
  match c.resolveCommand name with
  | .ok command => c.send w contact command.data command.format "none" listen
  | .error fault => refused w c fault

/-- Listens for some seconds, or until the end of data. The result is the number of entries that
arrived. -/
def monitor (c : Console) (w : Workplace) (contact : Contact) (duration : Option Double) :
    Exchange Nat :=
  (perform w c contact [.listen duration]).read fun
    | .count n => some n
    | _ => none

end Console

end SerialConsole
