import SerialConsole.LineSettings
import SerialConsole.Log.Ring

set_option autoImplicit false

/-!
# Sessions

A session holds at most one device and a log. Calls on it (connect, send, disconnect, wait for the
end of reading) and its read loops run side by side. They exclude each other by three locks, each
served first come, first served. This module has the state; `Session.Call` has what a call does
between two points at which it waits.
-/
namespace SerialConsole

inductive Phase where
  | disconnected
  | connecting
  | connected
  | closing
  deriving DecidableEq, Repr, Inhabited

def Phase.word : Phase → String
  | .disconnected => "disconnected"
  | .connecting => "connecting"
  | .connected => "connected"
  | .closing => "closing"

/-- A device that a platform gave out. -/
structure Handle where
  id : Nat
  name : String
  deriving DecidableEq, Repr, Inhabited

/-- Who runs on a session: a call of a task, or the read loop of a connection. -/
inductive Caller where
  | call (id : Nat)
  | reader (connection : Nat)
  deriving DecidableEq, Repr, Inhabited

/-- A lock and those who wait for it, the first comer first. -/
structure Lock where
  held : Bool := false
  waiting : List Caller := []
  deriving DecidableEq, Repr, Inhabited

inductive LockName where
  | lifecycle
  | reader
  | writer
  deriving DecidableEq, Repr

/-- How serious a record is. -/
inductive Level where
  | info
  | warning
  | error
  deriving DecidableEq, Repr, Inhabited

def Level.word : Level → String
  | .info => "INFO"
  | .warning => "WARNING"
  | .error => "ERROR"

/-- A line of the program's own record. -/
structure Note where
  level : Level
  text : String
  deriving DecidableEq, Repr, Inhabited

/-- The time that a disconnect waits for the read loop, in seconds. -/
def defaultCloseTimeout : Double := Double.ofInt 2

/-- The state of a session. `reader` is the connection whose read loop belongs to the session, and
`connections` counts the connections so far. -/
structure Session where
  phase : Phase := .disconnected
  device : Option Handle := none
  line : Option LineSettings := none
  readError : Option Fault := none
  stopReading : Bool := false
  reader : Option Nat := none
  connections : Nat := 0
  lifecycleLock : Lock := {}
  readerLock : Lock := {}
  writerLock : Lock := {}
  closeTimeout : Double := defaultCloseTimeout
  log : Log.Ring := {}
  deriving Inhabited

inductive DeviceCall where
  | request (hint : Option String)
  | openWith (device : Handle) (line : LineSettings)
  | write (device : Handle) (data : Bytes)
  | cancelRead (device : Handle)
  | close (device : Handle)
  | read (device : Handle)
  deriving DecidableEq, Repr

/-- The answer to a device call. -/
inductive Reply where
  | done
  | device (device : Handle)
  | chunk (data : Option Bytes)
  | failed (fault : Fault)
  deriving Repr

/-- What a call does besides changing the session. -/
inductive Effect where
  | note (note : Note)
  | logged (entry : Log.Entry) (listeners : List Log.Listener)
  | wake (caller : Caller)
  | startReader (connection : Nat) (device : Handle)
  | cancelReader (connection : Nat)
  deriving Repr

namespace Session

def lock (s : Session) : LockName → Lock
  | .lifecycle => s.lifecycleLock
  | .reader => s.readerLock
  | .writer => s.writerLock

def setLock (s : Session) (name : LockName) (lock : Lock) : Session :=
  match name with
  | .lifecycle => { s with lifecycleLock := lock }
  | .reader => { s with readerLock := lock }
  | .writer => { s with writerLock := lock }

/-- Whether a newcomer gets the lock at once. -/
def isFree (s : Session) (name : LockName) : Bool :=
  !(s.lock name).held && (s.lock name).waiting.isEmpty

def take (s : Session) (name : LockName) : Session :=
  s.setLock name { s.lock name with held := true }

def queue (s : Session) (name : LockName) (caller : Caller) : Session :=
  s.setLock name { s.lock name with waiting := (s.lock name).waiting ++ [caller] }

/-- Takes a lock for a caller whose turn has come. -/
def takeTurn (s : Session) (name : LockName) (caller : Caller) : Session :=
  s.setLock name ⟨true, (s.lock name).waiting.erase caller⟩

/-- Tells the first of those who wait that the lock is free. -/
def wakeFirst (s : Session) (name : LockName) : List Effect :=
  ((s.lock name).waiting.head?.map Effect.wake).toList

/-- Gives a lock back. -/
def release (s : Session) (name : LockName) : Session :=
  s.setLock name { s.lock name with held := false }

/-- Gives up waiting for a lock; if it is free, the next one is told. -/
def giveUp (s : Session) (name : LockName) (caller : Caller) : Session × List Effect :=
  let left := s.setLock name
    { s.lock name with waiting := (s.lock name).waiting.erase caller }
  (left, if (left.lock name).held then [] else left.wakeFirst name)

def isConnected (s : Session) : Bool :=
  s.phase = .connected

/-- Appends an entry to the log of the session. -/
def record (s : Session) (direction : Log.Direction) (data : Bytes) : Session :=
  { s with log := s.log.append direction data }

/-- What the listeners hear of when an entry is appended. -/
def recorded (s : Session) (direction : Log.Direction) (data : Bytes) : Effect :=
  .logged (s.log.nextEntry direction data) s.log.listeners

def deviceName (s : Session) : String :=
  (s.device.map Handle.name).getD "<unknown>"

end Session

end SerialConsole
