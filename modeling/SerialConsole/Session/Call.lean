import SerialConsole.Session.Basic

set_option autoImplicit false

/-!
# Calls on a session

What a call does from one waiting point to the next. `begin` functions start a call; `resume` goes
on after the thing that the call waits for has happened. Each of these steps is atomic: nothing
else runs on the session in between. A device call is answered by the surroundings, at once or
later.
-/
namespace SerialConsole.Session

/-- What a call gives back: nothing, or the log entry of what it sent. -/
inductive Result where
  | nothing
  | entry (entry : Log.Entry)
  deriving DecidableEq, Repr, Inhabited

/-- The points at which a call waits, with what it needs to go on. -/
inductive Point where
  | connectTurn (line : LineSettings) (hint : Option String)
  | requesting (line : LineSettings)
  | opening (device : Handle) (line : LineSettings)
  | sendTurn (data : Bytes)
  | writing (device : Handle) (data : Bytes)
  | disconnectTurn
  | cancelling (device : Option Handle) (reader : Option Nat)
  | endOfReading (device : Option Handle) (reader : Nat)
  | cancelledReading (device : Option Handle)
  | closeTurn (device : Option Handle)
  | closing (device : Option Handle)
  | closed
  | readTurn (device : Handle)
  | reading (device : Handle)
  deriving DecidableEq, Repr

/-- How a step ends: the call is over, or it waits. -/
inductive Pause where
  | over (result : Except Fault Result)
  | askDevice (call : DeviceCall) (point : Point)
  | awaitTurn (lock : LockName) (point : Point)
  | awaitEndOfReading (reader : Nat) (point : Point)
  | joinReader (reader : Nat) (point : Point)
  | watchReader (reader : Nat) (point : Point)

/-- What a waiting call is told. -/
inductive Signal where
  | reply (reply : Reply)
  | turn
  | readingEnded (inTime : Bool)
  | joined (result : Except Fault Result)
  | cancelled

/-- The outcome of a step: the session after it, what else it did, and how it ended. -/
structure Step where
  session : Session
  effects : List Effect
  pause : Pause

def finish (s : Session) (effects : List Effect) (result : Except Fault Result) : Step :=
  ⟨s, effects, .over result⟩

/-- Gives a lock back and ends a call. -/
def leave (s : Session) (name : LockName) (effects : List Effect)
    (result : Except Fault Result) : Step :=
  ⟨s.release name, effects ++ s.wakeFirst name, .over result⟩

/-- Takes a lock and goes on, or waits for its turn. -/
def enter (s : Session) (me : Caller) (name : LockName) (point : Point) (go : Session → Step) :
    Step :=
  if s.isFree name then go (s.take name) else ⟨s.queue name me, [], .awaitTurn name point⟩

/-- A note for the record. -/
def say (level : Level) (text : String) : Effect :=
  .note ⟨level, text⟩

/-! ## Connecting -/

/-- Connects once the lifecycle lock is held. -/
def connectLocked (line : LineSettings) (hint : Option String) (s : Session) : Step :=
  if s.phase ≠ .disconnected then
    s.leave .lifecycle [] (.error (.sessionBusy s.deviceName s.phase.word))
  else
    match line.check with
    | .error fault => s.leave .lifecycle [] (.error fault)
    | .ok () => ⟨{ s with phase := .connecting }, [], .askDevice (.request hint) (.requesting line)⟩

/-- Connects to the device that fits the hint. -/
def beginConnect (s : Session) (me : Caller) (line : LineSettings) (hint : Option String) : Step :=
  s.enter me .lifecycle (.connectTurn line hint) (connectLocked line hint)

def connectFailed (s : Session) (fault : Fault) : Step :=
  leave { s with phase := .disconnected } .lifecycle [] (.error fault)

/-- The fault that a connect reports for a failed open. -/
def openFault (device : Handle) (fault : Fault) : Fault :=
  if fault.kind = .unavailable ∨ fault.kind = .openFailed ∨ ¬fault.isOrdinary then fault
  else .openRefused device.name fault

/-- The session after a device was opened. -/
def connectedTo (s : Session) (device : Handle) (line : LineSettings) : Session :=
  { s with
    phase := .connected
    device := some device
    line := some line
    readError := none
    stopReading := false
    reader := some s.connections
    connections := s.connections + 1 }

/-- The note that a connection was made. -/
def connectedNote (device : Handle) (line : LineSettings) : Effect :=
  say .info ("Connected to " ++ device.name ++ " at " ++ toString line.baudRate ++ " baud (" ++
    line.framing ++ ", flow=" ++ line.flowControl ++ ")")

/-! ## Sending -/

/-- Sends once the writer lock is held. -/
def sendLocked (data : Bytes) (s : Session) : Step :=
  match s.phase, s.device with
  | .connected, some device => ⟨s, [], .askDevice (.write device data) (.writing device data)⟩
  | _, _ => s.leave .writer [] (.error .connectionLost)

def beginSend (s : Session) (me : Caller) (data : Bytes) : Step :=
  if s.phase ≠ .connected then s.finish [] (.error .notConnected)
  else if data.isEmpty then s.finish [] (.error .emptyPayload)
  else s.enter me .writer (.sendTurn data) (sendLocked data)

/-- Sends what the operator typed. -/
def beginSendData (s : Session) (me : Caller) (data format ending : String) : Step :=
  match Payload.encode data format ending with
  | .ok bytes => s.beginSend me bytes
  | .error fault => s.finish [] (.error fault)

/-- The fault that a send reports for a failed write. -/
def writeFault (device : Handle) (fault : Fault) : Fault :=
  if fault.kind = .writeFailed ∨ ¬fault.isOrdinary then fault else .writeRefused device.name fault

/-- Logs what was written and ends the send. -/
def written (s : Session) (data : Bytes) : Step :=
  leave (s.record .sent data) .writer [s.recorded .sent data]
    (.ok (.entry (s.log.nextEntry .sent data)))

/-! ## Disconnecting -/

def nameOf (device : Option Handle) : String :=
  (device.map Handle.name).getD "<unknown>"

/-- Breaks off a disconnect with a fault that is no ordinary failure. -/
def breakOff (s : Session) (effects : List Effect) (fault : Fault) : Step :=
  leave { s with phase := .disconnected } .lifecycle effects (.error fault)

/-- Ends a disconnect; the writer lock is held. -/
def disconnected (s : Session) (effects : List Effect) (device : Option Handle) : Step :=
  let free := s.release .writer
  leave { free with phase := .disconnected } .lifecycle
    (effects ++ s.wakeFirst .writer ++ [say .info ("Disconnected from " ++ nameOf device)])
    (.ok .nothing)

/-- Closes the device once the writer lock is held. -/
def closeLocked (device : Option Handle) (effects : List Effect) (s : Session) : Step :=
  match device with
  | some d => ⟨s, effects, .askDevice (.close d) (.closing device)⟩
  | none => s.disconnected effects device

/-- Waits for writes to end and closes the device. -/
def closeNext (s : Session) (me : Caller) (effects : List Effect) (device : Option Handle) : Step :=
  if s.isFree .writer then closeLocked device effects (s.take .writer)
  else ⟨s.queue .writer me, effects, .awaitTurn .writer (.closeTurn device)⟩

/-- Goes on to wait for the read loop, after the pending read was told to end. -/
def readerNext (s : Session) (me : Caller) (effects : List Effect) (device : Option Handle)
    (reader : Option Nat) : Step :=
  match reader with
  | some n => ⟨s, effects, .awaitEndOfReading n (.endOfReading device n)⟩
  | none => s.closeNext me effects device

/-- Disconnects once the lifecycle lock is held. -/
def disconnectLocked (me : Caller) (s : Session) : Step :=
  if s.phase = .disconnected then s.leave .lifecycle [] (.ok .nothing)
  else
    let closing := { s with phase := .closing, device := none, reader := none, stopReading := true }
    match s.device with
    | some device =>
      ⟨closing, [], .askDevice (.cancelRead device) (.cancelling s.device s.reader)⟩
    | none => closing.readerNext me [] s.device s.reader

def beginDisconnect (s : Session) (me : Caller) : Step :=
  s.enter me .lifecycle .disconnectTurn (disconnectLocked me)

/-! ## Waiting for the end of reading -/

/-- Waits until the read loop of the current connection ends. -/
def beginWaitClosed (s : Session) : Step :=
  match s.reader with
  | some reader => ⟨s, [], .watchReader reader .closed⟩
  | none => s.finish [] (.ok .nothing)

/-! ## Reading -/

/-- Asks for the next chunk unless reading was told to stop. -/
def readNext (s : Session) (effects : List Effect) (device : Handle) : Step :=
  if s.stopReading then s.leave .reader effects (.ok .nothing)
  else ⟨s, effects, .askDevice (.read device) (.reading device)⟩

/-- Starts the read loop of a connection. -/
def beginRead (s : Session) (me : Caller) (device : Handle) : Step :=
  s.enter me .reader (.readTurn device) fun s => s.readNext [] device

/-- Handles a chunk; no chunk is the end of data, and an empty one means that nothing arrived. -/
def chunkRead (s : Session) (device : Handle) : Option Bytes → Step
  | none => s.leave .reader [say .info ("End of data from " ++ device.name)] (.ok .nothing)
  | some data =>
    if s.stopReading then s.leave .reader [] (.ok .nothing)
    else if data.isEmpty then s.readNext [] device
    else readNext (s.record .received data) [s.recorded .received data] device

/-- Handles a failed read. After the stop it is no error. -/
def readFailed (s : Session) (device : Handle) (fault : Fault) : Step :=
  if !fault.isOrdinary then s.leave .reader [] (.error fault)
  else if s.stopReading then s.leave .reader [] (.ok .nothing)
  else
    leave { s with readError := some fault } .reader
      [say .error ("Reading from " ++ device.name ++ " failed: " ++ fault.message)] (.ok .nothing)

/-! ## Going on -/

/-- Goes on after a device call was answered. -/
def onReply (s : Session) (me : Caller) : Point → Reply → Step
  | .requesting line, .device device =>
    ⟨s, [], .askDevice (.openWith device line) (.opening device line)⟩
  | .requesting _, .failed fault => s.connectFailed fault
  | .opening device _, .failed fault => s.connectFailed (openFault device fault)
  | .opening device line, _ =>
    leave (s.connectedTo device line) .lifecycle
      [.startReader s.connections device, connectedNote device line] (.ok .nothing)
  | .writing device _, .failed fault => s.leave .writer [] (.error (writeFault device fault))
  | .writing _ data, _ => s.written data
  | .cancelling device reader, .failed fault =>
    if fault.isOrdinary then
      s.readerNext me
        [say .warning ("Cancelling read on " ++ nameOf device ++ " failed: " ++ fault.message)]
        device reader
    else s.breakOff [] fault
  | .cancelling device reader, _ => s.readerNext me [] device reader
  | .closing device, .failed fault =>
    if fault.isOrdinary then
      s.disconnected [say .warning ("Closing " ++ nameOf device ++ " failed: " ++ fault.message)]
        device
    else breakOff (s.release .writer) (s.wakeFirst .writer) fault
  | .closing device, _ => s.disconnected [] device
  | .reading device, .failed fault => s.readFailed device fault
  | .reading device, .chunk data => s.chunkRead device data
  | _, _ => s.finish [] (.ok .nothing)

/-- Goes on when the turn for a lock has come. -/
def onTurn (s : Session) (me : Caller) : Point → Step
  | .connectTurn line hint => connectLocked line hint (s.takeTurn .lifecycle me)
  | .sendTurn data => sendLocked data (s.takeTurn .writer me)
  | .disconnectTurn => disconnectLocked me (s.takeTurn .lifecycle me)
  | .closeTurn device => closeLocked device [] (s.takeTurn .writer me)
  | .readTurn device => readNext (s.takeTurn .reader me) [] device
  | _ => s.finish [] (.ok .nothing)

/-- Goes on when a cancelled read loop has ended. -/
def onJoined (s : Session) (me : Caller) (device : Option Handle) :
    Except Fault Result → Step
  | .ok _ => s.closeNext me [] device
  | .error fault =>
    if fault.kind = .cancelled then s.closeNext me [] device
    else if fault.isOrdinary then
      s.closeNext me
        [say .warning ("Read loop ended with error during disconnect: " ++ fault.message)] device
    else s.breakOff [] fault

/-- Gives up where a call waits, because its caller was cancelled. -/
def onCancel (s : Session) (me : Caller) : Point → Step
  | .connectTurn _ _ | .disconnectTurn =>
    let (s, effects) := s.giveUp .lifecycle me
    s.finish effects (.error .cancelled)
  | .requesting _ | .opening _ _ => s.connectFailed .cancelled
  | .sendTurn _ =>
    let (s, effects) := s.giveUp .writer me
    s.finish effects (.error .cancelled)
  | .writing _ _ => s.leave .writer [] (.error .cancelled)
  | .cancelling _ _ | .endOfReading _ _ => s.breakOff [] .cancelled
  | .cancelledReading device => s.closeNext me [] device
  | .closeTurn _ =>
    let (s, effects) := s.giveUp .writer me
    s.breakOff effects .cancelled
  | .closing _ => breakOff (s.release .writer) (s.wakeFirst .writer) .cancelled
  | .closed => s.finish [] (.error .cancelled)
  | .readTurn _ =>
    let (s, effects) := s.giveUp .reader me
    s.finish effects (.error .cancelled)
  | .reading _ => s.leave .reader [] (.error .cancelled)

/-- Goes on after what a call waits for has happened. -/
def resume (s : Session) (me : Caller) (point : Point) : Signal → Step
  | .reply reply => s.onReply me point reply
  | .turn => s.onTurn me point
  | .readingEnded inTime =>
    match point with
    | .endOfReading device reader =>
      if inTime then s.closeNext me [] device
      else ⟨s, [.cancelReader reader], .joinReader reader (.cancelledReading device)⟩
    | _ => s.finish [] (.ok .nothing)
  | .joined result =>
    match point with
    | .cancelledReading device => s.onJoined me device result
    | _ => s.finish [] (result.map fun _ => .nothing)
  | .cancelled => s.onCancel me point

end SerialConsole.Session
