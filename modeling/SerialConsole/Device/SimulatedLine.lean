import SerialConsole.Device.Ports
import SerialConsole.Device.Scripted
import SerialConsole.Device.SerialDevice

set_option autoImplicit false

/-!
# Simulated serial lines

A serial line whose behaviour is given in advance, and the platform that opens serial devices on
it. A port of it is open until it is closed. Each call on the line acts at once; over a session it
then takes ten milliseconds.
-/
namespace SerialConsole

structure LineBehaviour where
  openError : Option Fault := none
  readError : Option Fault := none
  writeError : Option Fault := none
  flushError : Option Fault := none
  waiting : Int := 0
  chunks : List Bytes := []
  canCancel : Bool := true
  deriving Inhabited

/-- A simulated line, with the calls made on it so far. -/
structure SimulatedLine where
  behaviour : LineBehaviour := {}
  ports : List Port := []
  devices : List SerialDevice := []
  opened : Nat := 0
  chunksRead : Nat := 0
  calls : Array LineCall := #[]
  deriving Inhabited

namespace SimulatedLine

/-- An answer that is a fault if there is one. -/
def answerOf {α : Type} (fault : Option Fault) (value : α) : Except Fault α :=
  match fault with
  | some fault => .error fault
  | none => .ok value

def after (line : SimulatedLine) (calls : List LineCall) : SimulatedLine :=
  { line with calls := line.calls ++ calls.toArray }

def openDevice (line : SimulatedLine) (device : SerialDevice) (settings : LineSettings) :
    SimulatedLine × SerialDevice × Except Fault Unit :=
  let (device, calls, result) :=
    device.openWith settings (answerOf line.behaviour.openError line.opened)
  ({ line.after calls with opened := line.opened + 1 }, device, result)

/-- Reads on a device. The chunks of the line come in turn, then nothing. -/
def readDevice (line : SimulatedLine) (device : SerialDevice) :
    SimulatedLine × Except Fault (Option Bytes) :=
  let chunk := line.behaviour.chunks.getD line.chunksRead []
  let (calls, result) :=
    device.read true (.ok line.behaviour.waiting) (answerOf line.behaviour.readError chunk)
  let taken := if calls.isEmpty || line.behaviour.readError.isSome then 0 else 1
  ({ line.after calls with chunksRead := line.chunksRead + taken }, result)

def writeDevice (line : SimulatedLine) (device : SerialDevice) (data : Bytes) :
    SimulatedLine × Except Fault Unit :=
  let (calls, result) := device.write true data (answerOf line.behaviour.writeError ())
    (answerOf line.behaviour.flushError ())
  (line.after calls, result)

/-- Ends a pending read on a device. -/
def cancelDevice (line : SimulatedLine) (device : SerialDevice) : SimulatedLine :=
  line.after (device.cancelRead true line.behaviour.canCancel (.ok ())).1

def closeDevice (line : SimulatedLine) (device : SerialDevice) : SimulatedLine × SerialDevice :=
  let (device, calls, _) := device.close (.ok ())
  (line.after calls, device)

def listPorts (line : SimulatedLine) : List Port :=
  Port.sorted line.ports

/-- The time that a call on the line takes, in seconds. -/
def callTime : Double := Double.ofFraction false 1 100

/-- The reply for a result without a value. -/
def replyOf : Except Fault Unit → Reply
  | .ok () => .done
  | .error fault => .failed fault

/-- The response after some line calls: at once if none was made. -/
def respond (before after : SimulatedLine) (reply : Reply) : Response :=
  if before.calls.size = after.calls.size then .answered reply else .after callTime reply

def device (line : SimulatedLine) (handle : Handle) : SerialDevice :=
  line.devices.getD handle.id { name := handle.name }

def setDevice (line : SimulatedLine) (handle : Handle) (device : SerialDevice) : SimulatedLine :=
  { line with devices := line.devices.set handle.id device }

/-- Takes a call of a session. -/
def call (line : SimulatedLine) : DeviceCall → SimulatedLine × Response
  | .request hint =>
    match Port.choose line.ports hint with
    | .ok name =>
      ({ line with devices := line.devices ++ [{ name }] },
        .answered (.device ⟨line.devices.length, name⟩))
    | .error fault => (line, .answered (.failed fault))
  | .openWith handle settings =>
    let (next, device, result) := line.openDevice (line.device handle) settings
    (next.setDevice handle device, respond line next (replyOf result))
  | .read handle =>
    let (next, result) := line.readDevice (line.device handle)
    (next, respond line next (match result with
      | .ok chunk => .chunk chunk
      | .error fault => .failed fault))
  | .write handle data =>
    let (next, result) := line.writeDevice (line.device handle) data
    (next, respond line next (replyOf result))
  | .cancelRead handle => (line.cancelDevice (line.device handle), .answered .done)
  | .close handle =>
    let (next, device) := line.closeDevice (line.device handle)
    (next.setDevice handle device, respond line next .done)

end SimulatedLine

end SerialConsole
