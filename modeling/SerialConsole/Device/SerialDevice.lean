import SerialConsole.LineSettings
import SerialConsole.Numeral.Double

set_option autoImplicit false

/-!
# Serial devices

A device on a serial line. It holds at most one open port of the line and sends the calls on it to
that port. Each operation takes the answers of the line as arguments; an answer to a call that is
not made is not looked at.
-/
namespace SerialConsole

/-- A call on the line; ports are numbered in the order in which they were opened. -/
inductive LineCall where
  | openPort (url : String) (settings : LineSettings) (readTimeout writeTimeout : Double)
  | read (port : Nat) (size : Int)
  | write (port : Nat) (data : Bytes)
  | flush (port : Nat)
  | cancel (port : Nat)
  | close (port : Nat)
  deriving DecidableEq, Repr

structure SerialDevice where
  name : String
  readSize : Int := 4096
  readTimeout : Double := Double.ofFraction false 2 10
  writeTimeout : Double := Double.ofInt 5
  port : Option Nat := none
  deriving DecidableEq, Repr, Inhabited

namespace SerialDevice

/-- The setting that a serial line cannot have, as a missing choice. -/
def unsupported? (settings : LineSettings) : Option Fault :=
  if !LineSettings.parityChoices.contains settings.parity then
    some (.noSuchKey (Text.quotedString settings.parity))
  else if !LineSettings.stopBitChoices.contains settings.stopBits then
    some (.noSuchKey (toString settings.stopBits))
  else if !LineSettings.dataBitChoices.contains settings.dataBits then
    some (.noSuchKey (toString settings.dataBits))
  else none

/-- Whether a fault of the line means that it cannot be opened this way. -/
def isRefusal (fault : Fault) : Bool :=
  fault.kind = .serialLine || fault.kind = .serialTimeout || fault.kind.isValue

/-- Opens a port. The answer is the new port or the fault of the line; on a fault the device keeps
the port that it had. -/
def openWith (device : SerialDevice) (settings : LineSettings) (answer : Except Fault Nat) :
    SerialDevice × List LineCall × Except Fault Unit :=
  match unsupported? settings with
  | some fault => (device, [], .error (.unsupportedSetting device.name fault))
  | none =>
    let calls := [.openPort device.name settings device.readTimeout device.writeTimeout]
    match answer with
    | .ok port => ({ device with port := some port }, calls, .ok ())
    | .error fault =>
      (device, calls,
        .error (if isRefusal fault then .openRefused device.name fault else fault))

/-- The number of bytes to ask for when `waiting` bytes wait on the line. -/
def askSize (device : SerialDevice) (waiting : Int) : Int :=
  max 1 (min waiting device.readSize)

/-- The port that calls go to: the one that the device holds, if it says that it is open. -/
def usable? (device : SerialDevice) (isOpen : Bool) : Option Nat :=
  if isOpen then device.port else none

/-- Reads what waits on the line; with no open port there is nothing more to read. -/
def read (device : SerialDevice) (isOpen : Bool) (waiting : Except Fault Int)
    (answer : Except Fault Bytes) : List LineCall × Except Fault (Option Bytes) :=
  match device.usable? isOpen with
  | none => ([], .ok none)
  | some port =>
    match waiting with
    | .error fault => ([], .error fault)
    | .ok waiting => ([.read port (device.askSize waiting)], answer.map some)

/-- Ends a pending read, if the line can do that. -/
def cancelRead (device : SerialDevice) (isOpen canCancel : Bool) (answer : Except Fault Unit) :
    List LineCall × Except Fault Unit :=
  match device.usable? isOpen with
  | none => ([], .ok ())
  | some port => if canCancel then ([.cancel port], answer) else ([], .ok ())

/-- The fault that a write reports for a fault of the line. -/
def writeFault (device : SerialDevice) (fault : Fault) : Fault :=
  if fault.kind = .serialTimeout then .writeTimedOut device.name
  else if fault.kind = .serialLine then .writeRefused device.name fault
  else fault

def write (device : SerialDevice) (isOpen : Bool) (data : Bytes)
    (written flushed : Except Fault Unit) : List LineCall × Except Fault Unit :=
  match device.usable? isOpen with
  | none => ([], .error (.portNotOpen device.name))
  | some port =>
    match written with
    | .error fault => ([.write port data], .error (device.writeFault fault))
    | .ok () => ([.write port data, .flush port], flushed.mapError device.writeFault)

/-- Gives the port up and closes it. -/
def close (device : SerialDevice) (answer : Except Fault Unit) :
    SerialDevice × List LineCall × Except Fault Unit :=
  match device.port with
  | none => (device, [], .ok ())
  | some port => ({ device with port := none }, [.close port], answer)

end SerialDevice

end SerialConsole
