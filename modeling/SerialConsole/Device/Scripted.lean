import SerialConsole.Session.Basic

set_option autoImplicit false

/-!
# Scripted devices

A device whose behaviour is given in advance, for rehearsals without hardware: what it receives,
which of its calls fail, and which of them wait until they are let go.
-/
namespace SerialConsole

/-- A call that can be made to wait. -/
inductive Gate where
  | opening
  | writing
  | closing
  deriving DecidableEq, Repr

/-- What a read meets: data, the end of data (`none`), or a fault. -/
inductive Inbound where
  | data (chunk : Option Bytes)
  | fails (fault : Fault)
  deriving Repr, Inhabited

structure Behaviour where
  name : String := "/dev/ttyFAKE0"
  inbound : List Inbound := []
  echo : List Bytes := []
  openError : Option Fault := none
  writeError : Option Fault := none
  closeError : Option Fault := none
  cancelError : Option Fault := none
  writeErrorFrom : Int := 0
  holdOpen : Bool := false
  holdWrite : Bool := false
  holdClose : Bool := false
  onCancel : List Inbound := [.data (some [])]
  deriving Inhabited

/-- What a device does with a call: it answers, makes the call wait at a gate, has nothing to read,
or answers after some time. -/
inductive Response where
  | answered (reply : Reply)
  | held (gate : Gate)
  | idle
  | after (seconds : Double) (reply : Reply)

/-- A scripted device, with the calls made on it so far. -/
structure Scripted where
  behaviour : Behaviour := {}
  queue : List Inbound := []
  writes : Nat := 0
  present : Bool := true
  calls : Array DeviceCall := #[]
  deriving Inhabited

namespace Scripted

/-- The reply of a call that fails with the fault, if there is one. -/
def failing (fault : Option Fault) : Reply :=
  match fault with
  | some fault => .failed fault
  | none => .done

/-- The device as it is given out. -/
def handle (d : Scripted) : Handle :=
  ⟨0, d.behaviour.name⟩

/-- Ends an open; a device that opens starts with its inbound data. -/
def finishOpen (d : Scripted) : Scripted × Reply :=
  match d.behaviour.openError with
  | some fault => (d, .failed fault)
  | none => ({ d with queue := d.behaviour.inbound }, .done)

/-- Queues the echoes of written data. -/
def echoes (d : Scripted) (data : Bytes) : Scripted :=
  { d with queue := d.queue ++ d.behaviour.echo.map fun start => .data (some (start ++ data)) }

/-- Ends the write with the given number. A write that succeeds is echoed. -/
def finishWrite (d : Scripted) (number : Nat) (data : Bytes) : Scripted × Reply :=
  match d.behaviour.writeError with
  | some fault =>
    if d.behaviour.writeErrorFrom ≤ number then (d, .failed fault)
    else (d.echoes data, .done)
  | none => (d.echoes data, .done)

def finishClose (d : Scripted) : Reply :=
  failing d.behaviour.closeError

/-- Tells the device to end a pending read. -/
def cancelRead (d : Scripted) : Scripted × Reply :=
  match d.behaviour.cancelError with
  | some fault => (d, .failed fault)
  | none => ({ d with queue := d.queue ++ d.behaviour.onCancel }, .done)

/-- What a read gets, if there is something. -/
def takeNext (d : Scripted) : Option (Scripted × Reply) :=
  match d.queue with
  | [] => none
  | .data chunk :: rest => some ({ d with queue := rest }, .chunk chunk)
  | .fails fault :: rest => some ({ d with queue := rest }, .failed fault)

/-- An answer given at once. -/
def atOnce (result : Scripted × Reply) : Scripted × Response :=
  (result.1, .answered result.2)

def call (d : Scripted) (request : DeviceCall) : Scripted × Response :=
  match request with
  | .request _ =>
    let d := { d with calls := d.calls.push request }
    (d, .answered (if d.present then .device d.handle
      else .failed (.external .unavailable "No serial ports found")))
  | .openWith _ _ =>
    let d := { d with calls := d.calls.push request }
    if d.behaviour.holdOpen then (d, .held .opening) else atOnce d.finishOpen
  | .write _ data =>
    let number := d.writes
    let d := { d with calls := d.calls.push request, writes := number + 1 }
    if d.behaviour.holdWrite then (d, .held .writing) else atOnce (d.finishWrite number data)
  | .cancelRead _ => atOnce { d with calls := d.calls.push request }.cancelRead
  | .close _ =>
    let d := { d with calls := d.calls.push request }
    if d.behaviour.holdClose then (d, .held .closing) else (d, .answered d.finishClose)
  | .read _ =>
    match d.takeNext with
    | some result => atOnce result
    | none => (d, .idle)

/-- Ends a call that waited at a gate. -/
def letGo (d : Scripted) : DeviceCall → Scripted × Reply
  | .openWith _ _ => d.finishOpen
  | .write _ data => d.finishWrite (d.writes - 1) data
  | _ => (d, d.finishClose)

end Scripted

end SerialConsole
