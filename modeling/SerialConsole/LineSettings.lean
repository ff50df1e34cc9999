import SerialConsole.Fault

set_option autoImplicit false

/-!
# Line settings

Speed, framing and flow control of a serial line, and the check that they can be used.
-/
namespace SerialConsole

/-- The settings of a serial line; `check` says whether they are usable. -/
structure LineSettings where
  baudRate : Int := 115200
  dataBits : Int := 8
  stopBits : Int := 1
  parity : String := "none"
  flowControl : String := "none"
  deriving DecidableEq, Repr, Inhabited

namespace LineSettings

/-- The allowed numbers of data bits. -/
def dataBitChoices : List Int := [7, 8]

/-- The allowed numbers of stop bits. -/
def stopBitChoices : List Int := [1, 2]

def parityChoices : List String := ["none", "even", "odd"]

/-- The allowed kinds of flow control. -/
def flowControlChoices : List String := ["none", "hardware"]

/-- The first setting that is out of range. -/
def check (line : LineSettings) : Except Fault Unit :=
  if line.baudRate ≤ 0 then .error (.badBaudRate line.baudRate)
  else if !dataBitChoices.contains line.dataBits then .error (.badDataBits line.dataBits)
  else if !stopBitChoices.contains line.stopBits then .error (.badStopBits line.stopBits)
  else if !parityChoices.contains line.parity then .error (.badParity line.parity)
  else if !flowControlChoices.contains line.flowControl then
    .error (.badFlowControl line.flowControl)
  else .ok ()

/-- The short form of the framing, such as `8N1`. -/
def framing (line : LineSettings) : String :=
  toString line.dataBits ++ String.ofList (line.parity.toList.take 1 |>.map Char.toUpper) ++
    toString line.stopBits

end LineSettings

end SerialConsole
