set_option autoImplicit false

/-!
# Families of faults

The families that a fault can belong to. A rule that lets some faults pass and reports others goes
by the family.
-/
namespace SerialConsole

/-- How a fault of a foreign family is treated: as a plain failure, as a failure of the operating
system, as a value that cannot be used, or as an end of the program. -/
inductive Nature where
  | plain
  | system
  | value
  | quitting
  deriving DecidableEq, Repr, Inhabited

/-- The families of faults. A foreign one has a name of its own. -/
inductive Kind where
  | console
  | format | hexFormat
  | script | emptyScript | scriptSyntax | scriptRange | scriptBusy
  | execution | sendFailed | executionCancelled | runaway | unbalanced
  | transport | notConnected | emptyPayload | unavailable | openFailed | sessionBusy | writeFailed
  | settings | settingsLoad | settingsInvalid
  | osError | fileNotFound | fileExists | notADirectory | isADirectory
  | value | decode | overflow | type | key | index | attribute | runtime
  | serialLine | serialTimeout
  | interrupt | cancelled
  | foreign (name : String) (nature : Nature)
  deriving DecidableEq, Repr, Inhabited

namespace Kind

/-- Whether the family is one of the console's own. -/
def isOwn : Kind → Bool
  | console | format | hexFormat | script | emptyScript | scriptSyntax | scriptRange | scriptBusy
  | execution | sendFailed | executionCancelled | runaway | unbalanced
  | transport | notConnected | emptyPayload | unavailable | openFailed | sessionBusy | writeFailed
  | settings | settingsLoad | settingsInvalid => true
  | _ => false

/-- Whether a fault of the family is an ordinary failure; an interrupt or a cancellation is not. -/
def isOrdinary : Kind → Bool
  | interrupt | cancelled => false
  | foreign _ nature => nature ≠ .quitting
  | _ => true

/-- Whether a fault of the family is a failure of the operating system. -/
def isSystem : Kind → Bool
  | osError | fileNotFound | fileExists | notADirectory | isADirectory
  | serialLine | serialTimeout => true
  | foreign _ nature => nature = .system
  | _ => false

/-- Whether a fault of the family reports a value that cannot be used. -/
def isValue : Kind → Bool
  | value | decode => true
  | foreign _ nature => nature = .value
  | _ => false

/-- Whether the family stops a script at one of its commands. -/
def isExecution : Kind → Bool
  | execution | sendFailed | executionCancelled | runaway | unbalanced => true
  | _ => false

end Kind

end SerialConsole
