import SerialConsole.Log.Delivery
import SerialConsole.Main
import SerialConsole.Script.Run
import SerialConsole.Proofs.Script.Block
import SerialConsole.Proofs.Script.Statement
import SerialConsole.Proofs.Script.Pairing
import SerialConsole.Proofs.Script.Grammar
import SerialConsole.Proofs.Numeral.Rounding
import SerialConsole.Proofs.Script.Slicing
import SerialConsole.Proofs.Script.Walking
import SerialConsole.Proofs.Script.Performing
import SerialConsole.Proofs.Script.Meaning
import SerialConsole.Proofs.Script.Reach
import SerialConsole.Proofs.Script.Nesting
import SerialConsole.Proofs.Script.Ending
import SerialConsole.Proofs.Script.Exchanges
import SerialConsole.Proofs.Script.Stopping
import SerialConsole.Proofs.Session.Course
import SerialConsole.Proofs.Session.Locks
import SerialConsole.Proofs.Session.Invariant
import SerialConsole.Proofs.Session.Steps
import SerialConsole.Proofs.Session.Protocol
import SerialConsole.Proofs.Session.Rounds
import SerialConsole.Proofs.Session.Deeds
import SerialConsole.Proofs.Session.Inversion
import SerialConsole.Proofs.Session.Phases
import SerialConsole.Proofs.Session.Sends
import SerialConsole.Proofs.Session.Writers
import SerialConsole.Proofs.Session.Isolation
import SerialConsole.Proofs.Session.SentLog
import SerialConsole.Proofs.Session.Inbound
import SerialConsole.Proofs.Session.Orders
import SerialConsole.Proofs.Session.Fairness
import SerialConsole.Proofs.Session.ReaderLock
import SerialConsole.Proofs.Session.Disconnecting
import SerialConsole.Proofs.Script.Refusals
import SerialConsole.Proofs.Script.StepLimit
import SerialConsole.Proofs.Script.FailingSend
import SerialConsole.Proofs.Script.Brackets
import SerialConsole.Proofs.Script.Polling
import SerialConsole.Proofs.Text.Payload
import SerialConsole.Proofs.Runner.Scene
import SerialConsole.Proofs.Runner.Performance
import SerialConsole.Proofs.Runner.Transmission
import SerialConsole.Proofs.Text.Display
import SerialConsole.Proofs.Log.History
import SerialConsole.Proofs.Log.Retention
import SerialConsole.Proofs.Runner.Bench
import SerialConsole.Proofs.Runner.Exclusive
import SerialConsole.Proofs.Settings.Form
import SerialConsole.Proofs.Settings.Usable
import SerialConsole.Proofs.Script.Saved
import SerialConsole.Proofs.Console.Store
import SerialConsole.Proofs.Session.Asides
import SerialConsole.Proofs.Session.Watching
import SerialConsole.Proofs.Loop.Bookkeeping
import SerialConsole.Proofs.Loop.Moves
import SerialConsole.Proofs.Loop.Bystanders
import SerialConsole.Proofs.Loop.Course
import SerialConsole.Proofs.Loop.Ledger
import SerialConsole.Proofs.Loop.Errand
import SerialConsole.Proofs.Loop.Connecting
import SerialConsole.Proofs.Loop.Working
import SerialConsole.Proofs.Loop.Parting
import SerialConsole.Proofs.Loop.Waiting
import SerialConsole.Proofs.Loop.Standing
import SerialConsole.Proofs.Console.OneShot
import SerialConsole.Proofs.Yaml.Scanning
import SerialConsole.Proofs.Yaml.Composing
import SerialConsole.Proofs.Yaml.Making
import SerialConsole.Proofs.Console.BadFiles
import SerialConsole.Proofs.Console.Reloading
import SerialConsole.Proofs.Script.Verdict
import SerialConsole.Proofs.Text.Lines
import SerialConsole.Proofs.Script.Writing
import SerialConsole.Proofs.Script.Spelling
import SerialConsole.Proofs.Script.Composing
import SerialConsole.Proofs.Script.Rendering
import SerialConsole.Proofs.Script.ErrorLines
import SerialConsole.Proofs.Script.Layout
import SerialConsole.Proofs.Log.TimeOfDay
import SerialConsole.Proofs.Log.Export
import SerialConsole.Proofs.Log.Hearing
import SerialConsole.Proofs.Log.Registrations
import SerialConsole.Proofs.Session.Twins
import SerialConsole.Proofs.Session.Idling
import SerialConsole.Proofs.Session.Counterpart
import SerialConsole.Proofs.Session.Restoring
import SerialConsole.Proofs.Text.Validity
import SerialConsole.Proofs.Text.Order
import SerialConsole.Proofs.Device.Choice
import SerialConsole.Proofs.Yaml.Nodes
import SerialConsole.Proofs.Yaml.Steps
import SerialConsole.Proofs.Yaml.Values
import SerialConsole.Proofs.Yaml.Filling
import SerialConsole.Proofs.Yaml.Composed
import SerialConsole.Proofs.Settings.DuplicateKeys
import SerialConsole.Proofs.Yaml.Written
import SerialConsole.Proofs.Files.Saving
import SerialConsole.Proofs.Settings.Tree
import SerialConsole.Proofs.Settings.Held
import SerialConsole.Proofs.Settings.RoundTrip
import SerialConsole.Proofs.Files.Untouched
import SerialConsole.Proofs.Script.Names
import SerialConsole.Proofs.Script.Unquoted
import SerialConsole.Proofs.Device.Uses
import SerialConsole.Proofs.Loop.Following
import SerialConsole.Proofs.CommandLine.Echo
import SerialConsole.Proofs.Numeral.Sizes
