import Shellwright.Bench.Observation
import Shellwright.Bench.Reading
import Shellwright.Bench.TimingScript
import Shellwright.Bench.TokenScript
import Shellwright.Command.Run
import Shellwright.Console.DebugLine
import Shellwright.Console.OptionName
import Shellwright.Console.Stream
import Shellwright.Files.Executable
import Shellwright.Main
import Shellwright.Wire.Coordinate
import Shellwright.Wire.Lines
import Shellwright.Proofs.Registry.World
import Shellwright.Proofs.Keyed
import Shellwright.Proofs.Registry.Steps
import Shellwright.Proofs.Registry.Order
import Shellwright.Proofs.Registry.Reacting
import Shellwright.Proofs.Registry.Checking
import Shellwright.Proofs.Registry.Changes
import Shellwright.Proofs.Registry.History
import Shellwright.Proofs.Registry.Active
import Shellwright.Proofs.Registry.Vouching
import Shellwright.Proofs.Review.Desk
import Shellwright.Proofs.Review.Steps
import Shellwright.Proofs.Review.Sessions
import Shellwright.Proofs.Review.Publication
import Shellwright.Proofs.Review.Closed
import Shellwright.Proofs.Registry.Ends
import Shellwright.Proofs.Review.Runs
import Shellwright.Proofs.Review.Endings
import Shellwright.Proofs.Review.Faithful
import Shellwright.Proofs.Review.Shown
import Shellwright.Proofs.Workspace.Steps
import Shellwright.Proofs.Workspace.Closing
import Shellwright.Proofs.Registry.Replacing
import Shellwright.Proofs.Registry.Serial
import Shellwright.Proofs.Review.Passing
import Shellwright.Proofs.Workspace.Passing
import Shellwright.Proofs.Workspace.Orders
import Shellwright.Proofs.Workspace.World
import Shellwright.Proofs.Workspace.Books
import Shellwright.Proofs.Workspace.Configured
import Shellwright.Proofs.Workspace.Overlap
import Shellwright.Proofs.Execution.World
import Shellwright.Proofs.Execution.Steps
import Shellwright.Proofs.Execution.Supervising
import Shellwright.Proofs.Execution.Stopping
import Shellwright.Proofs.Execution.Launching
import Shellwright.Proofs.Execution.Outcome
import Shellwright.Proofs.Registry.Gathering
import Shellwright.Proofs.Registry.Isolation
import Shellwright.Proofs.Registry.Formatting
import Shellwright.Proofs.Command.Reporting
import Shellwright.Proofs.Review.Consulting
import Shellwright.Proofs.Review.Deciding
import Shellwright.Proofs.Review.Faring
import Shellwright.Proofs.Review.Fixing
import Shellwright.Proofs.Review.Unchanged
import Shellwright.Proofs.Review.Keeping
import Shellwright.Proofs.Command.Work
import Shellwright.Proofs.Settings.Complaints
import Shellwright.Proofs.Registry.Turns
import Shellwright.Proofs.Review.Deeds
import Shellwright.Proofs.Review.Alarms
import Shellwright.Proofs.Review.Inspecting
import Shellwright.Proofs.Review.Addresses
import Shellwright.Proofs.Review.Waiting
import Shellwright.Proofs.Review.Clock
import Shellwright.Proofs.Review.Debounce
import Shellwright.Proofs.Review.Scene
import Shellwright.Proofs.Review.Acting
import Shellwright.Proofs.Review.Touching
import Shellwright.Proofs.Review.Independence
import Shellwright.Proofs.Plugin.Tools
import Shellwright.Proofs.Workspace.Workshop
import Shellwright.Proofs.Workspace.Opening
import Shellwright.Proofs.Workspace.Jobs
import Shellwright.Proofs.Workspace.Advancing
import Shellwright.Proofs.Workspace.Together
import Shellwright.Proofs.Command.Checking
import Shellwright.Proofs.Registry.Merging
import Shellwright.Proofs.Registry.Claiming
import Shellwright.Proofs.Workspace.Shutdown
import Shellwright.Proofs.Registry.Seating
import Shellwright.Proofs.Workspace.Site
import Shellwright.Proofs.Review.Heeding
import Shellwright.Proofs.Workspace.Sweeping
import Shellwright.Proofs.Workspace.Applying
import Shellwright.Proofs.Workspace.Settling
import Shellwright.Proofs.Workspace.Reconfiguring
import Shellwright.Proofs.Workspace.Reconfigured
import Shellwright.Proofs.Workspace.Retrying
import Shellwright.Proofs.Workspace.Retried
import Shellwright.Proofs.Wire.Reports
import Shellwright.Proofs.Output.Legible
import Shellwright.Proofs.Output.Verdicts
import Shellwright.Proofs.Review.Upkeep
import Shellwright.Proofs.Cancellation.Links
import Shellwright.Proofs.Cancellation.Silence
import Shellwright.Proofs.Diagnostic.Edits
import Shellwright.Proofs.Registry.Polling
import Shellwright.Proofs.Registry.Probing
import Shellwright.Proofs.Diagnostic.Precedence
import Shellwright.Proofs.Registry.Flags
import Shellwright.Proofs.Settings.RoundTrip
import Shellwright.Proofs.Wire.Paths
import Shellwright.Proofs.Settings.Layers
import Shellwright.Proofs.Settings.Defaults
import Shellwright.Proofs.Execution.Overriding
import Shellwright.Proofs.Execution.Listening
import Shellwright.Proofs.Registry.Agenda
import Shellwright.Proofs.Review.Agenda
import Shellwright.Proofs.Workspace.Agenda
import Shellwright.Proofs.Bench.Outlook
import Shellwright.Proofs.Bench.Agenda
import Shellwright.Proofs.Bench.Turns
import Shellwright.Proofs.Files.Writing
import Shellwright.Proofs.Command.Formatting
import Shellwright.Proofs.Command.Rewriting
import Shellwright.Proofs.Settings.RuleCodes
import Shellwright.Proofs.Files.Executables
import Shellwright.Proofs.Console.DebugLines
