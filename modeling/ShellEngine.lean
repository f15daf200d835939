import ShellEngine.Main
import ShellEngine.Process.Child
import ShellEngine.Proofs.Line.Arguments
import ShellEngine.Proofs.Line.PlanText
import ShellEngine.Proofs.Line.Printing
import ShellEngine.Proofs.Line.StageText
import ShellEngine.Proofs.Process.Probe
import ShellEngine.Proofs.Process.Ledger
import ShellEngine.Proofs.Engine.Cancelled
import ShellEngine.Proofs.Engine.Handover
import ShellEngine.Proofs.Engine.Walking
import ShellEngine.Proofs.Environment.Definitions
import ShellEngine.Proofs.Environment.Variables
import ShellEngine.Proofs.Engine.Routing
import ShellEngine.Proofs.Line.Walks
import ShellEngine.Proofs.Line.Accounts
import ShellEngine.Proofs.Expansion.SinglePass
import ShellEngine.Proofs.Expansion.Ending
import ShellEngine.Proofs.Engine.Capturing
import ShellEngine.Proofs.Engine.Inventory
import ShellEngine.Proofs.Console.Detaching
import ShellEngine.Proofs.Console.Whereabouts
import ShellEngine.Proofs.Engine.Replaying
import ShellEngine.Proofs.Environment.Layout
import ShellEngine.Proofs.Engine.Harvesting
import ShellEngine.Proofs.Line.Groups
import ShellEngine.Proofs.Console.Debouncing
import ShellEngine.Proofs.Console.Decoding
import ShellEngine.Proofs.Console.Stripping
import ShellEngine.Proofs.Console.Staying
import ShellEngine.Proofs.Expansion.Matching
import ShellEngine.Proofs.Line.Coverage
import ShellEngine.Proofs.Process.Window
import ShellEngine.Proofs.Environment.Merging
import ShellEngine.Proofs.Process.Bounds
import ShellEngine.Proofs.Engine.Synchrony
import ShellEngine.Proofs.Engine.Crashes
