import EdgeCaller.Client.Connection
import EdgeCaller.Main
import EdgeCaller.Number.Bits
import EdgeCaller.Number.Spelling
import EdgeCaller.Program
import EdgeCaller.Shutdown.Command
import EdgeCaller.Text.Utf8
import EdgeCaller.Proofs.Number.Whole
import EdgeCaller.Proofs.Delay
import EdgeCaller.Proofs.Writing
import EdgeCaller.Proofs.Printing
import EdgeCaller.Proofs.Members
import EdgeCaller.Proofs.Redaction
import EdgeCaller.Proofs.Segments
import EdgeCaller.Proofs.Settings.Layers
import EdgeCaller.Proofs.Settings.Sessions
import EdgeCaller.Proofs.Settings.Agreement
import EdgeCaller.Proofs.Client.Calls
import EdgeCaller.Proofs.Client.Service
import EdgeCaller.Proofs.Client.Conveyance
import EdgeCaller.Proofs.Client.Opening
import EdgeCaller.Proofs.Client.Containment
import EdgeCaller.Proofs.Sender.Protocol
import EdgeCaller.Proofs.Sender.History
import EdgeCaller.Proofs.Sender.Pending
import EdgeCaller.Proofs.Sender.Foreseen
import EdgeCaller.Proofs.Sender.State
import EdgeCaller.Proofs.Sender.Moves
import EdgeCaller.Proofs.Sender.Attempts
import EdgeCaller.Proofs.Sender.Answers
import EdgeCaller.Proofs.Sender.Outside
import EdgeCaller.Proofs.Sender.OverClient
import EdgeCaller.Proofs.Sender.Frame
import EdgeCaller.Proofs.Sender.Failures
import EdgeCaller.Proofs.Sender.Steps
import EdgeCaller.Proofs.Sender.Schedule
import EdgeCaller.Proofs.Sender.World
import EdgeCaller.Proofs.Sender.Loop
import EdgeCaller.Proofs.Sender.Teardown
import EdgeCaller.Proofs.Sender.Residue
import EdgeCaller.Proofs.Sender.ForcedExit
import EdgeCaller.Proofs.Sender.Rest
import EdgeCaller.Proofs.Sender.Correspondence
import EdgeCaller.Proofs.Sender.Timetable
import EdgeCaller.Proofs.Sender.Cadence
import EdgeCaller.Proofs.Sender.Punctuality
import EdgeCaller.Proofs.Sender.Interval
import EdgeCaller.Proofs.Shutdown.Orders
import EdgeCaller.Proofs.Shutdown.Requests
import EdgeCaller.Proofs.Shutdown.Coordination
import EdgeCaller.Proofs.Shutdown.Course
import EdgeCaller.Proofs.Shutdown.Roster
import EdgeCaller.Proofs.Shutdown.Shares
import EdgeCaller.Proofs.Shutdown.Operations
import EdgeCaller.Proofs.Shutdown.Company
import EdgeCaller.Proofs.Verbosity
import EdgeCaller.Proofs.Sender.Alike
import EdgeCaller.Proofs.Program.Secrecy
import EdgeCaller.Proofs.Program.Observation
import EdgeCaller.Proofs.Sender.Ending
import EdgeCaller.Proofs.Sender.Milestones
import EdgeCaller.Proofs.Program.Exit
import EdgeCaller.Proofs.Sender.Announcement
import EdgeCaller.Proofs.Program.Floor
import EdgeCaller.Proofs.Number.Rounding
import EdgeCaller.Proofs.TimeSpan.Duration
import EdgeCaller.Proofs.Blanks
import EdgeCaller.Proofs.Settings.Acceptance
import EdgeCaller.Proofs.Shutdown.Naps
import EdgeCaller.Proofs.Shutdown.Sleeps
import EdgeCaller.Proofs.LetterCase
import EdgeCaller.Proofs.Transports
import EdgeCaller.Proofs.Reporting
