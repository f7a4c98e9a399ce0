import HostControl.Text.Blank
import HostControl.Text.Parts
import HostControl.Text.Alphanumeric
import HostControl.Text.Numeral
import HostControl.Time.Instant
import HostControl.Time.Rfc3339
import HostControl.Net.Address
import HostControl.Net.Text
import HostControl.Net.Url
import HostControl.Real.Shortest
import HostControl.Json.Basic
import HostControl.Json.Reader
import HostControl.Toml.Value
import HostControl.Toml.Token
import HostControl.Toml.Statement
import HostControl.Toml.Document
import HostControl.Redaction.Pattern
import HostControl.Redaction.Credentials
import HostControl.Table
import HostControl.Audit.Event
import HostControl.Audit.Trail
import HostControl.Word
import HostControl.Time.Timer
import HostControl.Time.Answer
import HostControl.Invocation.Circuit
import HostControl.Invocation.Circuits
import HostControl.Invocation.Failure
import HostControl.Invocation.Backoff
import HostControl.Time.Clock
import HostControl.Invocation.Course
import HostControl.Invocation.Invoker
import HostControl.Invocation.Schedule
import HostControl.Config.Settings
import HostControl.Config.Section
import HostControl.Config.Reader
import HostControl.Config.Load
import HostControl.Cache.Service
import HostControl.Admission.Bucket
import HostControl.Admission.Clients
import HostControl.Admission.Controller
import HostControl.Health.Monitor
import HostControl.Workload.Usage
import HostControl.Workload.Snapshot
import HostControl.Workload.Controller
import HostControl.Access.Entry
import HostControl.Access.ProxyFile
import HostControl.Access.Registry
import HostControl.Control.Operation
import HostControl.Control.Response
import HostControl.Control.Plane
import HostControl.Workload.Engine
import HostControl.Cache.Location
import HostControl.Json.Fields
import HostControl.Config.Report
import HostControl.Config.EnvFile
import HostControl.Files.Path
import HostControl.Files.Tree
import HostControl.Files.Standard
import HostControl.Access.Storage
import HostControl.Cli.Command
import HostControl.Cli.Plan
import HostControl.Cli.Assembly
import HostControl.Cli.Program
import HostControl.Cli.Memory
import HostControl.Text.Identifier
import HostControl.Main
import HostControl.Proofs.Access.ProxyFile
import HostControl.Proofs.Access.Entry
import HostControl.Proofs.Access.Run
import HostControl.Proofs.Access.Opening
import HostControl.Proofs.Access.Lockstep
import HostControl.Proofs.Access.Governing
import HostControl.Proofs.Access.Reopening
import HostControl.Proofs.Access.History
import HostControl.Proofs.Invocation.Circuit
import HostControl.Proofs.Invocation.Run
import HostControl.Proofs.Invocation.Safety
import HostControl.Proofs.Invocation.Balance
import HostControl.Proofs.Admission.Window
import HostControl.Proofs.Control.Effects
import HostControl.Proofs.Control.Request
import HostControl.Proofs.Control.Floor
import HostControl.Proofs.Admission.Recency
import HostControl.Proofs.Admission.Callers
import HostControl.Proofs.Invocation.Attempts
import HostControl.Proofs.Invocation.Retrying
import HostControl.Proofs.Admission.Counter
import HostControl.Proofs.Admission.SharedWindow
import HostControl.Proofs.Access.Replay
import HostControl.Proofs.Invocation.Traffic
import HostControl.Proofs.Invocation.Lockout
import HostControl.Proofs.Admission.Take
import HostControl.Proofs.Admission.Faults
import HostControl.Proofs.Admission.Promises
import HostControl.Proofs.Redaction.Matching
import HostControl.Proofs.Redaction.Narrowing
import HostControl.Proofs.Redaction.Credentials
import HostControl.Proofs.Redaction.HiddenValues
import HostControl.Proofs.Admission.Pruning
import HostControl.Proofs.Admission.Fallback
import HostControl.Proofs.Control.Events
import HostControl.Proofs.Control.Story
import HostControl.Proofs.Invocation.Announcements
import HostControl.Proofs.Invocation.Totals
import HostControl.Proofs.Workload.Operations
import HostControl.Proofs.Control.Disclosure
import HostControl.Proofs.Audit.Lines
import HostControl.Proofs.Invocation.Tripping
import HostControl.Proofs.Redaction.Completeness
import HostControl.Proofs.Redaction.Residue
import HostControl.Proofs.Access.Errors
import HostControl.Proofs.Health.Checks
import HostControl.Proofs.Access.Representation
import HostControl.Proofs.Access.WrittenFile
import HostControl.Proofs.Files.Paths
import HostControl.Proofs.Files.Tree
import HostControl.Proofs.Files.Growth
import HostControl.Proofs.Access.Storage
import HostControl.Proofs.Net.Paths
import HostControl.Proofs.Workload.References
import HostControl.Proofs.Invocation.Backoff
import HostControl.Proofs.Workload.Sums
import HostControl.Proofs.Admission.RankIndex
