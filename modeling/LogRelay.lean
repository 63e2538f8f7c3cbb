import LogRelay.Batch
import LogRelay.CommandLine.Arguments
import LogRelay.CommandLine.Basic
import LogRelay.CommandLine.Refusal
import LogRelay.CommandLine.Resemblance
import LogRelay.CommandLine.Scope
import LogRelay.Config.Basic
import LogRelay.Config.Load
import LogRelay.Config.Location
import LogRelay.Config.Reader
import LogRelay.Config.Reference
import LogRelay.Config.SocketAddress
import LogRelay.Config.Starter
import LogRelay.Config.Writer
import LogRelay.Disk
import LogRelay.Duration.Basic
import LogRelay.Duration.Reader
import LogRelay.Duration.Unit
import LogRelay.Duration.Writer
import LogRelay.Gateway.Client
import LogRelay.Gateway.Transport
import LogRelay.Gateway.Wire
import LogRelay.Host.Framing
import LogRelay.Host.LineInput
import LogRelay.Host.Message
import LogRelay.Host.Naming
import LogRelay.Http.Message
import LogRelay.Http.Url
import LogRelay.Json.Basic
import LogRelay.Json.Numeral
import LogRelay.Json.Quoted
import LogRelay.Json.Reader
import LogRelay.Json.Record
import LogRelay.Loop
import LogRelay.Main
import LogRelay.Members
import LogRelay.Proofs.Accounting
import LogRelay.Proofs.Addressing
import LogRelay.Proofs.Admission
import LogRelay.Proofs.AnswerFates
import LogRelay.Proofs.Backlog
import LogRelay.Proofs.Books
import LogRelay.Proofs.BulkOperations
import LogRelay.Proofs.ByteOrder
import LogRelay.Proofs.Conditions
import LogRelay.Proofs.ConfigRoundTrip
import LogRelay.Proofs.Conservation
import LogRelay.Proofs.Coupling
import LogRelay.Proofs.Courses
import LogRelay.Proofs.DegradedAdmission
import LogRelay.Proofs.DestinationChain
import LogRelay.Proofs.Dialogue
import LogRelay.Proofs.Draining
import LogRelay.Proofs.DurationRoundTrip
import LogRelay.Proofs.Fields
import LogRelay.Proofs.History
import LogRelay.Proofs.HostStream
import LogRelay.Proofs.Interleaving
import LogRelay.Proofs.Isolation
import LogRelay.Proofs.JsonGrammar
import LogRelay.Proofs.JsonRoundTrip
import LogRelay.Proofs.JsonSpans
import LogRelay.Proofs.JsonSpelling
import LogRelay.Proofs.Ledgers
import LogRelay.Proofs.LifetimeInvariant
import LogRelay.Proofs.Lifetimes
import LogRelay.Proofs.LineFraming
import LogRelay.Proofs.LineLimit
import LogRelay.Proofs.LineReading
import LogRelay.Proofs.LockHolding
import LogRelay.Proofs.LoopRuns
import LogRelay.Proofs.MessageMembers
import LogRelay.Proofs.Packing
import LogRelay.Proofs.Passage
import LogRelay.Proofs.Progress
import LogRelay.Proofs.Provisioning
import LogRelay.Proofs.Recovery
import LogRelay.Proofs.Redelivery
import LogRelay.Proofs.References
import LogRelay.Proofs.RemoteAgreement
import LogRelay.Proofs.Retries
import LogRelay.Proofs.Schedules
import LogRelay.Proofs.Sessions
import LogRelay.Proofs.Settlement
import LogRelay.Proofs.Snapshots
import LogRelay.Proofs.Stock
import LogRelay.Proofs.StreamOpening
import LogRelay.Proofs.Streams
import LogRelay.Proofs.SubmissionBody
import LogRelay.Proofs.SweeperClock
import LogRelay.Proofs.Synchrony
import LogRelay.Proofs.TimeOrder
import LogRelay.Proofs.TokenChain
import LogRelay.Proofs.UnsetVariables
import LogRelay.Proofs.WireLimits
import LogRelay.Proofs.WordSizes
import LogRelay.Registry.Basic
import LogRelay.Registry.Operation
import LogRelay.Registry.Roster
import LogRelay.Registry.Tally
import LogRelay.Remote.Call
import LogRelay.Remote.Error
import LogRelay.Remote.Script
import LogRelay.Shipping
import LogRelay.Status
import LogRelay.Text.Blank
import LogRelay.Text.Literal
import LogRelay.Text.Unseen
import LogRelay.Text.Utf8
import LogRelay.Timeline.Basic
import LogRelay.Word
import LogRelay.Yaml.Cursor
import LogRelay.Yaml.Node
import LogRelay.Yaml.Scalar
import LogRelay.Yaml.Token
import LogRelay.Yaml.Value
