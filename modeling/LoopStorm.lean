import LoopStorm.Lib.Text
import LoopStorm.Lib.Json
import LoopStorm.Lib.JsonParse
import LoopStorm.Lib.HashChain
import LoopStorm.Lib.Run
import LoopStorm.Lib.OrderedMap
import LoopStorm.Lib.Escape
import LoopStorm.Lib.Float64
import LoopStorm.Lib.JsonSchema
import LoopStorm.Lib.JsonSort
import LoopStorm.Lib.JsonSame
import LoopStorm.Lib.Decimal
import LoopStorm.Engine.Decision
import LoopStorm.Lib.MapM
import LoopStorm.Engine.Policy
import LoopStorm.Engine.Loader
import LoopStorm.Engine.Budget
import LoopStorm.Engine.LoopDetector
import LoopStorm.Engine.Evaluator
import LoopStorm.Engine.Redaction
import LoopStorm.Engine.Telemetry
import LoopStorm.Engine.Audit
import LoopStorm.Engine.Enforce
import LoopStorm.Engine.Escalation
import LoopStorm.Engine.Finality
import LoopStorm.Engine.Caps
import LoopStorm.Engine.Pipeline
import LoopStorm.Engine.Log
import LoopStorm.Engine.Isolation
import LoopStorm.Cli.Verify
import LoopStorm.Cli.Agreement
import LoopStorm.Cli.Restart
import LoopStorm.Cli.Failures
import LoopStorm.Shim.Protocol
import LoopStorm.Shim.ArgsHash
import LoopStorm.Shim.Canonical
import LoopStorm.Shim.Serialize
import LoopStorm.Shim.JcsNumber
import LoopStorm.Engine.ParamShape
import LoopStorm.Shim.Connection
import LoopStorm.Shim.Exclusive
import LoopStorm.Shim.Guard
import LoopStorm.Shim.FailOpen
import LoopStorm.Mcp.Proxy
import LoopStorm.Mcp.Forwarding
import LoopStorm.Engine.PolicySchema
import LoopStorm.Engine.Conformance
import LoopStorm.Lib.Frames
import LoopStorm.Engine.Server
import LoopStorm.Engine.Serving
import LoopStorm.Lib.ReadCommitted
import LoopStorm.Backend.ChainVerify
import LoopStorm.Backend.Event
import LoopStorm.Backend.Database
import LoopStorm.Backend.Ingest
import LoopStorm.Backend.Acceptance
import LoopStorm.Backend.Serial
import LoopStorm.Backend.Resend
import LoopStorm.Backend.Interleaving
import LoopStorm.Backend.Tenants
import LoopStorm.Backend.Aggregates
import LoopStorm.Backend.IntegerWidth
import LoopStorm.Lib.GuardedUpdate
import LoopStorm.Lib.CheckThenSet
import LoopStorm.Lib.Keyset
import LoopStorm.Lib.Tickets
import LoopStorm.Backend.PolicyValidate
import LoopStorm.Backend.Policies
import LoopStorm.Backend.Review
import LoopStorm.Backend.ReviewRecords
import LoopStorm.Backend.Listings
import LoopStorm.Backend.PolicyDocument
import LoopStorm.Backend.PolicyLoads
import LoopStorm.Engine.Lifetime
import LoopStorm.Lib.Lines
import LoopStorm.Otel.JsonlReader
import LoopStorm.Supervisor.Session
import LoopStorm.Supervisor.Conversation
import LoopStorm.Supervisor.Sanitize
import LoopStorm.Supervisor.Bounds
import LoopStorm.Supervisor.AuditTrail
import LoopStorm.Lib.Window
import LoopStorm.Engine.TelemetryHistory
import LoopStorm.Supervisor.LoopAnalysis
import LoopStorm.Supervisor.RiskScore
import LoopStorm.Supervisor.Recovery
import LoopStorm.Backend.Provisioning
import LoopStorm.Otel.TraceBuffer
import LoopStorm.Backend.TriggerQueue
import LoopStorm.Backend.ApiKeys
import LoopStorm.Backend.RateLimit
import LoopStorm.Mcp.Routing
import LoopStorm.Lib.StableFirst
import LoopStorm.Engine.RuleOrder
import LoopStorm.Engine.Operands
import LoopStorm.Engine.LoopWindow
import LoopStorm.Engine.Cooldown
import LoopStorm.Engine.LineReader
import LoopStorm.Lib.JsonPath
import LoopStorm.Engine.RedactionShape
import LoopStorm.Engine.Secrets
import LoopStorm.Shim.Retry
import LoopStorm.Shim.AtMostOnce
import LoopStorm.Shim.Overlap
import LoopStorm.Lib.Admission
import LoopStorm.Supervisor.Server
import LoopStorm.Lib.Cursor
import LoopStorm.Backend.ChainHistory
import LoopStorm.Backend.Triggers
import LoopStorm.Otel.TraceLogs
import LoopStorm.Otel.Export
import LoopStorm.Shim.Mediation
import LoopStorm.Lib.GrowingTable
import LoopStorm.Backend.KeyHistory
import LoopStorm.Backend.HumanReview
