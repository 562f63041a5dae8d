import Onmc.Json
import Onmc.JsonText
import Onmc.JsonDict
import Onmc.Calendar
import Onmc.Dict
import Onmc.EventLog
import Onmc.Sha256
import Onmc.DurableRuntime.Models
import Onmc.DurableRuntime.Store
import Onmc.DurableRuntime.Operations
import Onmc.DurableRuntime.Ledger
import Onmc.DurableRuntime.Replay
import Onmc.DurableRuntime.Steps
import Onmc.DurableRuntime.Runs
import Onmc.DurableRuntime.Leases
import Onmc.DurableRuntime.Approvals
import Onmc.Interact.Program
import Onmc.Interact.System
import Onmc.Interact.Histories
import Onmc.Runtime.Contracts
import Onmc.Runtime.Payloads
import Onmc.Runtime.NativeBackend
import Onmc.JsonPrefix
import Onmc.DurableRuntime.Accepted
import Onmc.DurableRuntime.Evidence
import Onmc.DurableRuntime.Fencing
import Onmc.DurableRuntime.Torn
import Onmc.DurableRuntime.Idempotency
import Onmc.PyText
import Onmc.WorkingContext.Models
import Onmc.WorkingContext.Sources
import Onmc.WorkingContext.Engine
import Onmc.WorkingContext.Packet
import Onmc.WorkingContext.Screened
import Onmc.WorkingContext.Budget
import Onmc.Delivery
import Onmc.WorkingContext.Withdrawals
import Onmc.WorkingContext.Deliveries
import Onmc.WorkingContext.Completeness
import Onmc.Shlex
import Onmc.Harness.Compiler
import Onmc.ProofGraph
import Onmc.Fnmatch
import Onmc.Harness.RunPolicy
import Onmc.Harness.Stages
import Onmc.Harness.Completion
import Onmc.Harness.Receipt
import Onmc.Harness.Models
import Onmc.Runtime.RoundTrip
import Onmc.Runtime.Portable
import Onmc.Base64
import Onmc.Hmac
import Onmc.ToolBroker.Models
import Onmc.ToolBroker.Tokens
import Onmc.ToolBroker.Hosts
import Onmc.ToolBroker.TokenLaws
import Onmc.ToolBroker.Broker
import Onmc.ToolBroker.Unspecified
import Onmc.ToolBroker.DecisionLaws
import Onmc.ToolBroker.Audit
import Onmc.ToolBroker.AuditLaws
import Onmc.Overlap
import Onmc.Ranking
import Onmc.Swarm.RuntimeContract
import Onmc.Swarm.Separation
import Onmc.WorkingContext.Hashes
import Onmc.WorkingContext.Verdicts
import Onmc.WorkingContext.Rescreening
import Onmc.WorkingContext.Reordering
import Onmc.WorkingContext.Rerendering
import Onmc.WorkingContext.Counting
import Onmc.WorkingContext.Repeats
import Onmc.Land.Driver
import Onmc.Land.Merges
import Onmc.Land.Green
import Onmc.Claim.Ledger
import Onmc.Claim.Exclusion
import Onmc.Claim.Lock
import Onmc.Masking
import Onmc.Remasking
import Onmc.Keyed
import Onmc.ToolBroker.Redaction
import Onmc.Enforcement.Monitor
import Onmc.Enforcement.MonitorLaws
import Onmc.Learning.Sanitize
import Onmc.Learning.Gate
import Onmc.Learning.Ingest
import Onmc.Learning.Soundness
import Onmc.Learning.Lifecycle
import Onmc.Learning.Promotion
import Onmc.Learning.Governance
import Onmc.Learning.Retire
import Onmc.Sha1
import Onmc.Staging.Queue
import Onmc.Staging.Lossless
import Onmc.Breadth
import Onmc.ContextEngine.Planner
import Onmc.ContextEngine.Unique
import Onmc.ContextEngine.Passes
import Onmc.ContextEngine.Accounts
import Onmc.Attest.Attestation
import Onmc.Greedy
import Onmc.Tally
import Onmc.Retrieval.Rrf
import Onmc.Retrieval.Core
import Onmc.Retrieval.Measured
import Onmc.Lines
import Onmc.ContextEngine.Compaction
import Onmc.Storage.Fields
import Onmc.Storage.Records
import Onmc.Table
import Onmc.Toposort
import Onmc.Storage.Rows
import Onmc.Storage.Sqlite
import Onmc.Federation.Pull
import Onmc.Service.ManualMemory
import Onmc.Hooks.PromptRecall
import Onmc.Hooks.RecallLaws
import Onmc.Hooks.Installer
import Onmc.Loop.Receipt
import Onmc.Swarm.Inline
import Onmc.Hooks.Stripping
import Onmc.Hooks.InstallLaws
import Onmc.Hooks.InstallFrame
import Onmc.Wrap.Workspace
import Onmc.Wrap.Runtime
import Onmc.Wrap.Completion
import Onmc.NumOrder
import Onmc.Ingest.Deduplicate
import Onmc.Wrap.Managed
import Onmc.PyValue
import Onmc.JsonLines
import Onmc.Trace.Recorder
import Onmc.Trace.Sessions
import Onmc.UnifiedDiff
import Onmc.VerifyDiff.Checker
import Onmc.VerifyDiff.Reading
import Onmc.Codegraph.Builder
import Onmc.Codegraph.Relations
import Onmc.Codegraph.Exact
import Onmc.Quota
import Onmc.Experiment.Coverage
import Onmc.Experiment.Expansion
import Onmc.Experiment.CoverageLaws
import Onmc.ExactFloat
import Onmc.Budget.Guard
import Onmc.Budget.Laws
import Onmc.ContextEngine.Eviction
import Onmc.Approve.Executor
import Onmc.VisibleLines
import Onmc.ClaudeMd.Updater
import Onmc.LinePieces
import Onmc.GitDiff
import Onmc.Harness.CoverageGate
import Onmc.Verifier.Reachability
import Onmc.Verifier.Adapters
import Onmc.ProofGraph.Evaluation
import Onmc.ProofGraph.Receipt
import Onmc.HexDigest
import Onmc.Loop.TamperEvidence
import Onmc.Loop.Checkpoint
import Onmc.Loop.Resume
import Onmc.DurableRuntime.Frozen
import Onmc.DurableRuntime.Retries
import Onmc.Shelf
import Onmc.WorkingContext.Notes
import Onmc.WorkingContext.Selection
import Onmc.WorkingContext.Previews
import Onmc.Runtime.Graph
import Onmc.ToolBroker.Repatterning
import Onmc.ToolBroker.Provenance
import Onmc.ToolBroker.Payloads
import Onmc.Verifier.Mutation
import Onmc.Verifier.Campaign
import Onmc.Interact.Views
import Onmc.Runtime.Sights
import Onmc.Swarm.Orchestrator
import Onmc.Runtime.Outcomes
import Onmc.Runtime.Sessions
import Onmc.Loop.Routing
import Onmc.Loop.Engine
import Onmc.Loop.Conduct
import Onmc.Loop.Soundness
import Onmc.Loop.Limits
import Onmc.Loop.Breakers
