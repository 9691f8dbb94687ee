import Johnny.Lib.Prog
import Johnny.Lib.Footprint
import Johnny.Lib.Hoare
import Johnny.Lib.Journal
import Johnny.Lib.Collapse
import Johnny.Lib.Costs
import Johnny.Lib.Generations
import Johnny.Lib.CappedFeed
import Johnny.Lib.Runs
import Johnny.Lib.Ranking
import Johnny.Lib.Best
import Johnny.Lib.OrderedPartition
import Johnny.Frontend.ReconnectingSocket
import Johnny.Brain.CycleGate
import Johnny.Brain.CycleControl
import Johnny.Foundation.Values
import Johnny.Foundation.Tokens
import Johnny.Api.Auth
import Johnny.Api.Consciousness
import Johnny.Api.Input
import Johnny.Brain.State
import Johnny.Effectors.Tools
import Johnny.Effectors.SafeHttp
import Johnny.Effectors.ReadableText
import Johnny.Effectors.WebFetch
import Johnny.Brain.Mind
import Johnny.Effectors.Dispatch
import Johnny.Effectors.AuditTrail
import Johnny.Brain.Sleep
import Johnny.Brain.SleepExit
import Johnny.Brain.NeverWedged
import Johnny.Brain.Cycle
import Johnny.Brain.Stages
import Johnny.Brain.Gates
import Johnny.Brain.Heartbeat
import Johnny.Brain.ActionGate
import Johnny.Brain.Agency
import Johnny.Brain.LastSleep
import Johnny.Lib.Fifo
import Johnny.Agents.Sensorium
import Johnny.Agents.InputsKept
import Johnny.Lib.Halving
import Johnny.Lib.Exponential
import Johnny.Drives.Parameters
import Johnny.Drives.Engine
import Johnny.Affect.Appraisal
import Johnny.Memory.Store
import Johnny.Memory.Working
import Johnny.Memory.HeldItems
import Johnny.Memory.Snapshot
import Johnny.Memory.Loading
import Johnny.Memory.RoundTrip
import Johnny.Memory.Standing
import Johnny.Memory.Incomplete
import Johnny.Memory.AllOrNothing
import Johnny.Agents.Attention
import Johnny.Agents.Drift
import Johnny.Agents.Experience
import Johnny.Memory.Recall
import Johnny.Agents.MemoryStages
import Johnny.Effectors.Scheduler
import Johnny.Lib.Parties
import Johnny.Effectors.Contention
import Johnny.Effectors.Injection
import Johnny.Memory.Decay
import Johnny.Memory.Forgetting
import Johnny.Memory.Reached
import Johnny.Memory.Merging
import Johnny.Memory.Repointing
import Johnny.Memory.Graph
import Johnny.Memory.Procedural
import Johnny.Lib.LastWrite
import Johnny.Memory.Semantic
import Johnny.Memory.Consolidator
import Johnny.Memory.Clustering
import Johnny.Memory.Provenance
import Johnny.Lib.Scrub
import Johnny.Foundation.Redaction
import Johnny.Foundation.Settled
import Johnny.Core.Audit
import Johnny.Brain.Workspace
import Johnny.Brain.Bus
import Johnny.Brain.Isolation
import Johnny.Brain.Reflexes
import Johnny.Brain.Registry
import Johnny.Core.NoSecrets
import Johnny.Agents.Deliberation
import Johnny.Agents.PlannedArgs
import Johnny.Agents.Cadence
import Johnny.Brain.Feedback
import Johnny.Brain.Focus
import Johnny.Lib.JsonString
import Johnny.Lib.JsonNumber
import Johnny.Foundation.JsonText
import Johnny.Foundation.JsonFraming
import Johnny.Foundation.PrintedJson
import Johnny.Memory.Rows
import Johnny.Agents.Recollection
import Johnny.Agents.Remembering
import Johnny.Agents.Reminders
import Johnny.Agents.FreshMessages
import Johnny.Brain.Tiredness
import Johnny.Brain.Outcomes
import Johnny.Lib.Transaction
import Johnny.Lib.Utf8
import Johnny.Goals.Store
import Johnny.Goals.Arbiter
import Johnny.Affect.Agent
import Johnny.Affect.Drift
import Johnny.Goals.Steadfast
import Johnny.Brain.Easing
import Johnny.Effectors.WebConsolidator
import Johnny.Effectors.SourceUrl
import Johnny.Effectors.CodeExec
import Johnny.Effectors.VerdictLine
import Johnny.Effectors.Sandbox
import Johnny.Effectors.LauncherLines
import Johnny.Effectors.Forgery
import Johnny.Effectors.Reading
import Johnny.LLM.Pricing
import Johnny.LLM.Base
import Johnny.LLM.Providers
import Johnny.LLM.CallLog
import Johnny.LLM.CircuitBreaker
import Johnny.LLM.Trials
import Johnny.LLM.Router
import Johnny.LLM.Attempts
import Johnny.LLM.Budget
import Johnny.LLM.PaidSteps
import Johnny.LLM.Shapes
import Johnny.LLM.Totality
import Johnny.Agents.Consult
import Johnny.SelfModel.Identity
import Johnny.SelfModel.Lineage
import Johnny.SelfModel.WakeCheck
import Johnny.Metacognition.Review
