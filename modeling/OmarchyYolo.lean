import OmarchyYolo.Lib.PyStr
import OmarchyYolo.Lib.Json
import OmarchyYolo.Lib.JsonStrings
import OmarchyYolo.Lib.JsonNumbers
import OmarchyYolo.Lib.JsonRoundTrip
import OmarchyYolo.Lib.JsonQuotes
import OmarchyYolo.Lib.JsonLoads
import OmarchyYolo.Lib.Table
import OmarchyYolo.Lib.Transaction
import OmarchyYolo.Lib.Follows
import OmarchyYolo.Lib.Transition
import OmarchyYolo.Lib.PostOrder
import OmarchyYolo.Lib.Program
import OmarchyYolo.Lib.MountView
import OmarchyYolo.Lib.Locks
import OmarchyYolo.Lib.LockOrder
import OmarchyYolo.Model
import OmarchyYolo.Util
import OmarchyYolo.Planner
import OmarchyYolo.TaskBranch
import OmarchyYolo.PlanGraph
import OmarchyYolo.Prompts
import OmarchyYolo.Reviewer
import OmarchyYolo.ReviewSource
import OmarchyYolo.Sharding
import OmarchyYolo.ReviewPaths
import OmarchyYolo.FinalReview
import OmarchyYolo.ReviewEvidence
import OmarchyYolo.StateMachine
import OmarchyYolo.Store
import OmarchyYolo.Statements
import OmarchyYolo.Records
import OmarchyYolo.Database
import OmarchyYolo.Recovery
import OmarchyYolo.Provenance
import OmarchyYolo.Migration
import OmarchyYolo.StoreRefinement
import OmarchyYolo.StoreProgress
import OmarchyYolo.StoreInvariants
import OmarchyYolo.AcceptanceFrozen
import OmarchyYolo.StoreRules
import OmarchyYolo.EventLedger
import OmarchyYolo.EventDigest
import OmarchyYolo.Daemon
import OmarchyYolo.RecoveryExact
import OmarchyYolo.Scheduler
import OmarchyYolo.Effects
import OmarchyYolo.GitRepo
import OmarchyYolo.Integration
import OmarchyYolo.TaskExecution
import OmarchyYolo.JobExecution
import OmarchyYolo.QuietCalls
import OmarchyYolo.LockOrder
import OmarchyYolo.TaskEvidence
import OmarchyYolo.AttemptNumbers
import OmarchyYolo.AttemptRows
import OmarchyYolo.TaskLives
import OmarchyYolo.CandidateRows
import OmarchyYolo.PublishedBranch
import OmarchyYolo.TaskGate
import OmarchyYolo.Acquisition
import OmarchyYolo.Sandbox
import OmarchyYolo.Runtime
import OmarchyYolo.Lib.EventLoop
import OmarchyYolo.FinishBeforeCancel
import OmarchyYolo.SourceApply
import OmarchyYolo.Lib.Stages
import OmarchyYolo.Finalization
import OmarchyYolo.Lib.DepthFirst
import OmarchyYolo.PlanValidation
import OmarchyYolo.BranchNames
import OmarchyYolo.ReviewLabels
import OmarchyYolo.Lib.JsonSize
import OmarchyYolo.Listings
import OmarchyYolo.Lib.Dict
import OmarchyYolo.ColumnBounds
import OmarchyYolo.Status
import OmarchyYolo.StatusBound
import OmarchyYolo.RpcFrames
import OmarchyYolo.CommandOverrides
import OmarchyYolo.AgentRegistry
import OmarchyYolo.ApplyOutcome
import OmarchyYolo.TerminalText
import OmarchyYolo.Lib.Ddl
import OmarchyYolo.ConflictNames
import OmarchyYolo.OutputCapture
import OmarchyYolo.SchemaMigrations
import OmarchyYolo.EventStream
import OmarchyYolo.Lib.StackWalk
import OmarchyYolo.RepoRegistry
import OmarchyYolo.Truncation
import OmarchyYolo.PayloadBounds
import OmarchyYolo.Lib.Paging
import OmarchyYolo.Watch
import OmarchyYolo.StopRefusal
import OmarchyYolo.Dossier
import OmarchyYolo.Checkout
import OmarchyYolo.FinalGates
import OmarchyYolo.IntegrationUndo
import OmarchyYolo.CandidateLine
import OmarchyYolo.AcceptedWork
import OmarchyYolo.UserStop
import OmarchyYolo.LoadConfig
import OmarchyYolo.ConfigDocument
import OmarchyYolo.ConfigErrors
import OmarchyYolo.HostileRepo
import OmarchyYolo.GateRounds
