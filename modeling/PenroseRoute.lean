import PenroseRoute.Lib.Checks
import PenroseRoute.Lib.Keyed
import PenroseRoute.Optimization.Contracts
import PenroseRoute.Lib.Grouping
import PenroseRoute.Lib.RunningSum
import PenroseRoute.Optimization.FeasibleRouting
import PenroseRoute.Optimization.ValidatorCorrect
import PenroseRoute.Optimization.ValidatorAccepts
import PenroseRoute.Lib.VehicleRouting
import PenroseRoute.Optimization.OrToolsSolver
import PenroseRoute.Optimization.OrToolsNodes
import PenroseRoute.Optimization.OrToolsAccepted
import PenroseRoute.Db.Database
import PenroseRoute.Lib.Dict
import PenroseRoute.Operations.Execution
import PenroseRoute.Resources.Orders
import PenroseRoute.Incidents.Impact
import PenroseRoute.Incidents.Workflow
import PenroseRoute.Recovery.Context
import PenroseRoute.Recovery.Orchestration
import PenroseRoute.Recovery.Candidate
import PenroseRoute.Recovery.CandidateRoutes
import PenroseRoute.Decisions.Snapshot
import PenroseRoute.Recovery.CandidateMemberships
import PenroseRoute.Recovery.CandidateAgrees
import PenroseRoute.Recovery.CandidateFeasible
import PenroseRoute.Planning.Comparison
import PenroseRoute.Recovery.Workflow
import PenroseRoute.Decisions.Service
import PenroseRoute.Lib.Runs
import PenroseRoute.Lifecycle.Ledger
import PenroseRoute.Lifecycle.Numbered
import PenroseRoute.Lifecycle.Reviewed
import PenroseRoute.Lifecycle.Moves
import PenroseRoute.Lifecycle.Abstraction
import PenroseRoute.Lifecycle.Transactions
import PenroseRoute.System.State
import PenroseRoute.Lifecycle.RunSteps
import PenroseRoute.Lifecycle.Batches
import PenroseRoute.System.Lifecycle
import PenroseRoute.Lifecycle.Pending
import PenroseRoute.Lifecycle.Frames
import PenroseRoute.System.Attempts
import PenroseRoute.Recovery.CandidateTimes
import PenroseRoute.System.Stranding
import PenroseRoute.Recovery.ReadyTimes
import PenroseRoute.Recovery.CandidateStarts
import PenroseRoute.Recovery.WorkInProgress
import PenroseRoute.Operations.StopMachine
import PenroseRoute.Recovery.Inheritance
import PenroseRoute.Recovery.Underway
import PenroseRoute.Planning.InputBuilder
import PenroseRoute.Planning.Validator
import PenroseRoute.Resources.Assignments
import PenroseRoute.Recovery.SolverContract
import PenroseRoute.Resources.Fleet
import PenroseRoute.Planning.SolverContract
import PenroseRoute.Lib.Locking
import PenroseRoute.Planning.Versions
import PenroseRoute.Planning.VersionOrder
import PenroseRoute.Lifecycle.InForce
import PenroseRoute.System.Changes
import PenroseRoute.System.FleetStatus
import PenroseRoute.Lib.EachAfter
import PenroseRoute.Recovery.StopRules
import PenroseRoute.System.Growth
import PenroseRoute.System.StopRules
import PenroseRoute.System.Delays
import PenroseRoute.Recovery.FrozenWork
import PenroseRoute.System.FrozenWork
import PenroseRoute.Incidents.DelayShift
import PenroseRoute.Planning.Finalizer
import PenroseRoute.Planning.FinalizerCorrect
import PenroseRoute.Planning.FinalizedPlan
import PenroseRoute.Planning.FinalizedRows
import PenroseRoute.Routing.Osrm
import PenroseRoute.Routing.OsrmCorrect
import PenroseRoute.Lifecycle.Persisted
import PenroseRoute.System.RouteSources
import PenroseRoute.Operations.Simulation
import PenroseRoute.Recovery.RoadWaypoints
import PenroseRoute.Recovery.CandidateRoads
import PenroseRoute.Planning.RoadRoutes
import PenroseRoute.System.Roads
import PenroseRoute.Recovery.CandidateEnvelope
import PenroseRoute.System.Envelope
import PenroseRoute.Lib.SortedSet
import PenroseRoute.Planning.ComparisonView
import PenroseRoute.Planning.ComparisonExchange
import PenroseRoute.Planning.ComparisonLaws
import PenroseRoute.Planning.ComparisonCopies
import PenroseRoute.Db.Alerts
import PenroseRoute.Lib.Paging
import PenroseRoute.Operations.ChangeFeed
import PenroseRoute.Operations.Alerts
import PenroseRoute.Operations.AlertHistory
import PenroseRoute.Operations.AlertEvaluation
import PenroseRoute.Operations.AlertLifecycle
import PenroseRoute.Db.Rows
import PenroseRoute.Incidents.Interleaving
import PenroseRoute.Incidents.LiveSnapshots
import PenroseRoute.Optimization.UnassignedReason
import PenroseRoute.Recovery.Alternatives
import PenroseRoute.Lib.Python
import PenroseRoute.Planning.PlannedTimes
import PenroseRoute.Optimization.Solver
import PenroseRoute.Optimization.SolverFeasible
import PenroseRoute.Optimization.SolverSound
import PenroseRoute.Optimization.SolverVerdict
import PenroseRoute.Dispatch.Service
import PenroseRoute.Dispatch.Selections
import PenroseRoute.Recovery.ScopeGrowth
import PenroseRoute.Lifecycle.ScopeExpansion
import PenroseRoute.Recovery.ReviewSchedule
import PenroseRoute.Decisions.ReviewTime
import PenroseRoute.Lib.IsoFormat
import PenroseRoute.Recovery.OptionQueries
import PenroseRoute.Lifecycle.OptionBatch
import PenroseRoute.Lifecycle.OptionListing
import PenroseRoute.System.OptionBatches
import PenroseRoute.Operations.Queries
import PenroseRoute.Operations.RiskVerdicts
import PenroseRoute.Recovery.CandidateDeliveries
import PenroseRoute.System.Memberships
import PenroseRoute.System.RiskViews
import PenroseRoute.Migrations.Replay
import PenroseRoute.Migrations.Concurrent
import PenroseRoute.Lifecycle.Aging
import PenroseRoute.System.History
import PenroseRoute.System.ApprovedWork
import PenroseRoute.System.InFlight
import PenroseRoute.Agent.Graph
import PenroseRoute.Planning.OrderEdits
import PenroseRoute.Planning.SolvedOrders
import PenroseRoute.System.Resumption
