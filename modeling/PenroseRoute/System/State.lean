import PenroseRoute.Decisions.Service
import PenroseRoute.Incidents.Workflow
import PenroseRoute.Lib.Runs
import PenroseRoute.Resources.Orders

/-!
# The system

All services over one database: every action is one transaction (or, for a run, the pure work
before it and the transaction), and a transaction that raises changes nothing. Runs are
interleaved freely with everything else. Beside the database the state keeps a history that no
service reads: the limits of option batches, the approvals, which candidates have seen a stop
of their base plan completed, and which vehicle took which order aboard.
-/

namespace PenroseRoute.System

open PenroseRoute.Db PenroseRoute.Lib PenroseRoute.Operations PenroseRoute.Recovery
open PenroseRoute.Incidents

/-- An approval: the base plan before it and the plan that it made CURRENT. -/
structure Approval where
  recoveryPlanId : UUID
  base : DeliveryPlan
  activated : DeliveryPlan
  deriving DecidableEq, Repr

/-- The database, the runs that have been started, and the history. -/
structure SysState where
  db : Database
  runs : List Run
  limits : List (UUID × Nat)
  approvals : List Approval
  /-- Candidates whose base plan had a stop completed after they were created. -/
  overtaken : List UUID
  /-- Orders and the vehicles that completed a pickup or a handover of them, in this order. -/
  carried : List (UUID × UUID)
  deriving DecidableEq, Repr

/-- What is fixed: `risk_alert_threshold_seconds` and the SHA-256 of a context, `options.py:40`. -/
structure Settings where
  thresholdSeconds : Int
  fingerprint : RecoveryContext → Nat

/-- The transactions. Stop events, reports and approvals are followed by an alert refresh in a
transaction of its own. -/
inductive Action where
  | arrive (stopId : UUID) (occurredAt : Instant)
  | startService (stopId : UUID) (occurredAt : Instant)
  | complete (stopId : UUID) (occurredAt : Instant)
  | advanceExecution (orderId : UUID) (target : OrderExecutionStatus)
  /-- `AlertService` rewrites risk flags, as the alert refresh after other transactions does; its
  own tables are not here. -/
  | refreshAlerts (riskOf : UUID → OrderRiskStatus)
  | reportUnavailable (businessDate : BusinessDate) (vehicleId : UUID) (eventTime : Instant)
      (location : VehicleIncidentWorkflow.BreakdownLocation)
  | assessDelay (businessDate : BusinessDate) (merchantId : UUID)
      (updatedReadyAt eventTime : Instant) (explicitIncident : Bool)
  | startRecovery (incidentId : UUID) (now : Instant)
  | startOptions (incidentId : UUID) (maxCandidates : CandidateLimit) (regenerate : Bool)
      (now : Instant)
  /-- The next transaction of a run. -/
  | continueRun (index : Nat) (services : WorkflowServices) (now : Instant)
  | decide (services : Services) (recoveryId : UUID) (decision : DispatcherDecision)
      (reason : String) (now : Instant)
  /-- The transaction of `modify`; the `resume` that it ends with is the run that it leaves. -/
  | modify (recoveryId : UUID) (reason : String)

namespace SysState

/-- The next database of a transaction, or the old one when it raises. -/
def commit {α : Type} (s : SysState) (outcome : Except AppError α) (f : α → SysState) :
    SysState :=
  match outcome with
  | .ok a => f a
  | .error _ => s

/-- What holds if nothing is written and after a write holds after a transaction. -/
theorem commit_ind {α : Type} {s : SysState} {outcome : Except AppError α} {f : α → SysState}
    {P : SysState → Prop} (h : P s) (hok : ∀ a, outcome = .ok a → P (f a)) :
    P (s.commit outcome f) := by
  cases outcome with
  | ok a => exact hok a rfl
  | error error => exact h

/-- The history of a completed stop. -/
def noteCompletion (s : SysState) (stopId : UUID) (next : SysState) : SysState :=
  match s.db.lockedStop? stopId with
  | none => next
  | some (plan, route, stop) =>
    if stop.status = .completed then next
    else { next with
      overtaken := next.overtaken ++
        (s.db.plans.filter (·.parentPlanId == some plan.id)).map (·.id)
      carried :=
        if stop.stopType = .delivery then next.carried
        else next.carried ++ [(stop.orderId, route.vehicleId)] }

/-- The batch that the next step of a run opens, with its limit. -/
def openedBatch (s : SysState) (run next : Run) : List (UUID × Nat) :=
  match run.point, run.workflow, next.point with
  | .choosing _, .options maxCandidates, .returned => [(s.db.nextId, maxCandidates.val)]
  | _, _, _ => []

/-- The history of an approval. -/
def noteApproval (s : SysState) (recoveryId : UUID) (db : Database) : List Approval :=
  ((s.db.recoveryPlan? recoveryId).bind fun recovery ↦
    (s.db.plan? recovery.baseDeliveryPlanId).bind fun base ↦
      (recovery.candidateDeliveryPlanId.bind db.plan?).map fun activated ↦
        { recoveryPlanId := recoveryId, base, activated }).toList

/-- One transaction. -/
def apply (settings : Settings) (s : SysState) : Action → SysState
  | .arrive stopId occurredAt =>
    s.commit (StopExecutionService.transition settings.thresholdSeconds s.db stopId .planned
      .arrived occurredAt) fun (db, _) ↦ { s with db := db }
  | .startService stopId occurredAt =>
    s.commit (StopExecutionService.transition settings.thresholdSeconds s.db stopId .arrived
      .inService occurredAt) fun (db, _) ↦ { s with db := db }
  | .complete stopId occurredAt =>
    s.commit (StopExecutionService.transition settings.thresholdSeconds s.db stopId .inService
      .completed occurredAt) fun (db, _) ↦ s.noteCompletion stopId { s with db := db }
  | .advanceExecution orderId target =>
    s.commit (Resources.advanceExecution s.db orderId target) fun db ↦ { s with db := db }
  | .refreshAlerts riskOf =>
    { s with db := { s.db with
      orders := s.db.orders.map fun order ↦ { order with riskStatus := riskOf order.id } } }
  | .reportUnavailable businessDate vehicleId eventTime location =>
    s.commit (VehicleIncidentWorkflow.reportUnavailable s.db businessDate vehicleId eventTime
      location) fun (db, _) ↦ { s with db := db }
  | .assessDelay businessDate merchantId updatedReadyAt eventTime explicitIncident =>
    s.commit (MerchantDelayWorkflow.assessDelay settings.thresholdSeconds s.db businessDate
      merchantId updatedReadyAt eventTime explicitIncident) fun (db, _) ↦ { s with db := db }
  | .startRecovery incidentId now =>
    s.commit (RecoveryWorkflow.start s.db incidentId now) fun (db, run) ↦
      { s with db := db, runs := s.runs ++ [run] }
  | .startOptions incidentId maxCandidates regenerate now =>
    s.commit (RecoveryOptionsWorkflow.start s.db incidentId maxCandidates regenerate now)
      fun (db, run) ↦ { s with db := db, runs := s.runs ++ [run] }
  | .continueRun index services now =>
    match s.runs[index]? with
    | none => s
    | some run =>
      let next := run.step services settings.fingerprint s.db now
      { s with
        db := next.1
        runs := s.runs.set index next.2
        limits := s.limits ++ s.openedBatch run next.2 }
  | .decide services recoveryId decision reason now =>
    s.commit (Decisions.decide services settings.fingerprint s.db recoveryId decision reason now)
      fun db ↦ { s with
        db := db
        approvals := s.approvals ++
          if decision = .approve then s.noteApproval recoveryId db else [] }
  | .modify recoveryId reason =>
    s.commit (Decisions.modify settings.fingerprint s.db recoveryId reason) fun (db, run) ↦
      { s with db := db, runs := s.runs ++ [run] }

/-- A completed stop writes history only. -/
theorem noteCompletion_eq (s : SysState) (stopId : UUID) (next : SysState) :
    (s.noteCompletion stopId next).db = next.db ∧
      (s.noteCompletion stopId next).runs = next.runs ∧
      (s.noteCompletion stopId next).limits = next.limits ∧
      (s.noteCompletion stopId next).approvals = next.approvals := by
  rw [noteCompletion]
  split
  · exact ⟨rfl, rfl, rfl, rfl⟩
  · split <;> exact ⟨rfl, rfl, rfl, rfl⟩

/-- Before any incident: ids are unique and below the next one, and a business date has at most
one CURRENT plan, as the constraints of the tables demand. -/
structure Initial (s : SysState) : Prop where
  runs : s.runs = []
  limits : s.limits = []
  approvals : s.approvals = []
  overtaken : s.overtaken = []
  carried : s.carried = []
  incidents : s.db.incidents = []
  recoveryPlans : s.db.recoveryPlans = []
  planIds : (s.db.plans.map (·.id)).Nodup
  plansFresh : ∀ plan ∈ s.db.plans, plan.id < s.db.nextId
  currentOnce : ∀ p ∈ s.db.plans, ∀ q ∈ s.db.plans, p.status = .current → q.status = .current →
    p.businessDate = q.businessDate → p = q

end SysState

open SysState

/-- The states of the runs of the system whose steps are all allowed. -/
abbrev ReachableUnder (settings : Settings) (allowed : SysState → Action → Prop) :
    SysState → Prop :=
  Reachable (apply settings) Initial allowed

/-- The states of all runs of the system. -/
abbrev ReachableState (settings : Settings) : SysState → Prop :=
  ReachableUnder settings fun _ _ ↦ True

end PenroseRoute.System
