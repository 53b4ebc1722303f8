import PenroseRoute.Recovery.Candidate

/-!
# The recovery workflow

Models `RecoveryWorkflow` of `backend/app/modules/recovery/deterministic_workflow.py`. A run is
a series of transactions with unlocked work between them: what a run carries from one
transaction to the next is its point, and one step of a run is its next transaction together
with the pure work before it. A transaction that raises leaves the database as it was.
-/

namespace PenroseRoute.Db

/-- A DRAFT attempt without a solver status: its generation is running. -/
def RecoveryPlan.inFlight (attempt : RecoveryPlan) : Bool :=
  attempt.status == .draft && attempt.solverStatus.isNone

/-- An attempt that waits for a dispatcher. -/
def RecoveryPlan.isPending (attempt : RecoveryPlan) : Bool := attempt.status == .pendingReview

end PenroseRoute.Db

namespace PenroseRoute.Recovery

open PenroseRoute.Db PenroseRoute.Lib PenroseRoute.Optimization PenroseRoute.Incidents

/-! ### Runs -/

/-- The `max_candidates` that `RecoveryOptionsWorkflow` accepts, `options.py:91`. -/
abbrev CandidateLimit := { limit : Nat // 1 ≤ limit ∧ limit ≤ 3 }

/-- The class of a workflow: `RecoveryWorkflow` or `RecoveryOptionsWorkflow`. -/
inductive WorkflowClass where
  | single
  | options (maxCandidates : CandidateLimit)
  deriving DecidableEq, Repr

/-- Where a run is: what its next transaction is and what it carries there. -/
inductive RunPoint where
  /-- `resume` has to check the attempt. -/
  | resuming
  /-- The attempt is reserved and its context has to be solved. -/
  | attempting (context : RecoveryContext)
  /-- The attempt was infeasible and a wider scope has to be tried. -/
  | expanding (context : RecoveryContext)
  /-- The options workflow has to add its review buffer to the context. -/
  | buffering (context : RecoveryContext)
  /-- The options workflow has to read the wider scopes. -/
  | generating (context : RecoveryContext)
  /-- The options workflow has to solve all contexts. -/
  | choosing (contexts : List RecoveryContext)
  /-- The options workflow has caught an exception and has to record it. -/
  | failing (error : AppError)
  | returned
  | raised (error : AppError)
  deriving DecidableEq, Repr

/-- One call of `start` or `resume` after its first transaction. -/
structure Run where
  workflow : WorkflowClass
  incidentId : UUID
  attemptId : UUID
  attemptNo : Nat
  point : RunPoint
  deriving DecidableEq, Repr

/-- What the agent mode adds: the checks of the agent's own context around the solve, and the
evidence that is taken from the persisted candidate. -/
structure AgentMode where
  prepare : RecoveryContext → Except AppError Unit
  evidence : (base candidate : DeliveryPlan) → Except AppError Unit

/-- The services of a workflow; without `agent` it is deterministic. -/
structure WorkflowServices extends Services where
  agent : Option AgentMode

namespace RecoveryWorkflow

/-! ### Transactions -/

/-- `_initial_scope`, `deterministic_workflow.py:894`. -/
def initialScope : IncidentType → ReplanningScope
  | .vehicleUnavailable => initialVehicleUnavailableScope
  | .merchantDelay => initialMerchantDelayScope

/-- `_assert_base_still_current`, `deterministic_workflow.py:491`. -/
def assertBaseStillCurrent (db : Database) (incidentId basePlanId : UUID) :
    Except AppError Unit := do
  let incident ← orRaise (db.incident? incidentId) (.notFound "INCIDENT_NOT_FOUND")
  raiseFirst [(incident.deliveryPlanId != basePlanId ||
    !(db.plan? basePlanId).any (·.status == .current), .conflict "BASE_PLAN_NOT_CURRENT")]

/-- `_new_attempt`, `deterministic_workflow.py:466`. -/
def newAttempt (context : RecoveryContext) (id attemptNo : Nat) (previousId : Option UUID) :
    RecoveryPlan where
  id := id
  incidentId := context.incidentId
  attemptNo := attemptNo
  previousRecoveryPlanId := previousId
  baseDeliveryPlanId := context.basePlanId
  candidateDeliveryPlanId := none
  status := .draft
  replanningScope := context.scope
  solverStatus := none
  validationStatus := none
  dispatcherDecision := none
  options := none

/-- `add_recovery_plan` and its flush, which checks `uq_recovery_plans_incident_attempt`. -/
def addRecoveryPlan (db : Database) (attempt : RecoveryPlan) : Except AppError Database := do
  raiseFirst [((db.attempts attempt.incidentId).any (·.attemptNo == attempt.attemptNo),
    .integrity "uq_recovery_plans_incident_attempt")]
  return { db with
    recoveryPlans := db.recoveryPlans ++ [attempt]
    nextId := db.nextId + 1 }

/-- The first transaction of `start`, `deterministic_workflow.py:103`. -/
def start (db : Database) (incidentId : UUID) (now : Instant) :
    Except AppError (Database × Run) := do
  let incident ← orRaise (db.incident? incidentId) (.notFound "INCIDENT_NOT_FOUND")
  let existing := db.attempts incidentId
  raiseFirst [
    (existing.any (·.isPending), .conflict "RECOVERY_ALREADY_PENDING_REVIEW"),
    (existing != [], .conflict "RECOVERY_ALREADY_IN_PROGRESS")]
  let context ←
    materializeRecoveryContext db incidentId (initialScope incident.incidentType) now
  let attempt := newAttempt context db.nextId 1 none
  let reserved ← addRecoveryPlan db attempt
  return (reserved, ⟨.single, incidentId, attempt.id, 1, .attempting context⟩)

/-- The transaction of `resume`, `deterministic_workflow.py:133`. -/
def checkResumed (db : Database) (attemptId : UUID) (now : Instant) :
    Except AppError RecoveryContext := do
  let attempt ← orRaise (db.recoveryPlan? attemptId) (.notFound "RECOVERY_NOT_FOUND")
  raiseFirst [(!attempt.inFlight || attempt.candidateDeliveryPlanId.isSome,
    .conflict "RECOVERY_ALREADY_IN_PROGRESS")]
  assertBaseStillCurrent db attempt.incidentId attempt.baseDeliveryPlanId
  let context ←
    materializeRecoveryContext db attempt.incidentId attempt.replanningScope now
  raiseFirst [(context.basePlanId != attempt.baseDeliveryPlanId,
    .conflict "BASE_PLAN_NOT_CURRENT")]
  return context

/-- A call of `resume` up to the end of its transaction, which writes nothing,
`deterministic_workflow.py:131`. -/
def resume (db : Database) (workflow : WorkflowClass) (recoveryPlanId : UUID) (now : Instant) :
    Except AppError Run := do
  let attempt ← orRaise (db.recoveryPlan? recoveryPlanId) (.notFound "RECOVERY_NOT_FOUND")
  let context ← checkResumed db recoveryPlanId now
  return {
    workflow := workflow
    incidentId := attempt.incidentId
    attemptId := attempt.id
    attemptNo := attempt.attemptNo
    point :=
      match workflow with
      | .single => .attempting context
      | .options _ => .buffering context }

/-- What a failed or infeasible solve makes of an attempt. -/
def recorded (solverStatus : SolverStatus) (validationStatus : Option ValidationStatus)
    (attempt : RecoveryPlan) : RecoveryPlan :=
  { attempt with
    solverStatus := some solverStatus
    validationStatus := validationStatus.or attempt.validationStatus
    options := none }

/-- The transactions after a failed or infeasible solve; `_lock_attempt` finds the attempt, as
attempts are never deleted. -/
def record (db : Database) (attemptId : UUID) (solverStatus : SolverStatus)
    (validationStatus : Option ValidationStatus) : Database :=
  db.updateRecoveryPlan attemptId (recorded solverStatus validationStatus)

/-- The transaction that reserves an attempt at the next scope,
`deterministic_workflow.py:240`. -/
def expand (db : Database) (run : Run) (context : RecoveryContext) (scope : ReplanningScope) :
    Except AppError (Database × Run) := do
  assertBaseStillCurrent db run.incidentId context.basePlanId
  let wider ← materializeRecoveryContext db run.incidentId scope context.currentTime
  let attempt := newAttempt wider db.nextId (run.attemptNo + 1) (some run.attemptId)
  let reserved ← addRecoveryPlan db attempt
  return (reserved, { run with
    attemptId := attempt.id
    attemptNo := run.attemptNo + 1
    point := .attempting wider })

/-- What makes an attempt reviewable, `deterministic_workflow.py:381` and `options.py:208`. -/
def publish (candidateId : UUID) (options : Option OptionSummary) (attempt : RecoveryPlan) :
    RecoveryPlan :=
  { attempt with
    candidateDeliveryPlanId := some candidateId
    status := .pendingReview
    solverStatus := some .feasible
    validationStatus := some .valid
    options := options }

/-- The evidence that the agent mode takes from the persisted plans,
`deterministic_workflow.py:346`. -/
def takeEvidence (services : WorkflowServices) (db : Database) (basePlanId candidateId : UUID) :
    Except AppError Unit :=
  match services.agent with
  | none => .ok ()
  | some agent => do
    let base ← orRaise (db.plan? basePlanId) (.integration "RECOVERY_COMPARISON_SNAPSHOT_MISSING")
    let candidate ←
      orRaise (db.plan? candidateId) (.integration "RECOVERY_COMPARISON_SNAPSHOT_MISSING")
    agent.evidence base candidate

/-- The last transaction of an attempt, `deterministic_workflow.py:314`. -/
def finish (services : WorkflowServices) (db : Database) (run : Run) (context : RecoveryContext)
    (result : SolverResult) (roads : RoadRoutes) : Except AppError Database := do
  assertBaseStillCurrent db run.incidentId context.basePlanId
  let currentContext ←
    materializeRecoveryContext db run.incidentId context.scope context.currentTime
  raiseFirst [(currentContext != context, .conflict "RECOVERY_CONTEXT_CHANGED")]
  let locked ← orRaise (db.recoveryPlan? run.attemptId) (.notFound "RECOVERY_NOT_FOUND")
  let (created, candidate) ← createCandidate db context result roads
  takeEvidence services created context.basePlanId candidate.id
  let incident ← orRaise (created.incident? run.incidentId) (.notFound "INCIDENT_NOT_FOUND")
  return (created.updateRecoveryPlan locked.id (publish candidate.id none)).updateIncident
    incident.id fun row ↦ { row with status := .review }

/-! ### Attempts -/

/-- The `try` block of `_execute_attempts`, `deterministic_workflow.py:171`. The agent's graph
solves exactly once, with `execute_recovery`. -/
def orchestrate (services : WorkflowServices) (context : RecoveryContext) :
    Except AppError OrchestrationResult := do
  match services.agent with
  | none => executeRecovery services.toServices context
  | some agent => do
    agent.prepare context
    executeRecovery services.toServices context

/-- What one attempt comes to before its last transaction. -/
inductive AttemptOutcome where
  /-- Recorded as ERROR, and `error` is raised. -/
  | failed (error : AppError)
  | infeasible
  /-- Recorded as FEASIBLE but INVALID, and `error` is raised. -/
  | invalid (error : AppError)
  /-- Nothing is recorded, and `error` is raised. -/
  | escaped (error : AppError)
  | solved (result : SolverResult) (roads : RoadRoutes)
  deriving DecidableEq, Repr

/-- The unlocked part of `_execute_attempts`, `deterministic_workflow.py:171`. Only an
`IntegrationError` of the road provider is caught. -/
def solveAttempt (services : WorkflowServices) (context : RecoveryContext) : AttemptOutcome :=
  match orchestrate services context with
  | .error _ => .failed (.integration "RECOVERY_EXECUTION_ERROR")
  | .ok outcome =>
    match outcome.solverResult.status with
    | .infeasible => .infeasible
    | .error => .failed (.integration "RECOVERY_SOLVER_ERROR")
    | .feasible =>
      if outcome.validationIssues ≠ [] then
        .invalid (.integration "RECOVERY_VALIDATION_FAILED")
      else
        match buildCandidateRoadRoutes services.toServices context outcome.solverResult with
        | .error (.integration _) => .invalid (.integration "RECOVERY_ROAD_ROUTING_FAILED")
        | .error error => .escaped error
        | .ok roads => .solved outcome.solverResult roads

/-- The step of a run at `attempting`: `_execute_attempts` up to the end of its next
transaction. -/
def attempt (services : WorkflowServices) (db : Database) (run : Run)
    (context : RecoveryContext) : Database × Run :=
  match solveAttempt services context with
  | .failed error => (record db run.attemptId .error none, { run with point := .raised error })
  | .infeasible =>
    (record db run.attemptId .infeasible none,
      { run with
        point :=
          if (nextReplanningScope context.scope).isSome then .expanding context else .returned })
  | .invalid error =>
    (record db run.attemptId .feasible (some .invalid), { run with point := .raised error })
  | .escaped error => (db, { run with point := .raised error })
  | .solved result roads =>
    match finish services db run context result roads with
    | .ok finished => (finished, { run with point := .returned })
    | .error error => (db, { run with point := .raised error })

/-- The step of a run at `expanding`. -/
def widen (db : Database) (run : Run) (context : RecoveryContext) : Database × Run :=
  match nextReplanningScope context.scope with
  | none => (db, { run with point := .returned })
  | some scope =>
    match expand db run context scope with
    | .ok expanded => expanded
    | .error error => (db, { run with point := .raised error })

end RecoveryWorkflow

end PenroseRoute.Recovery
