import Mathlib.Data.List.Lex
import PenroseRoute.Planning.Comparison
import PenroseRoute.Recovery.Workflow

/-!
# Recovery options

Models `backend/app/modules/recovery/options.py` and `review_schedule.py`: alternatives with
fewer vehicles, their ranking, and `RecoveryOptionsWorkflow`, which persists a whole batch of
candidates in one transaction.
-/

namespace PenroseRoute.Optimization

open Lib

namespace SolverInput

private theorem checked_withoutVehicles (s : SolverInput) (p : SolverVehicle → Bool) :
    { s.toSolverInputFields with vehicles := s.vehicles.filter p }.postInit = .ok () := by
  obtain ⟨hd, ht, hl, ho, hv, hr⟩ := (checked_iff _).mp s.checked
  rw [checked_iff]
  refine ⟨hd, ht, hl, ho, (List.filter_sublist.map _).nodup hv, ?_⟩
  intro loc hloc
  apply hr loc
  simp only [SolverInputFields.referencedLocationIds, List.mem_append] at hloc ⊢
  rcases hloc with (hloc | hloc) | hloc
  · exact .inl (.inl ((List.filter_sublist.map _).subset hloc))
  · exact .inl (.inr hloc)
  · exact .inr hloc

/-- `replace(source, vehicles=...)`, `options.py:61`. -/
def withoutVehicles (s : SolverInput) (excluded : List UUID) : SolverInput where
  toSolverInputFields :=
    { s.toSolverInputFields with
      vehicles := s.vehicles.filter fun vehicle ↦ !excluded.contains vehicle.vehicleId }
  checked := checked_withoutVehicles s _

end SolverInput

end PenroseRoute.Optimization

namespace PenroseRoute.Recovery

open PenroseRoute.Db PenroseRoute.Lib PenroseRoute.Operations PenroseRoute.Optimization
open PenroseRoute.Planning

/-! ### Alternatives -/

/-- The `required` vehicles, `options.py:53`. -/
def requiredVehicles (source : SolverInput) : List UUID :=
  source.orders.filterMap (·.requiredVehicleId) ++ source.frozenTasks.map (·.vehicleId)

/-- The `signature` of a result, `options.py:72`. -/
def resultSignature (result : SolverResult) : List (UUID × List (UUID × StopType × UUID)) :=
  (result.routes.map fun route ↦ (route.vehicleId, route.stops.map fun stop ↦
    (stop.orderId, stop.stopType, stop.locationId))).insertionSort fun a b ↦ a.1 ≤ b.1

/-- `queue.pop(0)` until a set of excluded vehicles is new and leaves all required ones,
`options.py:57`; sets are sorted lists. -/
def nextExcluded (source : SolverInput) :
    (queue seen : List (List UUID)) → Option (List UUID × List (List UUID) × List (List UUID))
  | [], _ => none
  | excluded :: queue, seen =>
    if seen.contains excluded then nextExcluded source queue seen
    else if (requiredVehicles source).all
        (((source.withoutVehicles excluded).vehicles.map (·.vehicleId)).contains ·) then
      some (excluded, queue, seen ++ [excluded])
    else nextExcluded source queue (seen ++ [excluded])

/-- The loop of `solve_alternatives`, `options.py:56`, with the solver calls that are left. -/
def exploreAlternatives (services : Services) (source : SolverInput) (maxCandidates : Nat) :
    (calls : Nat) → (queue seen : List (List UUID)) → (results : List SolverResult) →
      Except AppError (List SolverResult)
  | 0, _, _, results => .ok results
  | calls + 1, queue, seen, results =>
    if results.length ≥ maxCandidates then .ok results
    else match nextExcluded source queue seen with
      | none => .ok results
      | some (excluded, queue, seen) =>
        let problem := source.withoutVehicles excluded
        let result := services.solve problem
        if result.status = .error then .error (.integration "RECOVERY_SOLVER_ERROR")
        else if result.status ≠ .feasible ∨ result.unassignedOrders ≠ [] then
          exploreAlternatives services source maxCandidates calls queue seen results
        else if SolverResultValidator.validate problem result ≠ [] ∨
            SolverResultValidator.validate source result ≠ [] then
          .error (.integration "RECOVERY_VALIDATION_FAILED")
        else
          let optional := ((result.routes.map (·.vehicleId)).filter
            (!(requiredVehicles source).contains ·)).dedup.insertionSort (· ≤ ·)
          let wider := (optional.map fun vehicleId ↦
            excluded.orderedInsert (· ≤ ·) vehicleId).filter (!seen.contains ·)
          exploreAlternatives services source maxCandidates calls (queue ++ wider) seen
            (if (results.map resultSignature).contains (resultSignature result) then results
              else results ++ [result])

/-- `solve_alternatives`, `options.py:43`. -/
def solveAlternatives (services : Services) (source : SolverInput) (maxCandidates : Nat) :
    Except AppError (List SolverResult) :=
  exploreAlternatives services source maxCandidates 3 [[]] [] []

/-! ### Review schedule -/

/-- The new stops of a candidate route, in sequence: the ones that `review_schedule.py:14` and
`service.py:136` select. -/
def openNewStops (route : VehicleRoute) : List RouteStop :=
  (route.stops.filter fun stop ↦ stop.status != .completed &&
    stop.sequenceNo > (route.routeMetrics.map (·.preservedStopCount)).getD 0).insertionSort
      fun a b ↦ a.sequenceNo ≤ b.sequenceNo

/-- The deadline of one route, `review_schedule.py:14`. -/
def routeDeadline (context : RecoveryContext) (matrix : RoutingMatrix) (route : VehicleRoute) :
    Except AppError (Option Instant) :=
  match openNewStops route with
  | [] => .ok none
  | first :: _ => do
    let vehicle ← orRaise (context.vehicleFact? route.vehicleId) (.uncaught "KeyError")
    raiseFirst [(!matrix.locationIds.contains vehicle.startLocationId ||
      !matrix.locationIds.contains first.locationId, .uncaught "KeyError")]
    let travelSeconds ← orRaise
      ((matrix.durationMatrixSeconds[matrix.locationIds.idxOf vehicle.startLocationId]?).bind
        (·[matrix.locationIds.idxOf first.locationId]?)) (.uncaught "IndexError")
    return some (first.plannedArrivalAt - timedelta travelSeconds)

/-- `review_deadline`, `review_schedule.py:7`. -/
def reviewDeadline (services : Services) (context : RecoveryContext) (plan : DeliveryPlan) :
    Except AppError Instant := do
  let matrix ← services.buildDistanceTimeMatrix context.locations
  let deadlines ← plan.routes.mapM (routeDeadline context matrix)
  return (deadlines.filterMap id).min?.getD context.currentTime

/-! ### Ranking -/

/-- The metrics of an option, `options.py:197`. -/
structure OptionMetrics where
  unassignedOrderCount : Nat
  reassignedOrderCount : Nat
  changedOrderCount : Nat
  handoverCount : Nat
  completionAt : Instant
  deriving DecidableEq, Repr

/-- `priority_key`, `options.py:34`, with the attempt number that breaks ties. -/
def priorityKey (metrics : OptionMetrics) (attemptNo : Nat) : List Int :=
  [metrics.unassignedOrderCount, metrics.reassignedOrderCount, metrics.changedOrderCount,
    metrics.handoverCount, metrics.completionAt, attemptNo]

/-- `plan_signature`, `options.py:82`. -/
def planSignature (plan : DeliveryPlan) : List (UUID × List (UUID × StopType × UUID)) :=
  (plan.routes.map fun route ↦
    (route.vehicleId, (routeSnapshot route).stops.map fun stop ↦
      (stop.orderId, stop.stopType, stop.locationId))).insertionSort fun a b ↦ a.1 ≤ b.1

/-- The metrics of one candidate, `options.py:197`. -/
def optionMetrics (context : RecoveryContext) (base candidate : DeliveryPlan) :
    Except AppError OptionMetrics := do
  let comparison ← comparePlanSnapshots base candidate
  let remaining := (candidate.routes.flatMap (·.stops)).filter (·.status != .completed)
  return {
    unassignedOrderCount := candidate.unassignedOrderCount
    reassignedOrderCount := comparison.reassignedOrderCount
    changedOrderCount := comparison.changedOrderCount
    handoverCount := (remaining.filter (·.stopType == .handover)).length
    completionAt := (remaining.map (·.plannedDepartureAt)).max?.getD context.currentTime }

namespace RecoveryOptionsWorkflow

/-! ### The first transactions -/

/-- How a pending attempt is closed without a decision on itself, `options.py:119` and
`service.py:381`. -/
def close (attempt : RecoveryPlan) : RecoveryPlan :=
  { attempt with status := .decided, dispatcherDecision := some .reject }

/-- Close attempts and cancel their candidates. -/
def closeAttempts (db : Database) (closing : RecoveryPlan → Bool) : Database :=
  { db with
    recoveryPlans := updateWhere db.recoveryPlans closing close
    plans := updateWhere db.plans
      (fun plan ↦ (db.recoveryPlans.filter closing).any
        (·.candidateDeliveryPlanId == some plan.id))
      fun plan ↦ { plan with status := .cancelled } }

/-- The first transaction of `start`, `options.py:96`. -/
def start (db : Database) (incidentId : UUID) (maxCandidates : CandidateLimit)
    (regenerate : Bool) (now : Instant) : Except AppError (Database × Run) := do
  let incident ← orRaise (db.incident? incidentId) (.notFound "INCIDENT_NOT_FOUND")
  let existing := db.attempts incidentId
  raiseFirst [
    (existing.any (·.inFlight), .conflict "RECOVERY_ALREADY_IN_PROGRESS"),
    (existing.any fun attempt ↦ attempt.isPending && attempt.options.isNone,
      .conflict "LEGACY_RECOVERY_PENDING"),
    (existing != [] && !regenerate, .conflict "RECOVERY_ALREADY_PENDING_REVIEW")]
  let context ← materializeRecoveryContext db incidentId
    (RecoveryWorkflow.initialScope incident.incidentType) now
  let closed := closeAttempts db fun attempt ↦
    attempt.incidentId == incidentId && attempt.isPending
  let previous := existing.getLast?
  let attemptNo := previous.elim 1 (·.attemptNo + 1)
  let attempt := RecoveryWorkflow.newAttempt context db.nextId attemptNo (previous.map (·.id))
  let reserved ← RecoveryWorkflow.addRecoveryPlan closed attempt
  return (reserved.updateIncident incidentId fun row ↦ { row with status := .replanning },
    ⟨.options maxCandidates, incidentId, attempt.id, attemptNo, .buffering context⟩)

/-- `REVIEW_BUFFER_SECONDS`, `options.py:27`. -/
def reviewBufferSeconds : Int := 120

/-- The transaction that leaves a decision window, `options.py:140`. -/
def addBuffer (db : Database) (run : Run) (context : RecoveryContext) :
    Except AppError RecoveryContext :=
  materializeRecoveryContext db run.incidentId context.scope
    (context.currentTime + timedelta reviewBufferSeconds)

/-- The scopes behind one in `ReplanningScope`. -/
def widerScopes : ReplanningScope → List ReplanningScope
  | .affectedRoute => [.crossRoute, .allRemaining]
  | .crossRoute => [.allRemaining]
  | .allRemaining => []

/-- The transaction that reads the wider scopes, `options.py:156`. -/
def readWiderScopes (db : Database) (run : Run) (initialContext : RecoveryContext) :
    Except AppError (List RecoveryContext) := do
  let wider ← (widerScopes initialContext.scope).mapM fun scope ↦
    materializeRecoveryContext db run.incidentId scope initialContext.currentTime
  return initialContext :: wider

/-- The solver calls, `options.py:163`. -/
def solveContexts (services : Services) (maxCandidates : Nat) (contexts : List RecoveryContext) :
    Except AppError (List (RecoveryContext × SolverResult)) := do
  let solved ← contexts.mapM fun context ↦ do
    let matrix ← services.buildDistanceTimeMatrix context.locations
    let source ← buildRecoverySolverInput context matrix
    let results ← solveAlternatives services source maxCandidates
    return results.map fun result ↦ (context, result)
  return solved.flatten

/-! ### The batch -/

/-- A published attempt of a batch with the metrics that rank it. -/
structure BatchRow where
  attemptId : UUID
  attemptNo : Nat
  metrics : OptionMetrics
  deriving DecidableEq, Repr

/-- The variables of the loop over the solved alternatives. -/
structure Batch where
  db : Database
  rows : List BatchRow
  signatures : List (List (UUID × List (UUID × StopType × UUID)))

/-- The attempt of the next row of a batch, `options.py:202`: the reserved attempt for the
first one, and then new ones behind the previous row. -/
def nextRow (db : Database) (reserved : RecoveryPlan) (rows : List BatchRow)
    (context : RecoveryContext) : Except AppError (Database × RecoveryPlan) :=
  match rows.getLast? with
  | none => .ok (db, { reserved with replanningScope := context.scope })
  | some previous => do
    let attempt := RecoveryWorkflow.newAttempt context db.nextId (previous.attemptNo + 1)
      (some previous.attemptId)
    let added ← RecoveryWorkflow.addRecoveryPlan db attempt
    return (added, attempt)

/-- The `options` of a published attempt, `options.py:217`. -/
def optionSummary (fingerprint : RecoveryContext → Nat) (batchId : UUID)
    (context : RecoveryContext) : OptionSummary where
  batchId := batchId
  operationalTime := context.currentTime
  contextFingerprint := fingerprint context
  filteredByLimit := false

/-- What the loop body makes of the attempt of a row. -/
def publishOption (fingerprint : RecoveryContext → Nat) (batchId : UUID)
    (context : RecoveryContext) (candidateId : UUID) (attempt : RecoveryPlan) : RecoveryPlan :=
  RecoveryWorkflow.publish candidateId (some (optionSummary fingerprint batchId context))
    { attempt with replanningScope := context.scope }

/-- The loop body of `_generate`, `options.py:187`: a candidate with a known signature is
rolled back, any other one is published. -/
def persistOption (services : Services) (fingerprint : RecoveryContext → Nat) (batchId : UUID)
    (reserved : RecoveryPlan) (batch : Batch) (option : RecoveryContext × SolverResult) :
    Except AppError Batch := do
  let context := option.1
  let (created, candidate) ← createCandidate batch.db context option.2 none
  let signature := planSignature candidate
  if batch.signatures.contains signature then return batch
  else
    let base ← orRaise (created.plan? context.basePlanId) (.uncaught "AttributeError")
    let metrics ← optionMetrics context base candidate
    let _ ← reviewDeadline services context candidate
    let (added, attempt) ← nextRow created reserved batch.rows context
    return {
      db := added.updateRecoveryPlan attempt.id
        (publishOption fingerprint batchId context candidate.id)
      rows := batch.rows ++ [⟨attempt.id, attempt.attemptNo, metrics⟩]
      signatures := batch.signatures ++ [signature] }

/-- The loop body keeps the batch or adds a row, with the metrics of a candidate that none of
the rows has. -/
theorem persistOption_row {services : Services} {fingerprint : RecoveryContext → Nat}
    {batchId : UUID} {reserved : RecoveryPlan} {batch batch' : Batch}
    {option : RecoveryContext × SolverResult}
    (h : persistOption services fingerprint batchId reserved batch option = .ok batch') :
    batch' = batch ∨ ∃ created candidate base metrics added attempt,
      createCandidate batch.db option.1 option.2 none = .ok (created, candidate) ∧
      planSignature candidate ∉ batch.signatures ∧
      created.plan? option.1.basePlanId = some base ∧
      optionMetrics option.1 base candidate = .ok metrics ∧
      nextRow created reserved batch.rows option.1 = .ok (added, attempt) ∧
      batch' = {
        db := added.updateRecoveryPlan attempt.id
          (publishOption fingerprint batchId option.1 candidate.id)
        rows := batch.rows ++ [⟨attempt.id, attempt.attemptNo, metrics⟩]
        signatures := batch.signatures ++ [planSignature candidate] } := by
  obtain ⟨⟨created, candidate⟩, hc, h⟩ := bind_eq_ok.mp h
  dsimp only at h
  split at h
  · cases h
    exact .inl rfl
  · next hnew =>
    obtain ⟨base, hb, h⟩ := bind_eq_ok.mp h
    obtain ⟨metrics, hm, h⟩ := bind_eq_ok.mp h
    obtain ⟨deadline, -, h⟩ := bind_eq_ok.mp h
    obtain ⟨⟨added, attempt⟩, hn, h⟩ := bind_eq_ok.mp h
    cases h
    rw [orRaise_eq_ok] at hb
    exact .inr ⟨created, candidate, base, metrics, added, attempt, hc,
      fun hmem ↦ hnew (List.contains_iff_mem.mpr hmem), hb, hm, hn, rfl⟩

/-- The loop body keeps the batch or adds a row with its candidate. -/
theorem persistOption_ok {services : Services} {fingerprint : RecoveryContext → Nat}
    {batchId : UUID} {reserved : RecoveryPlan} {batch batch' : Batch}
    {option : RecoveryContext × SolverResult}
    (h : persistOption services fingerprint batchId reserved batch option = .ok batch') :
    batch' = batch ∨ ∃ created candidate added attempt metrics,
      createCandidate batch.db option.1 option.2 none = .ok (created, candidate) ∧
      nextRow created reserved batch.rows option.1 = .ok (added, attempt) ∧
      batch' = {
        db := added.updateRecoveryPlan attempt.id
          (publishOption fingerprint batchId option.1 candidate.id)
        rows := batch.rows ++ [⟨attempt.id, attempt.attemptNo, metrics⟩]
        signatures := batch.signatures ++ [planSignature candidate] } := by
  rcases persistOption_row h with
    he | ⟨created, candidate, -, metrics, added, attempt, hc, -, -, -, hn, he⟩
  · exact .inl he
  · exact .inr ⟨created, candidate, added, attempt, metrics, hc, hn, he⟩

/-- The rows beyond the limit, `options.py:231`. -/
def rowsBeyond (maxCandidates : Nat) (rows : List BatchRow) : List BatchRow :=
  (rows.insertionSort fun a b ↦
    priorityKey a.metrics a.attemptNo ≤ priorityKey b.metrics b.attemptNo).drop maxCandidates

/-- How a row beyond the limit goes back to DRAFT, `options.py:234`. -/
def filterRow (attempt : RecoveryPlan) : RecoveryPlan :=
  { attempt with
    status := .draft
    options := attempt.options.map fun summary ↦ { summary with filteredByLimit := true } }

/-- The rows beyond the limit go back to DRAFT, and their candidates are cancelled. -/
def filterRows (db : Database) (filtered : List UUID) : Database :=
  let beyond := fun attempt : RecoveryPlan ↦ filtered.contains attempt.id
  { db with
    recoveryPlans := updateWhere db.recoveryPlans beyond filterRow
    plans := updateWhere db.plans
      (fun plan ↦ (db.recoveryPlans.filter beyond).any
        (·.candidateDeliveryPlanId == some plan.id))
      fun plan ↦ { plan with status := .cancelled } }

/-- The end of `_generate`, `options.py:225`. -/
def closeBatch (run : Run) (maxCandidates : Nat) (batch : Batch) : Database :=
  let filtered := filterRows batch.db ((rowsBeyond maxCandidates batch.rows).map (·.attemptId))
  let decided := filtered.updateIncident run.incidentId fun row ↦
    { row with status := if batch.rows = [] then .assessing else .review }
  if batch.rows = [] then RecoveryWorkflow.record decided run.attemptId .infeasible none
  else decided

/-- The last transaction of `_generate` up to the end of its loop, `options.py:169`. -/
def persistBatch (services : Services) (fingerprint : RecoveryContext → Nat) (db : Database)
    (run : Run) (contexts : List RecoveryContext)
    (solved : List (RecoveryContext × SolverResult)) : Except AppError Batch := do
  let initialContext ← orRaise contexts.head? (.uncaught "IndexError")
  RecoveryWorkflow.assertBaseStillCurrent db run.incidentId initialContext.basePlanId
  let fresh ← contexts.mapM fun context ↦
    materializeRecoveryContext db run.incidentId context.scope context.currentTime
  raiseFirst [(fresh != contexts, .conflict "RECOVERY_CONTEXT_CHANGED")]
  let reserved ← orRaise (db.recoveryPlan? run.attemptId) (.notFound "RECOVERY_NOT_FOUND")
  solved.foldlM (persistOption services fingerprint db.nextId reserved)
    { db := { db with nextId := db.nextId + 1 }, rows := [], signatures := [] }

/-- The last transaction of `_generate`; the batch takes the next id. -/
def finish (services : Services) (fingerprint : RecoveryContext → Nat) (db : Database) (run : Run)
    (maxCandidates : Nat) (contexts : List RecoveryContext)
    (solved : List (RecoveryContext × SolverResult)) : Except AppError Database := do
  let batch ← persistBatch services fingerprint db run contexts solved
  return closeBatch run maxCandidates batch

/-- The loop runs on contexts that are read again. -/
theorem persistBatch_ok {services : Services} {fingerprint : RecoveryContext → Nat}
    {db : Database} {run : Run} {contexts : List RecoveryContext}
    {solved : List (RecoveryContext × SolverResult)} {batch : Batch}
    (h : persistBatch services fingerprint db run contexts solved = .ok batch) :
    (∃ initial ∈ contexts, RecoveryWorkflow.assertBaseStillCurrent db run.incidentId
      initial.basePlanId = .ok ()) ∧
    (∀ context ∈ contexts, materializeRecoveryContext db run.incidentId context.scope
      context.currentTime = .ok context) ∧
    ∃ reserved, db.recoveryPlan? run.attemptId = some reserved ∧
      solved.foldlM (persistOption services fingerprint db.nextId reserved)
        { db := { db with nextId := db.nextId + 1 }, rows := [], signatures := [] } =
          .ok batch := by
  obtain ⟨initialContext, hi, h⟩ := bind_eq_ok.mp h
  obtain ⟨hbase, h⟩ := unit_bind_eq_ok.mp h
  obtain ⟨fresh, hf, h⟩ := bind_eq_ok.mp h
  obtain ⟨hsame, h⟩ := unit_bind_eq_ok.mp h
  obtain ⟨reserved, hr, hb⟩ := bind_eq_ok.mp h
  rw [orRaise_eq_ok] at hr hi
  rw [raiseFirst_cons_eq_ok, bne_eq_false_iff_eq] at hsame
  rw [hsame.1, mapM_eq_ok_iff] at hf
  refine ⟨⟨initialContext, List.mem_of_head? hi, hbase⟩, ?_, reserved, hr, hb⟩
  intro context hc
  rw [List.forall₂_same] at hf
  exact hf context hc

/-- The last transaction closes the batch that its loop has persisted. -/
theorem finish_ok {services : Services} {fingerprint : RecoveryContext → Nat}
    {db db' : Database} {run : Run} {maxCandidates : Nat} {contexts : List RecoveryContext}
    {solved : List (RecoveryContext × SolverResult)}
    (h : finish services fingerprint db run maxCandidates contexts solved = .ok db') :
    (∃ initial ∈ contexts, RecoveryWorkflow.assertBaseStillCurrent db run.incidentId
      initial.basePlanId = .ok ()) ∧
    (∀ context ∈ contexts, materializeRecoveryContext db run.incidentId context.scope
      context.currentTime = .ok context) ∧
    ∃ reserved batch, db.recoveryPlan? run.attemptId = some reserved ∧
      solved.foldlM (persistOption services fingerprint db.nextId reserved)
        { db := { db with nextId := db.nextId + 1 }, rows := [], signatures := [] } = .ok batch ∧
      db' = closeBatch run maxCandidates batch := by
  obtain ⟨batch, hb, h⟩ := bind_eq_ok.mp h
  cases h
  obtain ⟨hbase, hfresh, reserved, hr, hfold⟩ := persistBatch_ok hb
  exact ⟨hbase, hfresh, reserved, batch, hr, hfold, rfl⟩

/-- The alternatives of a solve belong to its contexts. -/
theorem solveContexts_mem {services : Services} {maxCandidates : Nat}
    {contexts : List RecoveryContext} {solved : List (RecoveryContext × SolverResult)}
    (h : solveContexts services maxCandidates contexts = .ok solved)
    {option : RecoveryContext × SolverResult} (ho : option ∈ solved) : option.1 ∈ contexts := by
  obtain ⟨rows, hr, h⟩ := bind_eq_ok.mp h
  cases h
  obtain ⟨row, hrow, ho⟩ := List.mem_flatten.mp ho
  obtain ⟨context, hc, hsolve⟩ := exists_of_forall₂_right (mapM_eq_ok_iff.mp hr) hrow
  obtain ⟨matrix, -, hsolve⟩ := bind_eq_ok.mp hsolve
  obtain ⟨source, -, hsolve⟩ := bind_eq_ok.mp hsolve
  obtain ⟨results, -, hsolve⟩ := bind_eq_ok.mp hsolve
  cases hsolve
  obtain ⟨result, -, rfl⟩ := List.mem_map.mp ho
  exact hc

/-- What the handler makes of an attempt without a candidate. -/
def failed (attempt : RecoveryPlan) : RecoveryPlan :=
  { attempt with solverStatus := some .error, options := none }

/-- The transaction of the handler, `options.py:146`. -/
def recordFailure (db : Database) (attemptId : UUID) : Database :=
  db.updateRecoveryPlan attemptId fun attempt ↦
    if attempt.candidateDeliveryPlanId.isNone then failed attempt else attempt

/-- The solves and the last transaction of `_generate`. -/
def generate (services : Services) (fingerprint : RecoveryContext → Nat) (db : Database)
    (run : Run) (maxCandidates : Nat) (contexts : List RecoveryContext) :
    Except AppError Database := do
  let solved ← solveContexts services maxCandidates contexts
  finish services fingerprint db run maxCandidates contexts solved

end RecoveryOptionsWorkflow

/-! ### Steps of a run -/

/-- Go on with a value, or to a point for the error. -/
def Run.onward {α : Type} (run : Run) (db : Database) (outcome : Except AppError α)
    (failed : AppError → RunPoint) (next : α → Database × Run) : Database × Run :=
  match outcome with
  | .ok a => next a
  | .error error => (db, { run with point := failed error })

/-- The next transaction of a run of either class. A run that has ended does nothing. -/
def Run.step (services : WorkflowServices) (fingerprint : RecoveryContext → Nat)
    (db : Database) (now : Instant) (run : Run) : Database × Run :=
  match run.point, run.workflow with
  | .resuming, .single =>
    run.onward db (RecoveryWorkflow.checkResumed db run.attemptId now) .raised fun context ↦
      (db, { run with point := .attempting context })
  | .resuming, .options _ =>
    run.onward db (RecoveryWorkflow.checkResumed db run.attemptId now) .raised fun context ↦
      (db, { run with point := .buffering context })
  | .attempting context, _ => RecoveryWorkflow.attempt services db run context
  | .expanding context, _ => RecoveryWorkflow.widen db run context
  | .buffering context, _ =>
    run.onward db (RecoveryOptionsWorkflow.addBuffer db run context) .failing fun buffered ↦
      (db, { run with point := .generating buffered })
  | .generating context, _ =>
    run.onward db (RecoveryOptionsWorkflow.readWiderScopes db run context) .failing
      fun contexts ↦ (db, { run with point := .choosing contexts })
  | .choosing contexts, .options maxCandidates =>
    run.onward db (RecoveryOptionsWorkflow.generate services.toServices fingerprint db run
      maxCandidates contexts) .failing fun finished ↦ (finished, { run with point := .returned })
  | .choosing _, .single => (db, run)
  | .failing error, _ =>
    (RecoveryOptionsWorkflow.recordFailure db run.attemptId, { run with point := .raised error })
  | .returned, _ => (db, run)
  | .raised _, _ => (db, run)

end PenroseRoute.Recovery
