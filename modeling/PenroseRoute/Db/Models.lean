import PenroseRoute.Optimization.Contracts

/-!
# Rows of the database

Models `backend/app/db/models/resources.py`, `fleet.py`, `planning.py` and `recovery.py`.
A plan is read with its routes, stops and memberships, so these are nested in it; an
incident is read with its affected orders. Columns that no modelled function reads (codes,
names, explanations, audit texts and timestamps) are left out.
-/

namespace PenroseRoute.Db

open Optimization (SolverStopType RecoveryScope UnassignedReason)

/-- `StopType`, `planning.py:63`; it has the values of `SolverStopType` and is converted by
value. -/
abbrev StopType := SolverStopType

/-- `ReplanningScope`, `recovery.py:53`; it has the values of `RecoveryScope` and is
converted by value. -/
abbrev ReplanningScope := RecoveryScope

/-- `OrderExecutionStatus`, in the order of `EXECUTION_PATH`. -/
inductive OrderExecutionStatus where
  | planned
  | pickupInProgress
  | pickedUp
  | delivering
  | completed
  deriving DecidableEq, Repr

/-- `OrderRiskStatus`. -/
inductive OrderRiskStatus where
  | normal
  | atRisk
  deriving DecidableEq, Repr

/-- `ResourceStatus`, `fleet.py:24`. -/
inductive ResourceStatus where
  | available
  | active
  | unavailable
  deriving DecidableEq, Repr

/-- `AssignmentStatus`, `fleet.py:30`. -/
inductive AssignmentStatus where
  | planned
  | active
  | ended
  | cancelled
  deriving DecidableEq, Repr

/-- `DeliveryPlanStatus`, `planning.py:37`. -/
inductive DeliveryPlanStatus where
  | draft
  | candidate
  | current
  | superseded
  | cancelled
  deriving DecidableEq, Repr

/-- `ValidationStatus`, `planning.py:45`. -/
inductive ValidationStatus where
  | pending
  | valid
  | invalid
  deriving DecidableEq, Repr

/-- `PlanOrderAssignmentStatus`, `planning.py:51`. -/
inductive PlanOrderAssignmentStatus where
  | assigned
  | unassigned
  deriving DecidableEq, Repr

/-- `RouteStatus`, `planning.py:56`. -/
inductive RouteStatus where
  | planned
  | active
  | completed
  | cancelled
  deriving DecidableEq, Repr

/-- `StopStatus`, `planning.py:69`. -/
inductive StopStatus where
  | planned
  | arrived
  | inService
  | completed
  deriving DecidableEq, Repr

/-- `IncidentType`, `recovery.py:26`. -/
inductive IncidentType where
  | vehicleUnavailable
  | merchantDelay
  deriving DecidableEq, Repr

/-- `IncidentStatus`, `recovery.py:31`. -/
inductive IncidentStatus where
  | detected
  | assessing
  | replanning
  | review
  | resolved
  deriving DecidableEq, Repr

/-- `ImpactType`, `recovery.py:39`. -/
inductive ImpactType where
  | completedFrozen
  | handoverRequired
  | pickupReplan
  | waitingTimeUpdate
  | downstreamRouteImpact
  deriving DecidableEq, Repr

/-- `RecoveryPlanStatus`, `recovery.py:47`. -/
inductive RecoveryPlanStatus where
  | draft
  | pendingReview
  | decided
  deriving DecidableEq, Repr

/-- `DispatcherDecision`, `recovery.py:65`. -/
inductive DispatcherDecision where
  | approve
  | reject
  | modify
  deriving DecidableEq, Repr

/-! ### Resources -/

/-- `Order`. -/
structure Order where
  id : UUID
  orderCode : String
  businessDate : BusinessDate
  merchantId : UUID
  customerId : UUID
  pickupLocationId : UUID
  deliveryLocationId : UUID
  pickupReadyAt : Instant
  pickupServiceSeconds : Nat
  deliveryWindowStartAt : Instant
  deliveryWindowEndAt : Instant
  deliveryServiceSeconds : Nat
  demandLoadUnits : Nat
  executionStatus : OrderExecutionStatus
  riskStatus : OrderRiskStatus
  deriving DecidableEq, Repr

/-- `Vehicle`, `fleet.py:37`. -/
structure Vehicle where
  id : UUID
  vehicleCode : String
  capacityLoadUnits : Nat
  status : ResourceStatus
  currentLocationId : UUID
  currentLocationRecordedAt : Instant
  deriving DecidableEq, Repr

/-- `Driver`. -/
structure Driver where
  id : UUID
  status : ResourceStatus
  deriving DecidableEq, Repr

/-- `VehicleDriverAssignment`, `fleet.py:89`. -/
structure VehicleDriverAssignment where
  id : UUID
  vehicleId : UUID
  driverId : UUID
  status : AssignmentStatus
  assignedFromAt : Instant
  assignedUntilAt : Option Instant
  activatedAt : Option Instant
  endedAt : Option Instant
  deriving DecidableEq, Repr

/-! ### Plans -/

/-- `RouteStop`, `planning.py:259`. -/
structure RouteStop where
  id : UUID
  orderId : UUID
  locationId : UUID
  stopType : StopType
  sequenceNo : Nat
  precedenceStopId : Option UUID
  sourceIncidentId : Option UUID
  plannedArrivalAt : Instant
  plannedDepartureAt : Instant
  actualArrivalAt : Option Instant
  actualDepartureAt : Option Instant
  serviceSeconds : Nat
  timeWindowStartAt : Option Instant
  timeWindowEndAt : Option Instant
  demandLoadUnitsSnapshot : Nat
  status : StopStatus
  deriving DecidableEq, Repr

/-- The keys of `route_metrics` that are read again. -/
structure RouteMetrics where
  preservedStopCount : Nat
  geometryProvider : Option String
  roadLegEndIndices : Option (List Nat)
  deriving DecidableEq, Repr

/-- `VehicleRoute`, `planning.py:144`, with its stops by sequence number. -/
structure VehicleRoute where
  id : UUID
  routeNo : Nat
  vehicleId : UUID
  driverId : UUID
  assignmentId : UUID
  startLocationId : UUID
  endLocationId : UUID
  status : RouteStatus
  plannedStartAt : Instant
  plannedEndAt : Instant
  actualStartAt : Option Instant
  actualEndAt : Option Instant
  distanceMeters : Nat
  durationSeconds : Int
  capacityLoadUnits : Nat
  routeGeometry : Option String
  routeMetrics : Option RouteMetrics
  stops : List RouteStop
  deriving DecidableEq, Repr

/-- `DeliveryPlanOrder`, `planning.py:215`. -/
structure DeliveryPlanOrder where
  orderId : UUID
  assignmentStatus : PlanOrderAssignmentStatus
  vehicleRouteId : Option UUID
  unassignedReasonCode : Option UnassignedReason
  unassignedReasonDetail : Option String
  deriving DecidableEq, Repr

/-- The CHECKs of a membership, `planning.py:225`; the reason codes of
`ck_delivery_plan_orders_reason` are those of `UnassignedReason`. -/
def DeliveryPlanOrder.checks (membership : DeliveryPlanOrder) : Bool :=
  (match membership.assignmentStatus with
  | .assigned => membership.vehicleRouteId.isSome && membership.unassignedReasonCode.isNone &&
      membership.unassignedReasonDetail.isNone
  | .unassigned => membership.vehicleRouteId.isNone && membership.unassignedReasonCode.isSome) &&
    (membership.unassignedReasonCode != some .other ||
      (membership.unassignedReasonDetail.getD "").toList.any (· != ' '))

/-- `DeliveryPlan`, `planning.py:76`, with its routes by route number and its memberships. -/
structure DeliveryPlan where
  id : UUID
  planGroupId : UUID
  businessDate : BusinessDate
  versionNo : Nat
  parentPlanId : Option UUID
  status : DeliveryPlanStatus
  validationStatus : ValidationStatus
  totalDistanceMeters : Nat
  totalDurationSeconds : Int
  vehicleCount : Nat
  assignedOrderCount : Nat
  unassignedOrderCount : Nat
  /-- The key of `validation_summary` that is read again. -/
  planningFactsSha256 : Option String
  routes : List VehicleRoute
  planOrders : List DeliveryPlanOrder
  deriving DecidableEq, Repr

/-! ### Incidents and recoveries -/

/-- `IncidentAffectedOrder`, `recovery.py:128`. -/
structure IncidentAffectedOrder where
  orderId : UUID
  originalVehicleRouteId : Option UUID
  executionStatusSnapshot : OrderExecutionStatus
  riskStatusSnapshot : OrderRiskStatus
  wasPickedUp : Bool
  wasCompleted : Bool
  requiresReplanning : Bool
  handoverRequired : Bool
  impactType : ImpactType
  deriving DecidableEq, Repr

/-- `Incident`, `recovery.py:71`. -/
structure Incident where
  id : UUID
  incidentType : IncidentType
  status : IncidentStatus
  deliveryPlanId : UUID
  vehicleRouteId : Option UUID
  vehicleId : Option UUID
  merchantId : Option UUID
  incidentLocationId : Option UUID
  originalReadyAt : Option Instant
  updatedReadyAt : Option Instant
  delaySeconds : Option Int
  detectedAt : Instant
  affectedOrders : List IncidentAffectedOrder
  deriving DecidableEq, Repr

/-- `ck_incidents_type_fields`, `recovery.py:86`: the columns of each incident type. -/
def Incident.typeFieldsHold (incident : Incident) : Bool :=
  match incident.incidentType with
  | .vehicleUnavailable => incident.vehicleRouteId.isSome && incident.vehicleId.isSome &&
      incident.incidentLocationId.isSome && incident.merchantId.isNone &&
      incident.originalReadyAt.isNone && incident.updatedReadyAt.isNone &&
      incident.delaySeconds.isNone
  | .merchantDelay => incident.merchantId.isSome && incident.vehicleRouteId.isNone &&
      incident.vehicleId.isNone && incident.incidentLocationId.isNone &&
      incident.originalReadyAt.isSome && incident.updatedReadyAt.isSome &&
      incident.delaySeconds.isSome

/-- The seconds of an interval as `::integer` casts them: halves are rounded away from zero. -/
def roundedSeconds (delta : Int) : Int := (2 * delta + 1000000 * delta.sign).tdiv 2000000

/-- `ck_incidents_delay_value`, `recovery.py:75`: a merchant's delay is the one of its times. -/
def Incident.delayValueHolds (incident : Incident) : Bool :=
  match incident.incidentType, incident.delaySeconds, incident.updatedReadyAt,
    incident.originalReadyAt with
  | .merchantDelay, some delaySeconds, some updatedReadyAt, some originalReadyAt =>
    delaySeconds == roundedSeconds (updatedReadyAt - originalReadyAt)
  | _, _, _, _ => true

/-- What `solver_validation_summary["options"]` keeps for a later decision. -/
structure OptionSummary where
  batchId : UUID
  operationalTime : Instant
  contextFingerprint : Nat
  filteredByLimit : Bool
  deriving DecidableEq, Repr

/-- `RecoveryPlan`, `recovery.py:180`. -/
structure RecoveryPlan where
  id : UUID
  incidentId : UUID
  attemptNo : Nat
  previousRecoveryPlanId : Option UUID
  baseDeliveryPlanId : UUID
  candidateDeliveryPlanId : Option UUID
  status : RecoveryPlanStatus
  replanningScope : ReplanningScope
  solverStatus : Option Optimization.SolverStatus
  validationStatus : Option ValidationStatus
  dispatcherDecision : Option DispatcherDecision
  options : Option OptionSummary
  deriving DecidableEq, Repr

end PenroseRoute.Db
