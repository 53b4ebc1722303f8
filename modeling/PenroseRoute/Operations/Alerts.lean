import PenroseRoute.Lib.Dict
import PenroseRoute.Lib.SortedSet
import PenroseRoute.Operations.ChangeFeed
import PenroseRoute.Operations.Risk
import Mathlib.Data.Prod.Lex

/-!
# Delivery-window alerts

Models `AlertService` of `backend/app/modules/operations/alerts.py`: one evaluation of a business
date raises, refreshes and resolves the alerts of the deliveries at risk, and logs each change.
-/

namespace PenroseRoute.Operations

open PenroseRoute.Db PenroseRoute.Lib

/-- The alert tables, with the next unused identifier and the last value of
`risk_alert_change_cursor_seq`. -/
structure AlertTables where
  alerts : List RiskAlert
  changes : List RiskAlertChange
  nextId : UUID
  sequence : Nat
  deriving DecidableEq, Repr

/-! ### `AlertRepository` -/

namespace AlertRepository

/-- `append_change`, `alert_repository.py:50`, by a writer that need not wait. -/
def appendChange (tables : AlertTables) (change : NewAlertChange) : Except AppError AlertTables :=
  if !ChangeFeed.accepts change then .error (.uncaught "ValueError")
  else if tables.sequence < ChangeFeed.maxBigint then
    .ok { tables with
      changes := tables.changes ++ [change.row (tables.sequence + 1)]
      sequence := tables.sequence + 1 }
  else .error (.uncaught "DataError")

/-- `latest_evaluation_at`, `alert_repository.py:34`. -/
def latestEvaluationAt (tables : AlertTables) (businessDate : BusinessDate) : Option Instant :=
  ((tables.alerts.filter (·.businessDate == businessDate)).map (·.lastEvaluatedAt)).max?

/-- `lock_active_for_business_date`, `alert_repository.py:41`, by plan, order and id. -/
def lockActiveForBusinessDate (tables : AlertTables) (businessDate : BusinessDate) :
    List RiskAlert :=
  (tables.alerts.filter fun alert ↦
    alert.businessDate == businessDate && alert.status == .active).insertionSort
    fun a b ↦ toLex (a.deliveryPlanId, toLex (a.orderId, a.id)) ≤
      toLex (b.deliveryPlanId, toLex (b.orderId, b.id))

/-- `list_changes_for_alert`, `alert_repository.py:93`, by change id. -/
def listChangesForAlert (tables : AlertTables) (alertId : UUID) : List RiskAlertChange :=
  (tables.changes.filter (·.alertId == alertId)).insertionSort fun a b ↦ a.changeId ≤ b.changeId

/-- `uq_risk_alerts_active_plan_order_type`, when an active alert is inserted. -/
def activeTaken (tables : AlertTables) (planId orderId : UUID) : Bool :=
  tables.alerts.any fun alert ↦
    alert.status == .active && alert.deliveryPlanId == planId && alert.orderId == orderId

end AlertRepository

/-! ### `AlertService` -/

/-- `AlertEvaluationResult`, `alerts.py:21`. -/
structure AlertEvaluationResult where
  businessDate : BusinessDate
  currentPlanId : Option UUID
  createdCount : Nat
  updatedCount : Nat
  resolvedCount : Nat
  deriving DecidableEq, Repr

namespace AlertService

open AlertRepository RiskService

/-- `_append`, `alerts.py:162`. -/
def append (tables : AlertTables) (alert : RiskAlert) (kind : AlertChangeType) (now : Instant) :
    Except AppError AlertTables :=
  appendChange tables ⟨true, none, alert.id, kind, now, alert.evidence⟩

/-- `routes`, `alerts.py:79`. -/
def routes (plan : DeliveryPlan) : List (UUID × VehicleRoute) :=
  plan.routes.map fun route ↦ (route.id, route)

/-- `deliveries`, `alerts.py:80`. -/
def deliveries (plan : DeliveryPlan) : List ((UUID × UUID) × RouteStop) :=
  (dictEntries (routes plan)).flatMap fun entry ↦
    (entry.2.stops.filter (·.stopType == .delivery)).map fun stop ↦
      ((entry.2.id, stop.orderId), stop)

/-- `memberships`, `alerts.py:69`. -/
def memberships (plan : DeliveryPlan) : List (UUID × DeliveryPlanOrder) :=
  plan.planOrders.map fun item ↦ (item.orderId, item)

/-- `sorted(memberships.items())`, `alerts.py:90`. -/
def sortedMemberships (plan : DeliveryPlan) : List (UUID × DeliveryPlanOrder) :=
  (sortedSet id (plan.planOrders.map (·.orderId))).filterMap fun orderId ↦
    (lastWrite (memberships plan) orderId).map fun membership ↦ (orderId, membership)

/-- The route of an order in a plan and its delivery there, `alerts.py:94`. -/
def deliveryOf (plan : DeliveryPlan) (membership : DeliveryPlanOrder) :
    Option (VehicleRoute × RouteStop) := do
  let routeId ← if membership.assignmentStatus == .assigned then membership.vehicleRouteId else none
  let route ← lastWrite (routes plan) routeId
  let delivery ← lastWrite (deliveries plan) (route.id, membership.orderId)
  return (route, delivery)

/-- The evidence of a delivery at risk, `alerts.py:98`. Without a delivery, or when the order or
its delivery is completed, the order is not at risk. -/
def assess (thresholdSeconds : Int) (plan : DeliveryPlan) (now : Instant) (order : Order)
    (membership : DeliveryPlanOrder) : Option AlertEvidence :=
  match deliveryOf plan membership with
  | none => none
  | some (route, delivery) =>
    if order.executionStatus == .completed || delivery.status == .completed then none
    else
      let delay := routeDelaySeconds route.stops now
      let eta := delivery.plannedArrivalAt + timedelta delay
      let windowEnd := delivery.timeWindowEndAt.getD order.deliveryWindowEndAt
      if statusForEta thresholdSeconds eta windowEnd == .normal then none
      else some {
        reasonCategory := reasonForEta thresholdSeconds eta windowEnd
        estimatedArrivalAt := eta
        deliveryWindowEndAt := windowEnd
        delaySeconds := delay
        thresholdSeconds := thresholdSeconds
        vehicleRouteId := route.id }

/-- The variables of an evaluation. -/
structure Scan where
  db : Database
  tables : AlertTables
  touched : List (UUID × UUID)
  created : Nat
  updated : Nat
  resolved : Nat
  deriving DecidableEq, Repr

/-- `alert` for the key of a plan and an order. -/
def key (alert : RiskAlert) : UUID × UUID := (alert.deliveryPlanId, alert.orderId)

/-- Set the `risk_status` of one order. -/
def setRisk (db : Database) (orderId : UUID) (status : OrderRiskStatus) : Database :=
  db.updateOrder orderId fun order ↦ { order with riskStatus := status }

/-- Save the fields of an alert that an evaluation rewrites. -/
def saveAlert (tables : AlertTables) (alert : RiskAlert) : AlertTables :=
  { tables with alerts := updateWhere tables.alerts (·.id == alert.id) fun _ ↦ alert }

/-- A delivery at risk without an active alert, `alerts.py:127`. -/
def raiseAlert (businessDate : BusinessDate) (now : Instant) (planId orderId : UUID)
    (evidence : AlertEvidence) (tables : AlertTables) : Except AppError AlertTables :=
  let alert : RiskAlert := {
    id := tables.nextId
    deliveryPlanId := planId
    orderId := orderId
    businessDate := businessDate
    status := .active
    evidence := evidence
    detectedAt := now
    lastEvaluatedAt := now
    resolvedAt := none }
  if activeTaken tables planId orderId then
    .error (.integrity "uq_risk_alerts_active_plan_order_type")
  else append { tables with
      alerts := tables.alerts ++ [alert]
      nextId := tables.nextId + 1 } alert .created now

/-- An alert whose delivery is still at risk, `alerts.py:138`. -/
def refreshAlert (now : Instant) (evidence : AlertEvidence) (alert : RiskAlert)
    (tables : AlertTables) : Except AppError AlertTables :=
  let refreshed := { alert with evidence := evidence, lastEvaluatedAt := now }
  let tables := saveAlert tables refreshed
  if alert.evidence.reasonCategory != evidence.reasonCategory then
    append tables refreshed .updated now
  else .ok tables

/-- One pass of the first loop of `_evaluate_locked`, `alerts.py:90`. The orders are those that
were locked before it. -/
def visit (thresholdSeconds : Int) (businessDate : BusinessDate) (now : Instant)
    (plan : DeliveryPlan) (orders : UUID → Option Order) (active : List RiskAlert) (scan : Scan)
    (item : UUID × DeliveryPlanOrder) : Except AppError Scan := do
  let some order := orders item.1 | return scan
  let some evidence := assess thresholdSeconds plan now order item.2
    | return { scan with db := setRisk scan.db item.1 .normal }
  let db := setRisk scan.db item.1 .atRisk
  let touched := scan.touched ++ [(plan.id, item.1)]
  match lastWrite (active.map fun alert ↦ (key alert, alert)) (plan.id, item.1) with
  | none => do
    let tables ← raiseAlert businessDate now plan.id item.1 evidence scan.tables
    return { scan with db := db, tables := tables, touched := touched, created := scan.created + 1 }
  | some alert => do
    let tables ← refreshAlert now evidence alert scan.tables
    let updated := if alert.evidence.reasonCategory != evidence.reasonCategory then
      scan.updated + 1 else scan.updated
    return { scan with db := db, tables := tables, touched := touched, updated := updated }

/-- The first loop of `_evaluate_locked`; without a current plan there are no memberships. -/
def visitAll (thresholdSeconds : Int) (businessDate : BusinessDate) (now : Instant)
    (plan : Option DeliveryPlan) (orders : UUID → Option Order) (active : List RiskAlert)
    (scan : Scan) : Except AppError Scan :=
  match plan with
  | none => .ok scan
  | some plan => (sortedMemberships plan).foldlM
      (visit thresholdSeconds businessDate now plan orders active) scan

/-- One pass of the second loop of `_evaluate_locked`, `alerts.py:147`. -/
def clear (now : Instant) (plan : Option DeliveryPlan) (orders : UUID → Option Order)
    (scan : Scan) (alert : RiskAlert) : Except AppError Scan := do
  if scan.touched.contains (key alert) then return scan
  let reason : ReasonCategory :=
    if plan.any (·.id == alert.deliveryPlanId) then .riskCleared else .planNotCurrent
  let resolved := { alert with
    status := .resolved
    resolvedAt := some now
    lastEvaluatedAt := now
    evidence := { alert.evidence with reasonCategory := reason } }
  let member := plan.any fun plan ↦ plan.planOrders.any (·.orderId == alert.orderId)
  let db := if !member && (orders alert.orderId).isSome then setRisk scan.db alert.orderId .normal
    else scan.db
  let tables ← append (saveAlert scan.tables resolved) resolved .resolved now
  return { scan with db := db, tables := tables, resolved := scan.resolved + 1 }

/-- The time of an evaluation, which never goes back, `alerts.py:61`. -/
def evaluationTime (tables : AlertTables) (businessDate : BusinessDate) (now : Instant) :
    Instant :=
  match latestEvaluationAt tables businessDate with
  | none => now
  | some latest => max now latest

/-- `_evaluate_locked`, `alerts.py:52`. No other transaction is between its reads, so the plan
that is locked is the one selected and the orders of the active alerts are all there. -/
def evaluateLocked (thresholdSeconds : Int) (db : Database) (tables : AlertTables)
    (businessDate : BusinessDate) (now : Instant) :
    Except AppError (AlertEvaluationResult × Database × AlertTables) := do
  let plan := db.currentPlan? businessDate
  let now := evaluationTime tables businessDate now
  let active := lockActiveForBusinessDate tables businessDate
  let scan ← visitAll thresholdSeconds businessDate now plan db.order? active
    ⟨db, tables, [], 0, 0, 0⟩
  let scan ← active.foldlM (clear now plan db.order?) scan
  return (⟨businessDate, plan.map (·.id), scan.created, scan.updated, scan.resolved⟩,
    scan.db, scan.tables)

/-- `evaluate_business_date`, `alerts.py:37`: a lost race for the unique index is tried again
once. -/
def evaluateBusinessDate (thresholdSeconds : Int) (db : Database) (tables : AlertTables)
    (businessDate : BusinessDate) (now : Instant) :
    Except AppError (AlertEvaluationResult × Database × AlertTables) :=
  match evaluateLocked thresholdSeconds db tables businessDate now with
  | .error (.integrity "uq_risk_alerts_active_plan_order_type") =>
    evaluateLocked thresholdSeconds db tables businessDate now
  | outcome => outcome

end AlertService

end PenroseRoute.Operations
