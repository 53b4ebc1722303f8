import Mathlib.Data.List.Sort
import PenroseRoute.Db.Rows
import PenroseRoute.Incidents.Workflow
import PenroseRoute.Lib.Locking
import PenroseRoute.Resources.Orders

/-!
# Reports among advancing orders

`report_unavailable` and `_assess_delay` (`backend/app/modules/incidents/workflow.py`) statement by
statement, interleaved with `advance_execution` (`backend/app/modules/resources/orders.py`). The
memberships are read with their orders, and the session keeps these objects as they are when the
rows are locked afterwards: of the two definitions of `lock_orders_by_ids` the second one counts,
which does not populate what is already loaded.
-/

namespace PenroseRoute.Incidents

open PenroseRoute.Db PenroseRoute.Lib PenroseRoute.Operations PenroseRoute.Resources

/-! ### What a report writes -/

/-- The shift of `_update_remaining_eta_and_risk`, `workflow.py:401`. -/
structure DelayShift where
  thresholdSeconds : Int
  context : MerchantDelayWorkflow.MerchantIncidentContext
  updatedReadyAt : Instant

/-- The writes of a report: its incident, the vehicle with the place and the time of the breakdown,
and the shift of a delay that needs no replanning. -/
structure Outcome where
  incident : Incident
  breakdown : Option (UUID × UUID × Instant)
  shift : Option DelayShift

/-- The database after the writes; the incident gets the next unused id. -/
def Outcome.apply (outcome : Outcome) (db : Database) : Database :=
  let reported := { db with
    incidents := db.incidents ++ [{ outcome.incident with id := db.nextId }]
    nextId := db.nextId + 1 }
  match outcome.breakdown, outcome.shift with
  | some (vehicleId, locationId, eventTime), _ =>
    reported.updateVehicle vehicleId fun vehicle ↦
      { vehicle with
        status := .unavailable
        currentLocationId := locationId
        currentLocationRecordedAt := eventTime }
  | none, some shift =>
    let planId := shift.context.plan.id
    { reported.updatePlan planId
        (MerchantDelayWorkflow.shiftPlan shift.context shift.updatedReadyAt) with
      orders := MerchantDelayWorkflow.shiftRisks shift.thresholdSeconds shift.context
        (MerchantDelayWorkflow.shiftPlan shift.context shift.updatedReadyAt shift.context.plan)
        db.orders }
  | none, none => reported

namespace VehicleIncidentWorkflow

/-- `report_unavailable` once its context is resolved, `workflow.py:91`. -/
def assessUnavailable (db : Database) (context : VehicleIncidentContext) (vehicleId : UUID)
    (eventTime : Instant) (location : BreakdownLocation) : Except AppError Outcome := do
  raiseFirst [
    ((openVehicleIncident? db context.plan.id vehicleId).isSome,
      .conflict "INCIDENT_ALREADY_EXISTS"),
    (context.vehicle.status != .active, .conflict "VEHICLE_NOT_EXECUTING_ROUTE"),
    (context.vehicle.currentLocationRecordedAt > eventTime, .conflict "INCIDENT_FACT_CONFLICT")]
  let locationId ← resolveBreakdownLocation context.vehicle eventTime location
  let incident := unavailableIncident db.nextId context locationId eventTime
  raiseFirst [
    ((confirmedTimes context.route).any (eventTime < ·), .conflict "INCIDENT_FACT_CONFLICT"),
    (!incident.affectedOrders.any (·.requiresReplanning), .conflict "INCIDENT_FACT_CONFLICT")]
  return ⟨incident, some (vehicleId, locationId, eventTime), none⟩

/-- A report without others in between. -/
theorem reportUnavailable_eq (db : Database) (businessDate : BusinessDate) (vehicleId : UUID)
    (eventTime : Instant) (location : BreakdownLocation) :
    reportUnavailable db businessDate vehicleId eventTime location = do
      let context ← resolveVehicleIncidentContext db businessDate vehicleId
      let outcome ← assessUnavailable db context vehicleId eventTime location
      return (outcome.apply db, outcome.incident.id) := by
  unfold reportUnavailable assessUnavailable
  simp only [bind_assoc, pure_bind]
  rfl

end VehicleIncidentWorkflow

namespace MerchantDelayWorkflow

/-- `_assess_delay` once its context is resolved, `workflow.py:286`; without a delay there is no
incident. -/
def assessDelayed (thresholdSeconds : Int) (db : Database) (context : MerchantIncidentContext)
    (merchantId : UUID) (updatedReadyAt eventTime : Instant) (explicitIncident : Bool) :
    Except AppError (Option Outcome) := do
  let delaySeconds := totalSeconds (updatedReadyAt - context.originalReadyAt)
  if delaySeconds ≤ 0 then
    raiseFirst [(explicitIncident, .business "MERCHANT_DELAY_NOT_POSITIVE")]
    return none
  else
    raiseFirst [((openMerchantIncident? db context.plan.id merchantId).isSome,
      .conflict "INCIDENT_ALREADY_EXISTS")]
    let provisionalReplanning := delaySeconds > 600
    let impacts := context.orders.filterMap fun item ↦
      assessMerchantOrder item.routeId item.order item.isDirect provisionalReplanning
    let requiresReplanning := provisionalReplanning && impacts != []
    let incident := delayIncident db.nextId context merchantId updatedReadyAt delaySeconds
      requiresReplanning impacts eventTime
    raiseFirst [(!incident.delayValueHolds, .integrity "ck_incidents_delay_value")]
    let shift := if requiresReplanning then none
      else some ⟨thresholdSeconds, context, updatedReadyAt⟩
    return some ⟨incident, none, shift⟩

/-- A report without others in between. -/
theorem assessDelay_eq (thresholdSeconds : Int) (db : Database) (businessDate : BusinessDate)
    (merchantId : UUID) (updatedReadyAt eventTime : Instant) (explicitIncident : Bool) :
    assessDelay thresholdSeconds db businessDate merchantId updatedReadyAt eventTime
        explicitIncident = do
      let context ← resolveMerchantIncidentContext db businessDate merchantId
      let outcome ← assessDelayed thresholdSeconds db context merchantId updatedReadyAt eventTime
        explicitIncident
      return (outcome.elim db (·.apply db), outcome.map (·.incident.id)) := by
  unfold assessDelay assessDelayed
  congr 1
  funext context
  dsimp only
  split
  · simp only [bind_assoc, pure_bind]
    rfl
  · simp only [bind_assoc, pure_bind]
    congr 1
    funext _
    congr 1
    funext _
    split <;> simp_all [Outcome.apply] <;> rfl

end MerchantDelayWorkflow

/-! ### Reports -/

/-- A report with its arguments. -/
inductive Request where
  | vehicle (businessDate : BusinessDate) (vehicleId : UUID) (eventTime : Instant)
      (location : VehicleIncidentWorkflow.BreakdownLocation)
  | merchant (businessDate : BusinessDate) (merchantId : UUID)
      (updatedReadyAt eventTime : Instant) (explicitIncident : Bool)

/-- The facts that a report is decided on, with the orders as the session has them. -/
inductive Context where
  | vehicle (context : VehicleIncidentWorkflow.VehicleIncidentContext)
  | merchant (context : MerchantDelayWorkflow.MerchantIncidentContext)

namespace Context

/-- The plan of a context. -/
def plan : Context → DeliveryPlan
  | .vehicle context => context.plan
  | .merchant context => context.plan

/-- The argument of `lock_orders_by_ids`, by id: the orders of all memberships that were read. -/
def orderIds : Context → List UUID
  | .vehicle context => (context.orders.map (·.id)).insertionSort (· ≤ ·)
  | .merchant context => (context.routeIds.flatMap fun routeId ↦
      (listRoutePlanOrders context.plan routeId).map (·.orderId)).insertionSort (· ≤ ·)

/-- The orders that a report would record as affected. -/
def affected : Context → List Order
  | .vehicle context => context.orders
  | .merchant context => (context.orders.filter fun item ↦
      (assessMerchantOrder item.routeId item.order item.isDirect true).isSome).map (·.order)

end Context

namespace Request

/-- The business date of a report. -/
def businessDate : Request → BusinessDate
  | .vehicle businessDate _ _ _ => businessDate
  | .merchant businessDate _ _ _ _ => businessDate

/-- The context of a report, `context.py:43` and `:98`. -/
def resolve (db : Database) : Request → Except AppError Context
  | .vehicle businessDate vehicleId _ _ => Context.vehicle <$>
      VehicleIncidentWorkflow.resolveVehicleIncidentContext db businessDate vehicleId
  | .merchant businessDate merchantId _ _ _ => Context.merchant <$>
      MerchantDelayWorkflow.resolveMerchantIncidentContext db businessDate merchantId

/-- The rows that a report locks before it reads the memberships, in the order of the code. -/
def rows (db : Database) (plan : DeliveryPlan) : Request → List Row
  | .vehicle _ vehicleId _ _ =>
    ((plan.routes.filter fun route ↦ route.vehicleId == vehicleId && route.status == .active).map
      fun route ↦ Row.route route.id) ++ [.plan plan.id, .vehicle vehicleId]
  | .merchant _ merchantId _ _ _ =>
    let routes := plan.routes.filter fun route ↦
      MerchantDelayWorkflow.pickupStops db plan merchantId route != []
    let pickups := routes.flatMap (MerchantDelayWorkflow.pickupStops db plan merchantId)
    [.plan plan.id, .merchant merchantId] ++ pickups.map (Row.stop ·.id) ++
      routes.flatMap fun route ↦ route.stops.map (Row.stop ·.id)

/-- What a report writes in its context. -/
def assess (thresholdSeconds : Int) (db : Database) : Request → Context →
    Except AppError (Option Outcome)
  | .vehicle _ vehicleId eventTime location, .vehicle context => some <$>
      VehicleIncidentWorkflow.assessUnavailable db context vehicleId eventTime location
  | .merchant _ merchantId updatedReadyAt eventTime explicitIncident, .merchant context =>
      MerchantDelayWorkflow.assessDelayed thresholdSeconds db context merchantId updatedReadyAt
        eventTime explicitIncident
  | _, _ => .ok none

end Request

/-! ### Transactions -/

/-- Where a report is. -/
inductive ReportPoint where
  | selecting
  /-- Has selected the current plan and locks its rows one by one. -/
  | locking (planId : UUID) (pending : List Row)
  /-- Has read the memberships with their orders and locks these one by one. -/
  | lockingOrders (context : Context) (pending : List UUID)
  /-- Has flushed its writes. -/
  | assessed (context : Context) (outcome : Option Outcome)

/-- Where `advance_execution` is, `orders.py:94`. -/
inductive AdvancePoint where
  | locking
  | locked (order : Order)
  | flushed
  deriving DecidableEq, Repr

/-- An open transaction with the rows that it holds. -/
inductive ReportTransaction where
  | advance (orderId : UUID) (target : OrderExecutionStatus) (point : AdvancePoint)
      (rows : List Row)
  | report (request : Request) (point : ReportPoint) (rows : List Row)

namespace ReportTransaction

/-- The rows that a transaction holds. -/
def rows : ReportTransaction → List Row
  | .advance _ _ _ rows => rows
  | .report _ _ rows => rows

/-- Two transactions hold one row. -/
def Conflict (a b : ReportTransaction) : Prop := ∃ row ∈ a.rows, row ∈ b.rows

/-- The affected orders that a report has read and not locked yet. -/
def exposed : ReportTransaction → List UUID
  | .report _ (.lockingOrders context pending) _ =>
    (context.affected.map (·.id)).filter (pending.contains ·)
  | _ => []

/-- How a transaction begins. -/
inductive Begins : ReportTransaction → Prop where
  | advance (orderId : UUID) (target : OrderExecutionStatus) :
      Begins (.advance orderId target .locking [])
  | report (request : Request) : Begins (.report request .selecting [])

/-- One statement of a transaction. -/
inductive Statement (thresholdSeconds : Int) (db : Database) :
    ReportTransaction → ReportTransaction → Prop where
  | lockAdvanced {orderId target rows order} (h : db.order? orderId = some order) :
      Statement thresholdSeconds db (.advance orderId target .locking rows)
        (.advance orderId target (.locked order) (.order orderId :: rows))
  | advance {orderId target rows order}
      (h : executionPath[executionPath.idxOf order.executionStatus + 1]? = some target) :
      Statement thresholdSeconds db (.advance orderId target (.locked order) rows)
        (.advance orderId target .flushed rows)
  | select {request rows plan} (h : db.currentPlan? request.businessDate = some plan) :
      Statement thresholdSeconds db (.report request .selecting rows)
        (.report request (.locking plan.id (request.rows db plan)) rows)
  | lockRow {request planId row pending rows} :
      Statement thresholdSeconds db (.report request (.locking planId (row :: pending)) rows)
        (.report request (.locking planId pending) (row :: rows))
  | readMemberships {request planId rows context} (h : request.resolve db = .ok context)
      (hplan : context.plan.id = planId) :
      Statement thresholdSeconds db (.report request (.locking planId []) rows)
        (.report request (.lockingOrders context context.orderIds) rows)
  | lockOrder {request context orderId pending rows} :
      Statement thresholdSeconds db
        (.report request (.lockingOrders context (orderId :: pending)) rows)
        (.report request (.lockingOrders context pending) (.order orderId :: rows))
  | assess {request context rows outcome}
      (h : request.assess thresholdSeconds db context = .ok outcome) :
      Statement thresholdSeconds db (.report request (.lockingOrders context []) rows)
        (.report request (.assessed context outcome) rows)

/-- What a commit makes of the tables. -/
inductive Commits (db : Database) : ReportTransaction → Database → Prop where
  | advance {orderId target rows} :
      Commits db (.advance orderId target .flushed rows)
        (db.updateOrder orderId fun order ↦ { order with executionStatus := target })
  | report {request context outcome rows} :
      Commits db (.report request (.assessed context outcome) rows)
        (outcome.elim db (·.apply db))

end ReportTransaction

/-- Reports and `advance_execution`. -/
def reports (thresholdSeconds : Int) : Protocol Database ReportTransaction where
  begins := ReportTransaction.Begins
  statement := ReportTransaction.Statement thresholdSeconds
  conflict := ReportTransaction.Conflict
  commits := ReportTransaction.Commits

end PenroseRoute.Incidents
