import Mathlib.Data.List.Sort
import PenroseRoute.Db.Models
import PenroseRoute.Lib.Checks
import PenroseRoute.Lib.Keyed
import PenroseRoute.Lib.Table

/-!
# The database

Tables, the lookups of the repositories and the constraints that can refuse a write. A
transaction is a function from a database to a result and a new database, or an error; an
error rolls everything back. Identifiers made by `uuid4` or `gen_random_uuid` are the next
unused number.
-/

namespace PenroseRoute.Db

open Lib

/-- What a transaction can raise: the application errors of `core/errors.py` with their
code, a constraint that the database refuses, and any other exception. -/
inductive AppError where
  | notFound (code : String)
  | conflict (code : String)
  | business (code : String)
  | integration (code : String)
  | integrity (constraint : String)
  | uncaught (exception : String)
  deriving DecidableEq, Repr

/-- The tables. -/
structure Database where
  orders : List Order
  vehicles : List Vehicle
  drivers : List Driver
  assignments : List VehicleDriverAssignment
  merchants : List UUID
  plans : List DeliveryPlan
  incidents : List Incident
  recoveryPlans : List RecoveryPlan
  nextId : UUID
  deriving DecidableEq, Repr

/-- Raise when a row is missing. -/
def orRaise {α : Type} (row : Option α) (error : AppError) : Except AppError α :=
  match row with
  | some a => .ok a
  | none => .error error

/-- It succeeds with the row that was found. -/
@[simp] theorem orRaise_eq_ok {α : Type} (row : Option α) (error : AppError) (a : α) :
    orRaise row error = .ok a ↔ row = some a := by
  cases row <;> simp [orRaise]

/-- Rewrite one stop of a route. -/
def VehicleRoute.updateStop (route : VehicleRoute) (id : UUID) (f : RouteStop → RouteStop) :
    VehicleRoute :=
  { route with stops := updateWhere route.stops (·.id == id) f }

/-- Rewrite one route of a plan. -/
def DeliveryPlan.updateRoute (plan : DeliveryPlan) (id : UUID)
    (f : VehicleRoute → VehicleRoute) : DeliveryPlan :=
  { plan with routes := updateWhere plan.routes (·.id == id) f }

namespace Database

/-- `lock_order_by_id`. -/
def order? (db : Database) (id : UUID) : Option Order := db.orders.find? (·.id == id)

/-- `lock_vehicle_by_id`. -/
def vehicle? (db : Database) (id : UUID) : Option Vehicle := db.vehicles.find? (·.id == id)

/-- `lock_driver_by_id`. -/
def driver? (db : Database) (id : UUID) : Option Driver := db.drivers.find? (·.id == id)

/-- `lock_assignment_by_id`. -/
def assignment? (db : Database) (id : UUID) : Option VehicleDriverAssignment :=
  db.assignments.find? (·.id == id)

/-- `lock_plan_by_id` and `get_plan_with_routes`. -/
def plan? (db : Database) (id : UUID) : Option DeliveryPlan := db.plans.find? (·.id == id)

/-- `lock_incident_by_id`. -/
def incident? (db : Database) (id : UUID) : Option Incident := db.incidents.find? (·.id == id)

/-- `lock_recovery_plan_for_decision`. -/
def recoveryPlan? (db : Database) (id : UUID) : Option RecoveryPlan :=
  db.recoveryPlans.find? (·.id == id)

/-- `get_current_plan`, `plan_repository.py:32`. -/
def currentPlan? (db : Database) (businessDate : BusinessDate) : Option DeliveryPlan :=
  db.plans.find? fun plan ↦ plan.businessDate == businessDate && plan.status == .current

/-- `get_recovery_attempts`, `recovery_repository.py:13`, by attempt number. -/
def attempts (db : Database) (incidentId : UUID) : List RecoveryPlan :=
  (db.recoveryPlans.filter (·.incidentId == incidentId)).insertionSort
    fun a b ↦ a.attemptNo ≤ b.attemptNo

/-- A stop with its route and its plan: `lock_route_stop_by_id`, `lock_route_by_id` and
`lock_plan_by_id`, one after the other. -/
def lockedStop? (db : Database) (stopId : UUID) :
    Option (DeliveryPlan × VehicleRoute × RouteStop) :=
  db.plans.findSome? fun plan ↦ plan.routes.findSome? fun route ↦
    (route.stops.find? (·.id == stopId)).map fun stop ↦ (plan, route, stop)

/-- Rewrite one plan. -/
def updatePlan (db : Database) (id : UUID) (f : DeliveryPlan → DeliveryPlan) : Database :=
  { db with plans := updateWhere db.plans (·.id == id) f }

/-- Rewrite one order. -/
def updateOrder (db : Database) (id : UUID) (f : Order → Order) : Database :=
  { db with orders := updateWhere db.orders (·.id == id) f }

/-- Rewrite one vehicle. -/
def updateVehicle (db : Database) (id : UUID) (f : Vehicle → Vehicle) : Database :=
  { db with vehicles := updateWhere db.vehicles (·.id == id) f }

/-- Rewrite one driver. -/
def updateDriver (db : Database) (id : UUID) (f : Driver → Driver) : Database :=
  { db with drivers := updateWhere db.drivers (·.id == id) f }

/-- Rewrite one assignment. -/
def updateAssignment (db : Database) (id : UUID)
    (f : VehicleDriverAssignment → VehicleDriverAssignment) : Database :=
  { db with assignments := updateWhere db.assignments (·.id == id) f }

/-- Rewrite one incident. -/
def updateIncident (db : Database) (id : UUID) (f : Incident → Incident) : Database :=
  { db with incidents := updateWhere db.incidents (·.id == id) f }

/-- Rewrite one recovery attempt. -/
def updateRecoveryPlan (db : Database) (id : UUID) (f : RecoveryPlan → RecoveryPlan) : Database :=
  { db with recoveryPlans := updateWhere db.recoveryPlans (·.id == id) f }

end Database

/-! ### Plan constraints -/

/-- The stop with an id in a plan, with its route. -/
def DeliveryPlan.stop? (plan : DeliveryPlan) (id : UUID) : Option RouteStop :=
  (plan.routes.flatMap (·.stops)).find? (·.id == id)

/-- The column checks of `route_stops`, `planning.py:261`. -/
def RouteStop.checks (stop : RouteStop) : Bool :=
  0 < stop.sequenceNo && 0 < stop.demandLoadUnitsSnapshot &&
    stop.plannedArrivalAt ≤ stop.plannedDepartureAt &&
    (stop.stopType == .delivery) == stop.precedenceStopId.isSome &&
    (stop.stopType == .handover) == stop.sourceIncidentId.isSome &&
    (match stop.timeWindowEndAt, stop.timeWindowStartAt with
      | none, _ => true
      | some _, none => false
      | some finish, some start => start ≤ finish)

/-- The trigger `validate_route_stop_relationships`, `create_datatable.sql:130`. -/
def RouteStop.relationshipsValid (db : Database) (plan : DeliveryPlan) (stop : RouteStop) :
    Bool :=
  (stop.stopType != .delivery ||
    (stop.precedenceStopId.bind plan.stop?).any fun preceding ↦
      preceding.orderId == stop.orderId && preceding.stopType != .delivery &&
        preceding.sequenceNo < stop.sequenceNo) &&
  match stop.stopType with
  | .pickup => (db.order? stop.orderId).any (·.pickupLocationId == stop.locationId)
  | .delivery => (db.order? stop.orderId).any (·.deliveryLocationId == stop.locationId)
  | .handover => ((stop.sourceIncidentId.bind db.incident?).bind (·.incidentLocationId)) ==
      some stop.locationId

/-- The column checks of `vehicle_routes` and `uq_route_stops_route_order_type`,
`planning.py:155`. -/
def VehicleRoute.checks (route : VehicleRoute) : Bool :=
  0 < route.routeNo && route.plannedStartAt ≤ route.plannedEndAt && 0 ≤ route.durationSeconds &&
    0 < route.capacityLoadUnits &&
    decide (route.stops.map fun stop ↦ (stop.orderId, stop.stopType)).Nodup &&
    decide (route.stops.map (·.sequenceNo)).Nodup && route.stops.all (·.checks)

/-- The constraints that inserting a plan with its routes and stops has to meet; those of its
memberships are `DeliveryPlanOrder.checks`. -/
def DeliveryPlan.constraintsHold (db : Database) (plan : DeliveryPlan) : Bool :=
  plan.routes.all (·.checks) &&
    decide (plan.routes.map (·.vehicleId)).Nodup &&
    decide (plan.routes.map (·.assignmentId)).Nodup &&
    decide (plan.planOrders.map (·.orderId)).Nodup &&
    plan.routes.all fun route ↦ route.stops.all (·.relationshipsValid db plan)

end PenroseRoute.Db
