import PenroseRoute.Db.Database

/-!
# Plan comparison

Models the part of `compare_plan_snapshots` of `backend/app/modules/planning/comparison.py`
that ranks recovery options: which orders of two plans change their vehicle or any of their
stops.
-/

namespace PenroseRoute.Planning

open PenroseRoute.Db PenroseRoute.Lib

/-- `_action_key`, `comparison.py:128`. -/
structure ActionKey where
  orderId : UUID
  stopType : StopType
  sourceIncidentId : Option UUID
  deriving DecidableEq, Repr

/-- `_action_key`, `comparison.py:128`. -/
def actionKey (stop : RouteStop) : ActionKey where
  orderId := stop.orderId
  stopType := stop.stopType
  sourceIncidentId := if stop.stopType = .handover then stop.sourceIncidentId else none

/-- The actions of a plan: its stops and their vehicles by key. -/
abbrev Actions := List (ActionKey × RouteStop × UUID)

/-- `_plan_actions`, `comparison.py:133`. -/
def planActions (plan : DeliveryPlan) : Except AppError Actions := do
  let actions := plan.routes.flatMap fun route ↦
    route.stops.map fun stop ↦ (actionKey stop, stop, route.vehicleId)
  raiseFirst [(!decide (actions.map (·.1)).Nodup, .business "PLAN_COMPARISON_INVALID")]
  return actions

/-- `_predecessor`, `comparison.py:145`. -/
def predecessor (stop : RouteStop) (actions : Actions) : Option (ActionKey × UUID) :=
  (actions.find? fun (_, prior, _) ↦ some prior.id == stop.precedenceStopId).map
    fun (_, prior, _) ↦ (actionKey prior, prior.locationId)

/-- What `_stop_signature` returns: the facts of a completed stop, or the plan of an open
one. -/
inductive StopSignature where
  | completed (vehicleId locationId : UUID) (actualArrivalAt actualDepartureAt : Option Instant)
      (before : Option (ActionKey × UUID))
  | planned (vehicleId : UUID) (sequenceNo : Nat) (locationId : UUID)
      (plannedArrivalAt plannedDepartureAt : Instant) (status : StopStatus)
      (actualArrivalAt actualDepartureAt : Option Instant) (before : Option (ActionKey × UUID))
  deriving DecidableEq, Repr

/-- `_stop_signature`, `comparison.py:162`. -/
def stopSignature (stop : RouteStop) (vehicleId : UUID) (actions : Actions) : StopSignature :=
  if stop.status = .completed then
    .completed vehicleId stop.locationId stop.actualArrivalAt stop.actualDepartureAt
      (predecessor stop actions)
  else
    .planned vehicleId stop.sequenceNo stop.locationId stop.plannedArrivalAt
      stop.plannedDepartureAt stop.status stop.actualArrivalAt stop.actualDepartureAt
      (predecessor stop actions)

/-- The signature under a key. -/
def signature? (actions : Actions) (key : ActionKey) : Option StopSignature :=
  (actions.find? (·.1 == key)).map fun (_, stop, vehicleId) ↦ stopSignature stop vehicleId actions

/-- The `changed_stop_orders`, `comparison.py:229`. -/
def changedStopOrders (base candidate : Actions) : List UUID :=
  (((base ++ candidate).map (·.1)).filter fun key ↦
    signature? base key != signature? candidate key).map (·.orderId)

/-- The vehicle of an order in a plan, `comparison.py:235`. -/
def memberVehicle? (plan : DeliveryPlan) (orderId : UUID) : Option UUID :=
  (((plan.planOrders.find? (·.orderId == orderId)).bind (·.vehicleRouteId)).bind fun routeId ↦
    plan.routes.find? (·.id == routeId)).map (·.vehicleId)

/-- The counts of a `PlanComparisonView` that rank options. -/
structure PlanComparison where
  reassignedOrderCount : Nat
  changedOrderCount : Nat
  deriving DecidableEq, Repr

/-- `compare_plan_snapshots`, `comparison.py:185`. -/
def comparePlanSnapshots (base candidate : DeliveryPlan) : Except AppError PlanComparison := do
  let baseActions ← planActions base
  let candidateActions ← planActions candidate
  let changed := changedStopOrders baseActions candidateActions
  let members := ((base.planOrders ++ candidate.planOrders).map (·.orderId)).eraseDups
  return {
    reassignedOrderCount := (members.filter fun orderId ↦
      match memberVehicle? base orderId, memberVehicle? candidate orderId with
      | some before, some after => before != after
      | _, _ => false).length
    changedOrderCount := (members.filter changed.contains).length }

end PenroseRoute.Planning
