import PenroseRoute.Db.Database

/-!
# Impact of an incident on orders

Models `backend/app/modules/incidents/impact.py` and `scope.py`: which orders of an incident
are frozen, handed over or planned again, and the ladder of replanning scopes.
-/

namespace PenroseRoute.Incidents

open PenroseRoute.Db

/-- The goods are aboard: the statuses that `impact.py:52` and `impact.py:91` test. -/
def aboard (status : OrderExecutionStatus) : Bool :=
  status == .pickedUp || status == .delivering

/-- `assess_vehicle_order`, `impact.py:34`, for the broken route. -/
def assessVehicleOrder (routeId : UUID) (order : Order) : IncidentAffectedOrder :=
  if order.executionStatus = .completed then
    { orderId := order.id, originalVehicleRouteId := some routeId,
      executionStatusSnapshot := order.executionStatus, riskStatusSnapshot := order.riskStatus,
      wasPickedUp := true, wasCompleted := true, requiresReplanning := false,
      handoverRequired := false, impactType := .completedFrozen }
  else if aboard order.executionStatus then
    { orderId := order.id, originalVehicleRouteId := some routeId,
      executionStatusSnapshot := order.executionStatus, riskStatusSnapshot := order.riskStatus,
      wasPickedUp := true, wasCompleted := false, requiresReplanning := true,
      handoverRequired := true, impactType := .handoverRequired }
  else
    { orderId := order.id, originalVehicleRouteId := some routeId,
      executionStatusSnapshot := order.executionStatus, riskStatusSnapshot := order.riskStatus,
      wasPickedUp := false, wasCompleted := false, requiresReplanning := true,
      handoverRequired := false, impactType := .pickupReplan }

/-- `assess_merchant_order`, `impact.py:82`: only orders not yet picked up are affected. -/
def assessMerchantOrder (routeId : UUID) (order : Order) (isDirect requiresReplanning : Bool) :
    Option IncidentAffectedOrder :=
  if aboard order.executionStatus || order.executionStatus == .completed then none
  else some
    { orderId := order.id, originalVehicleRouteId := some routeId,
      executionStatusSnapshot := order.executionStatus, riskStatusSnapshot := order.riskStatus,
      wasPickedUp := false, wasCompleted := false, requiresReplanning,
      handoverRequired := false,
      impactType := if isDirect then .waitingTimeUpdate else .downstreamRouteImpact }

/-- An assessed order keeps its id, its route and the facts at the time of the report. -/
theorem assessVehicleOrder_facts (routeId : UUID) (order : Order) :
    (assessVehicleOrder routeId order).orderId = order.id ∧
      (assessVehicleOrder routeId order).originalVehicleRouteId = some routeId ∧
      (assessVehicleOrder routeId order).executionStatusSnapshot = order.executionStatus := by
  simp only [assessVehicleOrder]
  split
  · exact ⟨rfl, rfl, rfl⟩
  · split <;> exact ⟨rfl, rfl, rfl⟩

/-- A handover is asked for exactly when the goods are aboard. -/
theorem assessVehicleOrder_handoverRequired (routeId : UUID) (order : Order) :
    (assessVehicleOrder routeId order).handoverRequired = aboard order.executionStatus := by
  cases h : order.executionStatus <;> simp [assessVehicleOrder, aboard, h]

/-- Everything but completed work is planned again. -/
theorem assessVehicleOrder_requiresReplanning (routeId : UUID) (order : Order) :
    (assessVehicleOrder routeId order).requiresReplanning =
      (order.executionStatus != .completed) := by
  cases h : order.executionStatus <;> simp [assessVehicleOrder, aboard, h]

/-! ### Scopes -/

/-- `initial_vehicle_unavailable_scope`, `scope.py:19`. -/
def initialVehicleUnavailableScope : ReplanningScope := .affectedRoute

/-- `initial_merchant_delay_scope`, `scope.py:23`. -/
def initialMerchantDelayScope : ReplanningScope := .affectedRoute

/-- `next_replanning_scope`, `scope.py:27`. -/
def nextReplanningScope : ReplanningScope → Option ReplanningScope
  | .affectedRoute => some .crossRoute
  | .crossRoute => some .allRemaining
  | .allRemaining => none

end PenroseRoute.Incidents
