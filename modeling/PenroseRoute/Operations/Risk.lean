import PenroseRoute.Db.Alerts
import PenroseRoute.Db.Database

/-!
# Delivery-window risk

Models `RiskService` of `backend/app/modules/operations/risk.py`: when an estimated arrival
counts as at risk, and the risk flags of the orders on one route.
-/

namespace PenroseRoute.Operations

open PenroseRoute.Db PenroseRoute.Lib

/-- `timedelta(seconds=n)`, in the resolution of `Instant`. -/
def timedelta (seconds : Int) : Int := seconds * 1000000

/-- `int(delta.total_seconds())`: truncated towards zero. -/
def totalSeconds (delta : Int) : Int := delta.tdiv 1000000

namespace RiskService

/-- `status_for_eta`, `risk.py:15`. -/
def statusForEta (thresholdSeconds : Int) (estimatedArrivalAt deliveryWindowEndAt : Instant) :
    OrderRiskStatus :=
  if estimatedArrivalAt ≥ deliveryWindowEndAt - timedelta thresholdSeconds then .atRisk
  else .normal

/-- `reason_for_eta`, `risk.py:30`. -/
def reasonForEta (thresholdSeconds : Int) (estimatedArrivalAt deliveryWindowEndAt : Instant) :
    ReasonCategory :=
  if statusForEta thresholdSeconds estimatedArrivalAt deliveryWindowEndAt == .normal then .normal
  else if estimatedArrivalAt ≥ deliveryWindowEndAt then .predictedMiss
  else .approachingWindow

/-- `route_delay_seconds`, `risk.py:45`. -/
def routeDelaySeconds (stops : List RouteStop) (currentTime : Instant) : Int :=
  match stops.find? (·.status != .completed) with
  | none => 0
  | some nextStop => max 0 (totalSeconds (currentTime - nextStop.plannedArrivalAt))

/-- The body of the loop of `recalculate_route`, `risk.py:62`, for the order of one stop. -/
def recalculateOrder (thresholdSeconds delaySeconds : Int) (stop : RouteStop) (order : Order) :
    Order :=
  if stop.stopType != .delivery then order
  else if stop.status == .completed then { order with riskStatus := .normal }
  else { order with
    riskStatus := statusForEta thresholdSeconds (stop.plannedArrivalAt + timedelta delaySeconds)
      (stop.timeWindowEndAt.getD order.deliveryWindowEndAt) }

/-- `recalculate_route`, `risk.py:59`, on the table of orders. -/
def recalculateRoute (thresholdSeconds : Int) (stops : List RouteStop) (currentTime : Instant)
    (orders : List Order) : List Order :=
  stops.foldl (fun orders stop ↦ updateWhere orders (·.id == stop.orderId)
    (recalculateOrder thresholdSeconds (routeDelaySeconds stops currentTime) stop)) orders

end RiskService

end PenroseRoute.Operations
