import PenroseRoute.Operations.Alerts

/-!
# Live views of a plan

Models the order and route views of `OperationsQueryService` in
`backend/app/modules/operations/queries.py`: the arrivals and the risk of the orders of a plan and
the progress of its routes at a time, computed from the rows and not from the stored risk flags.
-/

namespace PenroseRoute.Operations

open PenroseRoute.Db PenroseRoute.Lib

/-- `OperationOrderView`, `queries.py:94`, without the name of the merchant. -/
structure OperationOrderView where
  orderId : UUID
  orderCode : String
  merchantId : UUID
  assignmentStatus : PlanOrderAssignmentStatus
  vehicleRouteId : Option UUID
  vehicleId : Option UUID
  driverId : Option UUID
  executionStatus : OrderExecutionStatus
  riskStatus : OrderRiskStatus
  pickupEta : Option Instant
  deliveryEta : Option Instant
  deriving DecidableEq, Repr

/-- `OperationRouteView`, `queries.py:123`. -/
structure OperationRouteView where
  routeId : UUID
  routeNo : Nat
  vehicleId : UUID
  driverId : UUID
  status : RouteStatus
  completedStops : Nat
  totalStops : Nat
  currentStopId : Option UUID
  currentStopType : Option StopType
  nextStopId : Option UUID
  nextStopType : Option StopType
  nextStopEta : Option Instant
  etaDeviationSeconds : Int
  atRiskOrders : Nat
  deriving DecidableEq, Repr

namespace OperationsQueryService

open RiskService

/-! ### Orders -/

/-- The variables `pickup_eta`, `delivery_eta` and `risk_status` of `_order_views`. -/
structure OrderEta where
  pickupEta : Option Instant
  deliveryEta : Option Instant
  riskStatus : OrderRiskStatus
  deriving DecidableEq, Repr

/-- One pass of the loop over the stops of a route, `queries.py:370`. -/
def visitStop (thresholdSeconds delaySeconds : Int) (order : Order) (seen : OrderEta)
    (stop : RouteStop) : OrderEta :=
  if stop.orderId != order.id then seen
  else
    let eta := stop.plannedArrivalAt + timedelta delaySeconds
    match stop.stopType with
    | .pickup => { seen with pickupEta := some eta }
    | .delivery => { seen with
      deliveryEta := some eta
      riskStatus :=
        if order.executionStatus == .completed then .normal
        else statusForEta thresholdSeconds eta
          (stop.timeWindowEndAt.getD order.deliveryWindowEndAt) }
    | .handover => seen

/-- The view of one membership and its order, `queries.py:355`. -/
def orderView (thresholdSeconds : Int) (plan : DeliveryPlan) (now : Instant)
    (item : DeliveryPlanOrder × Order) : OperationOrderView :=
  let (membership, order) := item
  let route :=
    if membership.assignmentStatus == .assigned then
      membership.vehicleRouteId.bind (lastWrite (AlertService.routes plan))
    else none
  let eta := (route.elim [] (·.stops)).foldl
    (visitStop thresholdSeconds (route.elim 0 fun route ↦ routeDelaySeconds route.stops now) order)
    ⟨none, none, order.riskStatus⟩
  { orderId := order.id
    orderCode := order.orderCode
    merchantId := order.merchantId
    assignmentStatus := membership.assignmentStatus
    vehicleRouteId := route.map (·.id)
    vehicleId := route.map (·.vehicleId)
    driverId := route.map (·.driverId)
    executionStatus := order.executionStatus
    riskStatus := eta.riskStatus
    pickupEta := eta.pickupEta
    deliveryEta := eta.deliveryEta }

/-- The memberships of a plan with their orders, which a foreign key keeps there, by order code. -/
def sortedOrders (db : Database) (plan : DeliveryPlan) : List (DeliveryPlanOrder × Order) :=
  (plan.planOrders.filterMap fun membership ↦
    (db.order? membership.orderId).map fun order ↦ (membership, order)).insertionSort
      fun a b ↦ a.2.orderCode ≤ b.2.orderCode

/-- `_order_views`, `queries.py:349`. -/
def orderViews (thresholdSeconds : Int) (db : Database) (plan : DeliveryPlan) (now : Instant) :
    List OperationOrderView :=
  (sortedOrders db plan).map (orderView thresholdSeconds plan now)

/-! ### Routes -/

/-- The `at_risk_orders` of a route, `queries.py:425`. -/
def atRiskOrders (thresholdSeconds : Int) (db : Database) (route : VehicleRoute) (now : Instant) :
    List UUID :=
  ((route.stops.filter fun stop ↦ stop.stopType == .delivery && stop.status != .completed &&
    (db.order? stop.orderId).any fun order ↦ statusForEta thresholdSeconds
      (stop.plannedArrivalAt + timedelta (routeDelaySeconds route.stops now))
      (stop.timeWindowEndAt.getD order.deliveryWindowEndAt) == .atRisk).map (·.orderId)).dedup

/-- `_route_view`, `queries.py:405`. -/
def routeView (thresholdSeconds : Int) (db : Database) (route : VehicleRoute) (now : Instant) :
    OperationRouteView :=
  let currentStop := route.stops.find? fun stop ↦
    stop.status == .arrived || stop.status == .inService
  let nextStop := route.stops.find? (·.status == .planned)
  let delay := routeDelaySeconds route.stops now
  { routeId := route.id
    routeNo := route.routeNo
    vehicleId := route.vehicleId
    driverId := route.driverId
    status := route.status
    completedStops := route.stops.countP (·.status == .completed)
    totalStops := route.stops.length
    currentStopId := currentStop.map (·.id)
    currentStopType := currentStop.map (·.stopType)
    nextStopId := nextStop.map (·.id)
    nextStopType := nextStop.map (·.stopType)
    nextStopEta := nextStop.map fun stop ↦ stop.plannedArrivalAt + timedelta delay
    etaDeviationSeconds := delay
    atRiskOrders := (atRiskOrders thresholdSeconds db route now).length }

end OperationsQueryService

end PenroseRoute.Operations
