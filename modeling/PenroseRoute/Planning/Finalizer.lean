import PenroseRoute.Planning.Validator
import PenroseRoute.Recovery.Candidate

/-!
# The plan of a solver result

Models `backend/app/modules/planning/finalizer.py`: a validated result becomes a plan with its
routes, stops and memberships. Rows made by `uuid4` take the next unused numbers in the order in
which they are made.
-/

namespace PenroseRoute.Planning

open PenroseRoute.Db PenroseRoute.Lib PenroseRoute.Operations PenroseRoute.Optimization
open PenroseRoute.Recovery

/-- `orders[order_id]`, `finalizer.py:73`. -/
def PlanningFacts.order? (facts : PlanningFacts) (orderId : UUID) : Option PlanningOrderFact :=
  lastWrite (facts.orders.map fun order ↦ (order.orderId, order)) orderId

/-- `pairs[vehicle_id]`, `finalizer.py:74`. -/
def PlanningFacts.pair? (facts : PlanningFacts) (vehicleId : UUID) :
    Option VehicleDriverPairFact :=
  lastWrite (facts.vehicleDriverPairs.map fun pair ↦ (pair.vehicleId, pair)) vehicleId

/-- `get_latest_plan_for_business_date`, `plan_repository.py:339`. -/
def latestPlan? (db : Database) (businessDate : BusinessDate) : Option DeliveryPlan :=
  ((db.plans.filter (·.businessDate == businessDate)).insertionSort
    fun a b ↦ b.versionNo ≤ a.versionNo).head?

/-! ### Stops -/

/-- The `RouteStop` of a solver stop, `finalizer.py:112`. -/
def finalizedStop (facts : PlanningFacts) (order : PlanningOrderFact) (solverStop : SolverStop)
    (id : UUID) (precedence : Option UUID) : RouteStop where
  id := id
  orderId := solverStop.orderId
  locationId := solverStop.locationId
  stopType := solverStop.stopType
  sequenceNo := solverStop.sequenceNo
  precedenceStopId := precedence
  sourceIncidentId := none
  plannedArrivalAt := facts.currentTime + timedelta solverStop.arrivalTimeSeconds
  plannedDepartureAt := facts.currentTime + timedelta solverStop.departureTimeSeconds
  actualArrivalAt := none
  actualDepartureAt := none
  serviceSeconds := solverStop.serviceDurationSeconds
  timeWindowStartAt :=
    if solverStop.stopType = .delivery then some order.deliveryWindowStartAt
    else some order.pickupReadyAt
  timeWindowEndAt :=
    if solverStop.stopType = .delivery then some order.deliveryWindowEndAt else none
  demandLoadUnitsSnapshot := order.demandLoadUnits
  status := .planned

/-- The stops of one route, `finalizer.py:108`; `originStopIds` are the writes to its
dictionary. -/
def finalizeStops (facts : PlanningFacts) : (nextId : Nat) →
    (originStopIds : List (UUID × UUID)) → List SolverStop → Except AppError (List RouteStop)
  | _, _, [] => .ok []
  | nextId, originStopIds, solverStop :: rest => do
    let order ← orRaise (facts.order? solverStop.orderId) (.uncaught "KeyError")
    if solverStop.stopType = .delivery then
      let origin ← orRaise (lastWrite originStopIds solverStop.orderId) (.uncaught "KeyError")
      let stops ← finalizeStops facts (nextId + 1) originStopIds rest
      return finalizedStop facts order solverStop nextId (some origin) :: stops
    else
      let stops ← finalizeStops facts (nextId + 1)
        (originStopIds ++ [(solverStop.orderId, nextId)]) rest
      return finalizedStop facts order solverStop nextId none :: stops

/-! ### Routes -/

/-- `road_routes[vehicle_id] if road_routes is not None else None`, `finalizer.py:78`. -/
def finalizedRoad (roads : RoadRoutes) (vehicleId : UUID) : Except AppError (Option RoadRoute) :=
  match roads with
  | none => .ok none
  | some roads => do
    let road ← orRaise (lastWrite roads vehicleId) (.uncaught "KeyError")
    return some road

/-- The `route_metrics`, `finalizer.py:98`; its `stop_count` is not read again, and a
`preserved_stop_count` is not written. -/
def finalizedMetrics (road : Option RoadRoute) : RouteMetrics where
  preservedStopCount := 0
  geometryProvider := road.map fun _ ↦ "OSRM"
  roadLegEndIndices := road.map (·.legEndIndices)

/-- The `VehicleRoute` of a solver route, `finalizer.py:80`, less its stops. -/
def finalizedRoute (facts : PlanningFacts) (pair : VehicleDriverPairFact)
    (road : Option RoadRoute) (solverRoute : SolverRoute) (last : SolverStop)
    (id routeNo : Nat) : VehicleRoute where
  id := id
  routeNo := routeNo
  vehicleId := pair.vehicleId
  driverId := pair.driverId
  assignmentId := pair.assignmentId
  startLocationId := pair.startLocationId
  endLocationId := last.locationId
  status := .planned
  plannedStartAt := facts.currentTime +
    timedelta (max 0 (totalSeconds (pair.assignedFromAt - facts.currentTime)))
  plannedEndAt := facts.currentTime + timedelta last.departureTimeSeconds
  actualStartAt := none
  actualEndAt := none
  distanceMeters := (road.map (·.distanceMeters)).getD solverRoute.distanceMeters
  durationSeconds := solverRoute.durationSeconds
  capacityLoadUnits := pair.capacityLoadUnits
  routeGeometry := road.map (·.geometry)
  routeMetrics := some (finalizedMetrics road)
  stops := []

/-- One pass of the loop over the routes, `finalizer.py:76`. -/
def finalizeRoute (facts : PlanningFacts) (roads : RoadRoutes) (id routeNo : Nat)
    (solverRoute : SolverRoute) : Except AppError VehicleRoute := do
  let pair ← orRaise (facts.pair? solverRoute.vehicleId) (.uncaught "KeyError")
  let road ← finalizedRoad roads solverRoute.vehicleId
  let last ← orRaise solverRoute.stops.getLast? (.uncaught "IndexError")
  let stops ← finalizeStops facts (id + 1) [] solverRoute.stops
  return { finalizedRoute facts pair road solverRoute last id routeNo with stops := stops }

/-- The routes one after the other, numbered from `routeNo + 1`. -/
def finalizeRoutes (facts : PlanningFacts) (roads : RoadRoutes) :
    (nextId routeNo : Nat) → List SolverRoute → Except AppError (List VehicleRoute)
  | _, _, [] => .ok []
  | nextId, routeNo, solverRoute :: rest => do
    let route ← finalizeRoute facts roads nextId (routeNo + 1) solverRoute
    let routes ← finalizeRoutes facts roads (nextId + 1 + route.stops.length) (routeNo + 1) rest
    return route :: routes

/-! ### Memberships and the plan -/

/-- The membership of one order, `finalizer.py:148`; every stop has written its route for its
order. -/
def finalizedMembership (routes : List VehicleRoute) (result : SolverResult)
    (order : PlanningOrderFact) : Except AppError DeliveryPlanOrder :=
  match lastWrite (routeByOrderWrites routes) order.orderId with
  | some routeId => .ok {
      orderId := order.orderId
      assignmentStatus := .assigned
      vehicleRouteId := some routeId
      unassignedReasonCode := none
      unassignedReasonDetail := none }
  | none => do
    let reason ← orRaise (unassignedOrder? result order.orderId) (.uncaught "KeyError")
    return {
      orderId := order.orderId
      assignmentStatus := .unassigned
      vehicleRouteId := none
      unassignedReasonCode := some reason.reasonCode
      unassignedReasonDetail := reason.reasonDetail }

/-- `set(road_routes) == {route.vehicle_id for route in result.routes}`, `finalizer.py:39`. -/
def coversRoutes (roads : List (UUID × RoadRoute)) (result : SolverResult) : Bool :=
  let vehicleIds := result.routes.map (·.vehicleId)
  roads.all (fun entry ↦ vehicleIds.contains entry.1) &&
    vehicleIds.all fun vehicleId ↦ roads.any (·.1 == vehicleId)

/-- `PlanFinalizer.finalize`, `finalizer.py:29`: the rows that it adds and flushes. -/
def finalize (db : Database) (facts : PlanningFacts) (result : SolverResult)
    (activatedAt : Option Instant) (roads : RoadRoutes) : Except AppError DeliveryPlan := do
  raiseFirst [
    (result.status != .feasible, .uncaught "ValueError"),
    (roads.any fun roads ↦ !coversRoutes roads result, .uncaught "ValueError")]
  let previous := latestPlan? db facts.businessDate
  let firstRow := if previous.isSome then db.nextId + 1 else db.nextId + 2
  let routes ← finalizeRoutes facts roads firstRow 0 result.routes
  let planOrders ← facts.orders.mapM (finalizedMembership routes result)
  return {
    id := db.nextId
    planGroupId := previous.elim (db.nextId + 1) (·.planGroupId)
    businessDate := facts.businessDate
    versionNo := previous.elim 1 (·.versionNo + 1)
    parentPlanId := previous.map (·.id)
    status := if activatedAt.isSome then .current else .draft
    validationStatus := .valid
    totalDistanceMeters := roads.elim result.totalDistanceMeters fun roads ↦
      ((dictEntries roads).map (·.2.distanceMeters)).sum
    totalDurationSeconds := result.totalDurationSeconds
    vehicleCount := result.routes.length
    assignedOrderCount := facts.orders.length - result.unassignedOrders.length
    unassignedOrderCount := result.unassignedOrders.length
    planningFactsSha256 := none
    routes := routes
    planOrders := planOrders }

end PenroseRoute.Planning
