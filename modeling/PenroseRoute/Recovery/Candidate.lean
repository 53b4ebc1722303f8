import PenroseRoute.Lib.Dict
import PenroseRoute.Recovery.Orchestration

/-!
# Candidate plans

Models the candidate half of `backend/app/modules/recovery/deterministic_workflow.py`: which
stops of the base plan are kept, how kept and solved stops become the routes of the
candidate, and which route each order then belongs to. Rows made by `uuid4` take the next
unused numbers in the order in which they are made.
-/

namespace PenroseRoute.Recovery

open PenroseRoute.Db PenroseRoute.Lib PenroseRoute.Operations PenroseRoute.Optimization

/-- The `target_ids` of a context, `deterministic_workflow.py:659`. -/
def RecoveryContext.targetOrderIds (context : RecoveryContext) : List UUID :=
  context.targetOrders.map (·.orderId)

/-- The `rebuilt_route_ids` of a context, `deterministic_workflow.py:660`. -/
def RecoveryContext.rebuiltRouteIds (context : RecoveryContext) : List UUID :=
  context.targetOrders.filterMap (·.originalRouteId)

/-- `orders[order_id]`, `deterministic_workflow.py:844`. -/
def RecoveryContext.targetOrder? (context : RecoveryContext) (orderId : UUID) :
    Option RecoveryOrderFact :=
  context.targetOrders.find? (·.orderId == orderId)

/-- `vehicle_facts[vehicle_id]`, `deterministic_workflow.py:665`. -/
def RecoveryContext.vehicleFact? (context : RecoveryContext) (vehicleId : UUID) :
    Option RecoveryVehicleFact :=
  lastWrite (context.vehicles.map fun vehicle ↦ (vehicle.vehicleId, vehicle)) vehicleId

/-- `_preserved_stops`, `deterministic_workflow.py:60`. -/
def preservedStops (context : RecoveryContext) (baseRoute : VehicleRoute) : List RouteStop :=
  if context.rebuiltRouteIds.contains baseRoute.id then
    baseRoute.stops.filter fun stop ↦
      !context.targetOrderIds.contains stop.orderId || stop.status == .completed
  else baseRoute.stops

/-! ### Stops -/

/-- The preserved half of `_persist_stops`, `deterministic_workflow.py:811`: stops are copied
in order, and a precedence follows its copy. -/
def copyPreserved : (nextId sequence : Nat) → (copiedIds : List (UUID × UUID)) →
    List RouteStop → List RouteStop
  | _, _, _, [] => []
  | nextId, sequence, copiedIds, snapshot :: rest =>
    { snapshot with
      id := nextId
      sequenceNo := sequence + 1
      precedenceStopId := snapshot.precedenceStopId.bind (lastWrite copiedIds) } ::
      copyPreserved (nextId + 1) (sequence + 1) (copiedIds ++ [(snapshot.id, nextId)]) rest

/-- One new stop, `deterministic_workflow.py:848`. -/
def newStop (context : RecoveryContext) (order : RecoveryOrderFact) (solverStop : SolverStop)
    (id sequence : Nat) (precedence : Option UUID) : RouteStop where
  id := id
  orderId := solverStop.orderId
  locationId := solverStop.locationId
  stopType := solverStop.stopType
  sequenceNo := sequence
  precedenceStopId := precedence
  sourceIncidentId := if solverStop.stopType = .handover then some context.incidentId else none
  plannedArrivalAt := context.currentTime + timedelta solverStop.arrivalTimeSeconds
  plannedDepartureAt := context.currentTime + timedelta solverStop.departureTimeSeconds
  actualArrivalAt := none
  actualDepartureAt := none
  serviceSeconds := solverStop.serviceDurationSeconds
  timeWindowStartAt :=
    match solverStop.stopType with
    | .delivery => some order.deliveryWindowStartAt
    | .handover => some context.currentTime
    | .pickup => some order.pickupReadyAt
  timeWindowEndAt :=
    if solverStop.stopType = .delivery then some order.deliveryWindowEndAt else none
  demandLoadUnitsSnapshot := order.demandLoadUnits
  status := .planned

/-- The solver half of `_persist_stops`, `deterministic_workflow.py:843`; `originIds` is the
dictionary of `origin_ids`. -/
def appendSolved (context : RecoveryContext) : (nextId sequence : Nat) →
    (originIds : List (UUID × UUID)) → List SolverStop → Except AppError (List RouteStop)
  | _, _, _, [] => .ok []
  | nextId, sequence, originIds, solverStop :: rest => do
    let order ← orRaise (context.targetOrder? solverStop.orderId) (.uncaught "KeyError")
    if solverStop.stopType = .delivery then
      let origin ← orRaise (lastWrite originIds solverStop.orderId) (.uncaught "KeyError")
      let stops ← appendSolved context (nextId + 1) (sequence + 1) originIds rest
      return newStop context order solverStop nextId (sequence + 1) (some origin) :: stops
    else
      let stops ← appendSolved context (nextId + 1) (sequence + 1)
        (originIds ++ [(solverStop.orderId, nextId)]) rest
      return newStop context order solverStop nextId (sequence + 1) none :: stops

/-- The writes to `origin_ids` of copied stops, `deterministic_workflow.py:840`. -/
def originWrites (stops : List RouteStop) : List (UUID × UUID) :=
  (stops.filter (·.stopType != .delivery)).map fun stop ↦ (stop.orderId, stop.id)

/-- `_persist_stops`, `deterministic_workflow.py:800`. -/
def persistStops (context : RecoveryContext) (nextId : Nat) (preserved : List RouteStop)
    (solverStops : List SolverStop) : Except AppError (List RouteStop) := do
  let copies := copyPreserved nextId 0 [] preserved
  let solved ← appendSolved context (nextId + preserved.length) preserved.length
    (originWrites copies) solverStops
  return copies ++ solved

/-! ### Routes -/

/-- `round(delta.total_seconds())`: to the nearest second, halves to even. -/
def roundSeconds (delta : Int) : Int :=
  let whole := delta / 1000000
  let rest := delta % 1000000
  if rest < 500000 then whole
  else if rest > 500000 then whole + 1
  else if whole % 2 = 0 then whole else whole + 1

/-- One pass of the loops of `_persist_candidate_routes`: a base route with the solver route
it pops, or a solver route left over. -/
inductive RouteTask where
  | base (route : VehicleRoute) (solver : Option SolverRoute)
  | extra (solver : SolverRoute)
  deriving DecidableEq, Repr

/-- The writes of the `solver_routes` dictionary, `deterministic_workflow.py:658`. -/
def solverRouteWrites (result : SolverResult) : List (UUID × SolverRoute) :=
  result.routes.map fun route ↦ (route.vehicleId, route)

/-- The passes that make a route, in order: base routes with stops first, then the solver
routes that no base route has popped. A vehicle has at most one route in a plan. -/
def routeTasks (context : RecoveryContext) (result : SolverResult) : List RouteTask :=
  (context.routes.filterMap fun route ↦
    let solver := lastWrite (solverRouteWrites result) route.vehicleId
    if preservedStops context route = [] ∧ solver = none then none
    else some (.base route solver)) ++
  ((dictEntries (solverRouteWrites result)).filter fun entry ↦
    !(context.routes.map (·.vehicleId)).contains entry.1).map fun entry ↦ .extra entry.2

/-- `unchanged`, `deterministic_workflow.py:678`. -/
def unchanged (context : RecoveryContext) (route : VehicleRoute) (solver : Option SolverRoute) :
    Bool :=
  solver.isNone && !context.rebuiltRouteIds.contains route.id

/-- `end_location_id`, `deterministic_workflow.py:687`. -/
def endLocation? (context : RecoveryContext) (route : VehicleRoute)
    (solver : Option SolverRoute) : Option UUID :=
  if unchanged context route solver then some route.endLocationId
  else match (solver.elim [] (·.stops)).getLast? with
    | some last => some last.locationId
    | none =>
      if context.incidentType = .vehicleUnavailable ∧ context.affectedRouteId = some route.id ∧
          context.incidentLocationId.isSome then
        context.incidentLocationId
      else (preservedStops context route).getLast?.map (·.locationId)

/-- `planned_end_at`, `deterministic_workflow.py:697`. -/
def plannedEnd (context : RecoveryContext) (route : VehicleRoute)
    (solver : Option SolverRoute) : Instant :=
  match (solver.elim [] (·.stops)).getLast? with
  | some last => context.currentTime + timedelta last.departureTimeSeconds
  | none =>
    if unchanged context route solver then route.plannedEndAt else context.currentTime

/-- The `route_metrics` of a candidate route, `deterministic_workflow.py:745`. -/
def candidateMetrics (preserved : List RouteStop) (road : Option RoadRoute)
    (previous : Option RouteMetrics) : RouteMetrics where
  preservedStopCount := preserved.length
  geometryProvider := if road.isSome then some "OSRM" else previous.bind (·.geometryProvider)
  roadLegEndIndices := (road.map (·.legEndIndices)).or
    (if road.isSome then none else previous.bind (·.roadLegEndIndices))

/-- The route of a base route, `deterministic_workflow.py:669`, less its stops. -/
def rebuiltRoute (context : RecoveryContext) (road : Option RoadRoute) (route : VehicleRoute)
    (solver : Option SolverRoute) (id routeNo endLocationId : Nat) : VehicleRoute where
  id := id
  routeNo := routeNo
  vehicleId := route.vehicleId
  driverId := route.driverId
  assignmentId := route.assignmentId
  startLocationId := route.startLocationId
  endLocationId := endLocationId
  status :=
    if solver.isSome then route.status
    else if context.rebuiltRouteIds.contains route.id then .completed
    else route.status
  plannedStartAt := route.plannedStartAt
  plannedEndAt := plannedEnd context route solver
  actualStartAt := route.actualStartAt
  actualEndAt := if solver.isNone then route.actualEndAt else none
  distanceMeters :=
    (road.map (·.distanceMeters)).getD ((solver.map (·.distanceMeters)).getD route.distanceMeters)
  durationSeconds :=
    if unchanged context route solver then route.durationSeconds
    else roundSeconds (plannedEnd context route solver - route.plannedStartAt)
  capacityLoadUnits :=
    ((context.vehicleFact? route.vehicleId).map (·.capacityLoadUnits)).getD route.capacityLoadUnits
  routeGeometry :=
    (road.map (·.geometry)).or
      (if unchanged context route solver then route.routeGeometry else none)
  routeMetrics := some (candidateMetrics (preservedStops context route) road
    (if unchanged context route solver then route.routeMetrics else none))
  stops := []

/-- The route of a vehicle without a base route, `deterministic_workflow.py:761`, less its
stops. -/
def extraRoute (context : RecoveryContext) (road : Option RoadRoute) (solver : SolverRoute)
    (pair : RecoveryVehicleFact) (last : SolverStop) (id routeNo : Nat) : VehicleRoute :=
  let plannedEndAt := context.currentTime + timedelta last.departureTimeSeconds
  { id := id
    routeNo := routeNo
    vehicleId := pair.vehicleId
    driverId := pair.driverId
    assignmentId := pair.assignmentId
    startLocationId := pair.startLocationId
    endLocationId := last.locationId
    status := .planned
    plannedStartAt := pair.availableFrom
    plannedEndAt := plannedEndAt
    actualStartAt := none
    actualEndAt := none
    distanceMeters := (road.map (·.distanceMeters)).getD solver.distanceMeters
    durationSeconds := roundSeconds (plannedEndAt - pair.availableFrom)
    capacityLoadUnits := pair.capacityLoadUnits
    routeGeometry := road.map (·.geometry)
    routeMetrics := some (candidateMetrics [] road none)
    stops := [] }

/-- The road geometries by vehicle, when the provider builds them. -/
abbrev RoadRoutes := Option (List (UUID × RoadRoute))

/-- `road_routes.get(vehicle_id)`. -/
def roadOf (roads : RoadRoutes) (vehicleId : UUID) : Option RoadRoute :=
  roads.bind (lastWrite · vehicleId)

/-- One pass of the loops of `_persist_candidate_routes`, `deterministic_workflow.py:651`. -/
def persistRoute (context : RecoveryContext) (roads : RoadRoutes) (id routeNo : Nat) :
    RouteTask → Except AppError VehicleRoute
  | .base route solver => do
    let endLocationId ← orRaise (endLocation? context route solver) (.uncaught "IndexError")
    let stops ← persistStops context (id + 1) (preservedStops context route)
      (solver.elim [] (·.stops))
    return { rebuiltRoute context (roadOf roads route.vehicleId) route solver id routeNo
      endLocationId with stops := stops }
  | .extra solver => do
    let pair ← orRaise (context.vehicleFact? solver.vehicleId) (.uncaught "KeyError")
    let last ← orRaise solver.stops.getLast? (.uncaught "IndexError")
    let stops ← persistStops context (id + 1) [] solver.stops
    return { extraRoute context (roadOf roads solver.vehicleId) solver pair last id routeNo with
      stops := stops }

/-- The passes one after the other, numbered from `routeNo + 1`. -/
def persistRoutes (context : RecoveryContext) (roads : RoadRoutes) :
    (nextId routeNo : Nat) → List RouteTask → Except AppError (List VehicleRoute)
  | _, _, [] => .ok []
  | nextId, routeNo, task :: rest => do
    let route ← persistRoute context roads nextId (routeNo + 1) task
    let routes ← persistRoutes context roads (nextId + 1 + route.stops.length) (routeNo + 1) rest
    return route :: routes

/-- `_persist_candidate_routes`, `deterministic_workflow.py:651`. -/
def persistCandidateRoutes (context : RecoveryContext) (result : SolverResult)
    (roads : RoadRoutes) (nextId : Nat) : Except AppError (List VehicleRoute) :=
  persistRoutes context roads nextId 0 (routeTasks context result)

/-! ### Memberships and the plan -/

/-- The writes to `route_by_order`, `deterministic_workflow.py:841` and `:891`: every stop
writes its route for its order. -/
def routeByOrderWrites (routes : List VehicleRoute) : List (UUID × UUID) :=
  routes.flatMap fun route ↦ route.stops.map fun stop ↦ (stop.orderId, route.id)

/-- `unassigned_by_order.get(order_id)`, `deterministic_workflow.py:615`. -/
def unassignedOrder? (result : SolverResult) (orderId : UUID) : Option SolverUnassignedOrder :=
  lastWrite (result.unassignedOrders.map fun item ↦ (item.orderId, item)) orderId

/-- One membership of the candidate, `deterministic_workflow.py:606`. -/
def candidateMembership (routes : List VehicleRoute) (result : SolverResult)
    (snapshot : DeliveryPlanOrder) : Except AppError DeliveryPlanOrder :=
  match lastWrite (routeByOrderWrites routes) snapshot.orderId with
  | some routeId => .ok {
      orderId := snapshot.orderId
      assignmentStatus := .assigned
      vehicleRouteId := some routeId
      unassignedReasonCode := none
      unassignedReasonDetail := none }
  | none => do
    let unassigned := unassignedOrder? result snapshot.orderId
    let reasonCode ← orRaise
      (unassigned.elim snapshot.unassignedReasonCode fun item ↦ some item.reasonCode)
      (.business "RECOVERY_CONTEXT_INVALID")
    return {
      orderId := snapshot.orderId
      assignmentStatus := .unassigned
      vehicleRouteId := none
      unassignedReasonCode := some reasonCode
      unassignedReasonDetail :=
        unassigned.elim snapshot.unassignedReasonDetail (·.reasonDetail) }

/-- `get_latest_plan_for_business_date(...).version_no`, or 0. -/
def latestVersionNo (db : Database) (businessDate : BusinessDate) : Nat :=
  ((db.plans.filter (·.businessDate == businessDate)).map (·.versionNo)).max?.getD 0

/-- The plan row of `_create_candidate`, `deterministic_workflow.py:573` and `:644`. -/
def candidatePlan (db : Database) (context : RecoveryContext) (routes : List VehicleRoute)
    (planOrders : List DeliveryPlanOrder) : DeliveryPlan where
  id := db.nextId
  planGroupId := context.planGroupId
  businessDate := context.businessDate
  versionNo := latestVersionNo db context.businessDate + 1
  parentPlanId := some context.basePlanId
  status := .candidate
  validationStatus := .valid
  totalDistanceMeters := (routes.map (·.distanceMeters)).sum
  totalDurationSeconds := (routes.map (·.durationSeconds)).sum
  vehicleCount := routes.length
  assignedOrderCount := (planOrders.filter (·.assignmentStatus == .assigned)).length
  unassignedOrderCount := (planOrders.filter (·.assignmentStatus == .unassigned)).length
  planningFactsSha256 := none
  routes := routes
  planOrders := planOrders

/-- The rows that a list of routes takes with its stops. -/
def rowCount (routes : List VehicleRoute) : Nat :=
  (routes.map fun route ↦ 1 + route.stops.length).sum

/-- `_create_candidate`, `deterministic_workflow.py:566`, with the constraints that its flush
has to meet. -/
def createCandidate (db : Database) (context : RecoveryContext) (result : SolverResult)
    (roads : RoadRoutes) : Except AppError (Database × DeliveryPlan) := do
  let routes ← persistCandidateRoutes context result roads (db.nextId + 1)
  let planOrders ← context.planOrders.mapM (candidateMembership routes result)
  let plan := candidatePlan db context routes planOrders
  raiseFirst [(!plan.constraintsHold db, .integrity "delivery_plans"),
    (!plan.planOrders.all (·.checks), .integrity "delivery_plan_orders")]
  return ({ db with
    plans := db.plans ++ [plan]
    nextId := db.nextId + 1 + rowCount routes }, plan)

/-! ### Road geometry -/

/-- The waypoints of one pass of `_build_candidate_road_routes`,
`deterministic_workflow.py:538`; `none` keeps the road of an unchanged route. -/
def roadWaypoints (context : RecoveryContext) :
    RouteTask → Except AppError (Option (UUID × List UUID))
  | .base route solver =>
    let kept := (preservedStops context route).map (·.locationId) ++
      (solver.elim [] (·.stops)).map (·.locationId)
    if unchanged context route solver ∧
        (route.routeMetrics.bind (·.geometryProvider)) = some "OSRM" ∧
        route.routeGeometry.isSome then .ok none
    else do
      let broken := context.incidentType == .vehicleUnavailable &&
        context.affectedRouteId == some route.id
      raiseFirst [(broken && context.incidentLocationId.isSome && kept.isEmpty,
        .uncaught "IndexError")]
      let toIncident :=
        if broken then context.incidentLocationId.toList.filter (some · != kept.getLast?) else []
      let toEnd :=
        if unchanged context route solver ∧ some route.endLocationId ≠ kept.getLast? then
          [route.endLocationId]
        else []
      return some (route.vehicleId, route.startLocationId :: kept ++ toIncident ++ toEnd)
  | .extra solver => do
    let pair ← orRaise (context.vehicleFact? solver.vehicleId) (.uncaught "KeyError")
    return some (solver.vehicleId, pair.startLocationId :: solver.stops.map (·.locationId))

/-- `route_for`, `deterministic_workflow.py:531`. -/
def roadFor (context : RecoveryContext) (buildRoute : List UUID → Except AppError RoadRoute)
    (task : RouteTask) : Except AppError (List (UUID × RoadRoute)) := do
  match ← roadWaypoints context task with
  | none => return []
  | some (vehicleId, waypoints) =>
    raiseFirst [(!waypoints.all context.locations.contains,
      .integration "ROAD_ROUTING_INVALID_INPUT")]
    return [(vehicleId, ← buildRoute waypoints)]

/-- `_build_candidate_road_routes`, `deterministic_workflow.py:517`. -/
def buildCandidateRoadRoutes (services : Services) (context : RecoveryContext)
    (result : SolverResult) : Except AppError RoadRoutes :=
  match services.buildRoute with
  | none => .ok none
  | some buildRoute => do
    let roads ← (routeTasks context result).mapM (roadFor context buildRoute)
    return some roads.flatten

end PenroseRoute.Recovery
