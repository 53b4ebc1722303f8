import PenroseRoute.Lib.Grouping
import PenroseRoute.Optimization.Contracts

/-!
# Structural validation of optimizer results

Models `backend/app/integrations/optimization/result_validator.py`. The running variables
of `validate` (`current_load`, `previous_location_id`, `previous_departure`,
`route_vehicle_ids`, `assigned_order_ids`) are arguments of the recursions below, and
issues are emitted in the order of the source.
-/

namespace PenroseRoute.Optimization

open PenroseRoute.Lib

/-- `result_validator.py:16`. -/
structure ValidationIssue where
  code : String
  message : String
  deriving DecidableEq, Repr

namespace SolverResultValidator

/-- One `if`/`append` of the source. -/
def issueIf (raised : Bool) (code message : String) : List ValidationIssue :=
  if raised then [⟨code, message⟩] else []

/-- No issue is raised when its condition fails. -/
@[simp] theorem issueIf_eq_nil (raised : Bool) (code message : String) :
    issueIf raised code message = [] ↔ raised = false := by
  cases raised <;> simp [issueIf]

/-- The `expected_service` table, `result_validator.py:94`. -/
def expectedService (order : SolverOrder) : SolverStopType → Nat
  | .pickup => order.pickupServiceSeconds
  | .handover => order.handoverServiceSeconds
  | .delivery => order.deliveryServiceSeconds

/-- The `expected_load_change`, `result_validator.py:99`. -/
def expectedLoadChange (order : SolverOrder) : SolverStopType → Int
  | .delivery => -(order.demandLoadUnits : Int)
  | _ => order.demandLoadUnits

/-- Checks of one stop of a known order, `result_validator.py:104`; `currentLoad` already
contains the stop's load change. -/
def stopIssues (vehicle : Option SolverVehicle) (route : SolverRoute) (order : SolverOrder)
    (currentLoad : Int) (stop : SolverStop) : List ValidationIssue :=
  issueIf (stop.serviceDurationSeconds != expectedService order stop.stopType ||
      stop.departureTimeSeconds != stop.arrivalTimeSeconds + expectedService order stop.stopType)
    "STOP_SERVICE_TIME_INVALID" s!"Stop service time is invalid: {stop.orderId}" ++
  issueIf (stop.loadChangeLoadUnits != expectedLoadChange order stop.stopType)
    "STOP_LOAD_CHANGE_INVALID" s!"Stop load change is invalid: {stop.orderId}" ++
  issueIf (vehicle.any fun v ↦ currentLoad < 0 || currentLoad > v.capacityLoadUnits)
    "VEHICLE_CAPACITY_EXCEEDED" s!"Route load violates vehicle capacity: {route.vehicleId}" ++
  issueIf ((stop.stopType == .pickup || stop.stopType == .handover) &&
      stop.arrivalTimeSeconds < order.readyTimeSeconds)
    "PICKUP_READY_TIME_VIOLATED" s!"Order origin precedes ready time: {stop.orderId}" ++
  issueIf (stop.stopType == .delivery &&
      !(order.deliveryWindowStartSeconds ≤ stop.arrivalTimeSeconds &&
        stop.arrivalTimeSeconds ≤ order.deliveryWindowEndSeconds))
    "DELIVERY_WINDOW_VIOLATED" s!"Order delivery is outside its window: {stop.orderId}" ++
  issueIf (vehicle.any fun v ↦ !(v.availableFromSeconds ≤ stop.arrivalTimeSeconds &&
      stop.departureTimeSeconds ≤ v.availableUntilSeconds))
    "VEHICLE_AVAILABILITY_VIOLATED"
    s!"Route is outside vehicle availability: {route.vehicleId}"

/-- The stop loop of one route, `result_validator.py:84`. A stop of an unknown order is
reported and skipped before its load change is counted. -/
def checkStops (input : SolverInput) (vehicle : Option SolverVehicle) (route : SolverRoute) :
    Int → List SolverStop → List ValidationIssue
  | _, [] => []
  | currentLoad, stop :: rest =>
    match input.order? stop.orderId with
    | none =>
      ⟨"UNKNOWN_ORDER", s!"Unknown stop order: {stop.orderId}"⟩ ::
        checkStops input vehicle route currentLoad rest
    | some order =>
      stopIssues vehicle route order (currentLoad + stop.loadChangeLoadUnits) stop ++
        checkStops input vehicle route (currentLoad + stop.loadChangeLoadUnits) rest

/-- The `stops_by_order` dictionary of one route: its stops of known orders,
`result_validator.py:166`. -/
def stopsByOrder (input : SolverInput) (stops : List SolverStop) :
    List (UUID × List SolverStop) :=
  groupByKey (·.orderId) (stops.filter fun stop ↦ (input.order? stop.orderId).isSome)

/-- The reachability loop, `result_validator.py:174`. -/
def checkTravel (input : SolverInput) (route : SolverRoute) :
    UUID → Nat → List SolverStop → List ValidationIssue
  | _, _, [] => []
  | previousLocation, previousDeparture, stop :: rest =>
    issueIf (stop.arrivalTimeSeconds <
        previousDeparture + input.duration previousLocation stop.locationId)
      "ROUTE_TRAVEL_TIME_INVALID"
      s!"A route stop cannot be reached at its reported time: {route.vehicleId}" ++
    checkTravel input route stop.locationId stop.departureTimeSeconds rest

/-- The `expected_distance` accumulated from a location over the stops. -/
def pathDistance (input : SolverInput) : UUID → List SolverStop → Nat
  | _, [] => 0
  | previousLocation, stop :: rest =>
    input.distance previousLocation stop.locationId + pathDistance input stop.locationId rest

/-- The matrix checks of one route, `result_validator.py:168`. They are skipped for an
unknown vehicle, for a route without stops and when a stop is not in the matrix. -/
def checkMatrix (input : SolverInput) (vehicle : Option SolverVehicle) (route : SolverRoute) :
    List ValidationIssue :=
  match vehicle, route.stops.getLast? with
  | some v, some last =>
    if route.stops.all (fun stop ↦ input.locationIds.contains stop.locationId) then
      checkTravel input route v.startLocationId v.availableFromSeconds route.stops ++
      issueIf (route.distanceMeters != pathDistance input v.startLocationId route.stops)
        "ROUTE_DISTANCE_MISMATCH" s!"Route distance does not match the matrix: {route.vehicleId}" ++
      issueIf ((route.durationSeconds : Int) !=
          (last.departureTimeSeconds : Int) - v.availableFromSeconds)
        "ROUTE_DURATION_MISMATCH"
        s!"Route duration does not match its timestamps: {route.vehicleId}"
    else []
  | _, _ => []

/-- The `origin_type` of `result_validator.py:227`. -/
def originType (order : SolverOrder) : Option SolverStopType :=
  if order.pickupLocationId.isSome then some .pickup
  else if order.handoverLocationId.isSome then some .handover
  else none

/-- Checks of one order's stops on one route after the duplicate check,
`result_validator.py:236`. -/
def orderIssues (vehicle : Option SolverVehicle) (order : SolverOrder)
    (stops : List SolverStop) : List ValidationIssue :=
  let delivery := stops.filter (·.stopType == .delivery)
  match originType order with
  | none =>
    issueIf (delivery.length != 1 || stops.length != 1) "ORDER_STOP_SET_INVALID"
      s!"Delivery-only order requires one delivery: {order.orderId}" ++
    issueIf (delivery.head?.any (·.locationId != order.deliveryLocationId))
      "DELIVERY_LOCATION_MISMATCH" s!"Order delivery location is invalid: {order.orderId}" ++
    issueIf (vehicle.any fun v ↦ order.requiredVehicleId != some v.vehicleId)
      "REQUIRED_VEHICLE_MISMATCH" s!"Delivery-only order is on the wrong vehicle: {order.orderId}"
  | some originKind =>
    match stops.filter (·.stopType == originKind), delivery, stops with
    | [origin], [final], [_, _] =>
      issueIf (some origin.locationId != order.originLocation) "ORIGIN_LOCATION_MISMATCH"
        s!"Order origin location is invalid: {order.orderId}" ++
      issueIf (final.locationId != order.deliveryLocationId) "DELIVERY_LOCATION_MISMATCH"
        s!"Order delivery location is invalid: {order.orderId}" ++
      issueIf (final.sequenceNo ≤ origin.sequenceNo) "STOP_PRECEDENCE_INVALID"
        s!"Order delivery precedes its origin: {order.orderId}"
    | _, _, _ =>
      [⟨"ORDER_STOP_SET_INVALID", s!"Order requires one origin and one delivery: {order.orderId}"⟩]

/-- `orders[order_id]` and its checks; the dictionary holds stops of known orders only. -/
def ownIssues (input : SolverInput) (vehicle : Option SolverVehicle) (orderId : UUID)
    (stops : List SolverStop) : List ValidationIssue :=
  match input.order? orderId with
  | none => []
  | some order => orderIssues vehicle order stops

/-- The loop over `stops_by_order`, `result_validator.py:217`, with the
`assigned_order_ids` after it. -/
def checkOrders (input : SolverInput) (vehicle : Option SolverVehicle) :
    List UUID → List (UUID × List SolverStop) → List ValidationIssue × List UUID
  | assigned, [] => ([], assigned)
  | assigned, (orderId, stops) :: rest =>
    let duplicated := issueIf (assigned.contains orderId) "ORDER_DUPLICATED"
      s!"Order is assigned to multiple routes: {orderId}"
    let (issues, after) := checkOrders input vehicle (orderId :: assigned) rest
    (duplicated ++ ownIssues input vehicle orderId stops ++ issues, after)

/-- One iteration of the route loop, `result_validator.py:55`. -/
def checkRoute (input : SolverInput) (routeVehicleIds assigned : List UUID)
    (route : SolverRoute) : List ValidationIssue × List UUID :=
  let vehicle := input.vehicle? route.vehicleId
  let (orderPart, after) := checkOrders input vehicle assigned (stopsByOrder input route.stops)
  (issueIf vehicle.isNone "UNKNOWN_VEHICLE" s!"Unknown route vehicle: {route.vehicleId}" ++
    issueIf (routeVehicleIds.contains route.vehicleId) "VEHICLE_ROUTE_DUPLICATED"
      s!"Vehicle has multiple routes: {route.vehicleId}" ++
    issueIf (route.stops.map (·.sequenceNo) != List.range' 1 route.stops.length)
      "STOP_SEQUENCE_INVALID" s!"Route stop sequence is invalid: {route.vehicleId}" ++
    checkStops input vehicle route (vehicle.elim 0 (·.initialLoadLoadUnits)) route.stops ++
    checkMatrix input vehicle route ++ orderPart, after)

/-- The route loop with the `assigned_order_ids` after it. -/
def checkRoutes (input : SolverInput) :
    List UUID → List UUID → List SolverRoute → List ValidationIssue × List UUID
  | _, assigned, [] => ([], assigned)
  | routeVehicleIds, assigned, route :: rest =>
    let (own, assigned') := checkRoute input routeVehicleIds assigned route
    let (issues, after) := checkRoutes input (route.vehicleId :: routeVehicleIds) assigned' rest
    (own ++ issues, after)

/-- The loop over unassigned orders, `result_validator.py:308`. -/
def checkUnassigned (input : SolverInput) (assigned : List UUID) :
    List UUID → List SolverUnassignedOrder → List ValidationIssue
  | _, [] => []
  | seen, unassigned :: rest =>
    issueIf (input.order? unassigned.orderId).isNone "UNKNOWN_ORDER"
      s!"Unknown unassigned order: {unassigned.orderId}" ++
    issueIf (seen.contains unassigned.orderId || assigned.contains unassigned.orderId)
      "ORDER_DUPLICATED" s!"Order appears more than once: {unassigned.orderId}" ++
    checkUnassigned input assigned (unassigned.orderId :: seen) rest

/-- Orders without any result, `result_validator.py:328`. -/
def missingOrders (input : SolverInput) (result : SolverResult) (assigned : List UUID) :
    List SolverOrder :=
  input.orders.filter fun order ↦
    !assigned.contains order.orderId &&
      !(result.unassignedOrders.map (·.orderId)).contains order.orderId

/-- The frozen-task loop, `result_validator.py:337`. -/
def checkFrozen (input : SolverInput) (result : SolverResult) : List ValidationIssue :=
  input.frozenTasks.flatMap fun frozen ↦
    issueIf (!result.routes.any fun route ↦
        route.vehicleId == frozen.vehicleId && route.stops.contains frozen.stop)
      "FROZEN_TASK_MISSING" "A frozen task was not preserved on its vehicle"

/-- `SolverResultValidator.validate`, `result_validator.py:22`. -/
def validate (input : SolverInput) (result : SolverResult) : List ValidationIssue :=
  if result.status ≠ .feasible then
    issueIf (!result.routes.isEmpty || result.totalDistanceMeters != 0 ||
        result.totalDurationSeconds != 0)
      "STATUS_RESULT_CONFLICT" "Non-feasible result cannot contain route output"
  else
    let (routeIssues, assigned) := checkRoutes input [] [] result.routes
    routeIssues ++
    checkUnassigned input assigned [] result.unassignedOrders ++
    issueIf (!(missingOrders input result assigned).isEmpty) "ORDER_RESULT_MISSING"
      "Some input orders have no solver result" ++
    checkFrozen input result ++
    issueIf (result.totalDistanceMeters != (result.routes.map (·.distanceMeters)).sum)
      "TOTAL_DISTANCE_MISMATCH" "Result distance does not equal route distance total" ++
    issueIf (result.totalDurationSeconds != (result.routes.map (·.durationSeconds)).sum)
      "TOTAL_DURATION_MISMATCH" "Result duration does not equal route duration total"

end SolverResultValidator

end PenroseRoute.Optimization
