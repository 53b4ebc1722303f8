import PenroseRoute.Lib.Grouping
import PenroseRoute.Lib.VehicleRouting
import PenroseRoute.Optimization.ResultValidator

/-!
# The OR-Tools solver

Models `backend/app/integrations/optimization/ortools_solver.py`: how the routing model is
posted and how a result is read off the assignment. The search itself is a parameter. The
index manager renumbers nodes one to one, so node numbers stand for its indices.
-/

namespace PenroseRoute.Optimization

open PenroseRoute.Lib

namespace ORToolsSolver

open SolverResultValidator (originType)

/-- `_UNASSIGNED_PENALTY`, `ortools_solver.py:22`. -/
def unassignedPenalty : Nat := 1000000000000

/-- The two dimensions of the model. -/
inductive DimensionName where
  | time
  | capacity
  deriving DecidableEq, Repr

/-- `_Node`, `ortools_solver.py:26`. -/
structure Node where
  locationId : Option UUID
  orderId : Option UUID := none
  stopType : Option SolverStopType := none
  serviceSeconds : Nat := 0
  loadChangeLoadUnits : Int := 0
  deriving DecidableEq, Repr

/-- `_OrderNodes`, `ortools_solver.py:35`. -/
structure OrderNodes where
  originNode : Option Nat
  deliveryNode : Option Nat
  fixedVehicleIndex : Option Nat := none
  deriving DecidableEq, Repr

/-! ### Frozen tasks and vehicles -/

/-- The `vehicle_index` dictionary. -/
def vehicleIndex (input : SolverInput) (vehicleId : UUID) : Option Nat :=
  input.vehicles.findIdx? (·.vehicleId == vehicleId)

/-- `_group_frozen_tasks`, `ortools_solver.py:375`. -/
def groupFrozenTasks (input : SolverInput) : Except String (List (UUID × List FrozenTask)) :=
  if input.frozenTasks.any fun task ↦ (vehicleIndex input task.vehicleId).isNone then
    .error "frozen task references an unknown vehicle"
  else
    let grouped := (groupByKey FrozenTask.vehicleId input.frozenTasks).map fun group ↦
      (group.1, group.2.mergeSort fun a b ↦ a.stop.sequenceNo ≤ b.stop.sequenceNo)
    if grouped.any fun group ↦
        group.2.map (·.stop.sequenceNo) != List.range' 1 group.2.length then
      .error "frozen task sequence must be contiguous"
    else .ok grouped

/-- `frozen_by_vehicle.get(vehicle_id, ())`. -/
def frozenOn (grouped : List (UUID × List FrozenTask)) (vehicleId : UUID) : List FrozenTask :=
  (grouped.find? (·.1 == vehicleId)).elim [] (·.2)

/-- `frozen_by_order.get((order_id, stop_type))`; a later task replaces an earlier one. -/
def frozenTask? (input : SolverInput) (orderId : UUID) (stopType : SolverStopType) :
    Option FrozenTask :=
  input.frozenTasks.reverse.find? fun task ↦
    task.stop.orderId == orderId && task.stop.stopType == stopType

/-- Where a vehicle starts: at its last frozen stop, if any. -/
def startLocation (vehicle : SolverVehicle) (frozen : List FrozenTask) : UUID :=
  frozen.getLast?.elim vehicle.startLocationId (·.stop.locationId)

/-- When a vehicle starts: not before its last frozen stop is done. -/
def startTime (vehicle : SolverVehicle) (frozen : List FrozenTask) : Nat :=
  frozen.getLast?.elim vehicle.availableFromSeconds fun task ↦
    max vehicle.availableFromSeconds task.stop.departureTimeSeconds

/-- The load a vehicle starts with, its frozen stops counted. -/
def initialLoad (vehicle : SolverVehicle) (frozen : List FrozenTask) : Int :=
  vehicle.initialLoadLoadUnits + (frozen.map (·.stop.loadChangeLoadUnits)).sum

/-- The nodes of the vehicle loop, `ortools_solver.py:81`: a start and an open end each. -/
def vehicleNodes (input : SolverInput) (grouped : List (UUID × List FrozenTask)) : List Node :=
  input.vehicles.flatMap fun vehicle ↦
    [{ locationId := some (startLocation vehicle (frozenOn grouped vehicle.vehicleId)) },
      { locationId := none }]

/-- The start node of the vehicle with an index. -/
def startNode (k : Nat) : Nat := 2 * k

/-- The end node of the vehicle with an index. -/
def endNode (k : Nat) : Nat := 2 * k + 1

/-- The load check of the vehicle loop, `ortools_solver.py:96`. -/
def loadsValid (input : SolverInput) (grouped : List (UUID × List FrozenTask)) : Bool :=
  input.vehicles.all fun vehicle ↦
    let load := initialLoad vehicle (frozenOn grouped vehicle.vehicleId)
    0 ≤ load && load ≤ vehicle.capacityLoadUnits

/-! ### Order nodes -/

/-- `_origin_service_seconds`, `ortools_solver.py:367`. -/
def originServiceSeconds (order : SolverOrder) : Nat :=
  if order.pickupLocationId.isSome then order.pickupServiceSeconds
  else order.handoverServiceSeconds

/-- The node that takes an order's goods aboard. -/
def originNodeOf (order : SolverOrder) (kind : SolverStopType) : Node where
  locationId := order.originLocation
  orderId := some order.orderId
  stopType := some kind
  serviceSeconds := originServiceSeconds order
  loadChangeLoadUnits := order.demandLoadUnits

/-- The node that delivers an order. -/
def deliveryNodeOf (order : SolverOrder) : Node where
  locationId := some order.deliveryLocationId
  orderId := some order.orderId
  stopType := some .delivery
  serviceSeconds := order.deliveryServiceSeconds
  loadChangeLoadUnits := -(order.demandLoadUnits : Int)

/-- The nodes one order appends when `next` nodes exist, `ortools_solver.py:109`. -/
def appendOrder (input : SolverInput) (next : Nat) (order : SolverOrder) :
    Except String (List Node × OrderNodes) :=
  match originType order with
  | none =>
    match order.requiredVehicleId.bind (vehicleIndex input) with
    | none => .error "delivery-only order references an unavailable vehicle"
    | some k => .ok ([deliveryNodeOf order], ⟨none, some next, some k⟩)
  | some kind =>
    match frozenTask? input order.orderId kind, frozenTask? input order.orderId .delivery with
    | none, some _ => .error "frozen delivery requires its frozen origin task"
    | some _, some _ => .ok ([], ⟨none, none, none⟩)
    | none, none =>
      .ok ([originNodeOf order kind, deliveryNodeOf order], ⟨some next, some (next + 1), none⟩)
    | some task, none =>
      .ok ([deliveryNodeOf order], ⟨none, some next, vehicleIndex input task.vehicleId⟩)

/-- The order loop, with the `order_nodes` dictionary in the order of the input. -/
def appendOrders (input : SolverInput) :
    Nat → List SolverOrder → Except String (List Node × List (SolverOrder × OrderNodes))
  | _, [] => .ok ([], [])
  | next, order :: rest =>
    match appendOrder input next order with
    | .error message => .error message
    | .ok (own, orderNodes) =>
      match appendOrders input (next + own.length) rest with
      | .error message => .error message
      | .ok (nodes, all) => .ok (own ++ nodes, (order, orderNodes) :: all)

/-! ### The posted model -/

/-- `nodes[index]`. -/
def nodeAt (nodes : List Node) (i : Nat) : Node :=
  nodes[i]?.getD { locationId := none }

/-- `distance_callback`, `ortools_solver.py:188`. -/
def distanceCallback (input : SolverInput) (nodes : List Node) (i j : Nat) : Nat :=
  match (nodeAt nodes j).locationId, (nodeAt nodes i).locationId with
  | none, _ => 0
  | _, none => 0
  | some destination, some origin => input.distance origin destination

/-- `time_callback`, `ortools_solver.py:204`. -/
def timeCallback (input : SolverInput) (nodes : List Node) (i j : Nat) : Nat :=
  match (nodeAt nodes j).locationId, (nodeAt nodes i).locationId with
  | none, _ => (nodeAt nodes i).serviceSeconds
  | _, none => 0
  | some destination, some origin =>
    (nodeAt nodes i).serviceSeconds + input.duration origin destination

/-- `horizon`, `ortools_solver.py:217`. -/
def horizon (input : SolverInput) : Nat :=
  (input.vehicles.map (·.availableUntilSeconds) ++
    input.orders.map (·.deliveryWindowEndSeconds) ++
    input.orders.map (·.readyTimeSeconds)).foldr max 1

/-- The dimensions, `ortools_solver.py:223` and `ortools_solver.py:240`. -/
def dimension (input : SolverInput) (nodes : List Node) : DimensionName → RoutingDimension
  | .time => ⟨fun i j ↦ timeCallback input nodes i j, horizon input, fun _ ↦ horizon input⟩
  | .capacity => ⟨fun i _ ↦ (nodeAt nodes i).loadChangeLoadUnits, 0,
      fun k ↦ (input.vehicles[k]?).elim 0 (·.capacityLoadUnits)⟩

/-- Constraints of the vehicle with an index, `ortools_solver.py:249`. -/
def vehicleConstraints (vehicle : SolverVehicle) (frozen : List FrozenTask) (k : Nat) :
    List (RoutingConstraint DimensionName) :=
  [.cumulRange .time (startNode k) (startTime vehicle frozen) (startTime vehicle frozen),
    .cumulRange .time (endNode k) (startTime vehicle frozen) vehicle.availableUntilSeconds,
    .cumulRange .capacity (startNode k) (initialLoad vehicle frozen) (initialLoad vehicle frozen)]

/-- Constraints of one order, `ortools_solver.py:262`. -/
def orderConstraints (input : SolverInput) (order : SolverOrder) (nodes : OrderNodes) :
    List (RoutingConstraint DimensionName) :=
  match nodes.deliveryNode with
  | none => []
  | some delivery =>
    .cumulRange .time delivery order.deliveryWindowStartSeconds order.deliveryWindowEndSeconds ::
    match nodes.originNode with
    | none => nodes.fixedVehicleIndex.toList.map (.vehicleIs delivery ·)
    | some origin =>
      [.cumulRange .time origin order.readyTimeSeconds (horizon input),
        .pickupAndDelivery origin delivery,
        .sameVehicle origin delivery,
        .cumulLe .time origin delivery,
        .disjunction [origin] (unassignedPenalty / 2),
        .disjunction [delivery] (unassignedPenalty / 2),
        .sameActive origin delivery]

/-- Everything `_solve` posts before it searches. -/
def routingModel (input : SolverInput) (grouped : List (UUID × List FrozenTask))
    (nodes : List Node) (orderNodes : List (SolverOrder × OrderNodes)) :
    RoutingModel DimensionName where
  numNodes := nodes.length
  starts := (List.range input.vehicles.length).map startNode
  ends := (List.range input.vehicles.length).map endNode
  arcCost := distanceCallback input nodes
  dimension := dimension input nodes
  constraints :=
    input.vehicles.zipIdx.flatMap (fun (vehicle, k) ↦
      vehicleConstraints vehicle (frozenOn grouped vehicle.vehicleId) k) ++
    orderNodes.flatMap (fun (order, own) ↦ orderConstraints input order own)

/-! ### Reading the result -/

/-- `_unassigned_reason`, `ortools_solver.py:455`. -/
def unassignedReason (input : SolverInput) (grouped : List (UUID × List FrozenTask))
    (order : SolverOrder) : UnassignedReason :=
  if input.vehicles.all fun vehicle ↦ vehicle.capacityLoadUnits < order.demandLoadUnits then
    .capacityInfeasible
  else
    let origin := order.originLocation.getD 0
    if input.vehicles.any fun vehicle ↦
        let frozen := frozenOn grouped vehicle.vehicleId
        let originArrival := startTime vehicle frozen +
          input.duration (startLocation vehicle frozen) origin
        let originDeparture := max originArrival order.readyTimeSeconds +
          originServiceSeconds order
        let deliveryArrival := originDeparture +
          input.duration origin order.deliveryLocationId
        deliveryArrival ≤ order.deliveryWindowEndSeconds &&
          deliveryArrival ≤ vehicle.availableUntilSeconds then
      .noFeasibleRoute
    else .timeWindowInfeasible

/-- `_unassigned_orders`, `ortools_solver.py:421`. -/
def unassignedOrders (input : SolverInput) (grouped : List (UUID × List FrozenTask))
    (a : RoutingAssignment DimensionName) (orderNodes : List (SolverOrder × OrderNodes)) :
    List SolverUnassignedOrder :=
  orderNodes.filterMap fun (order, own) ↦
    match own.originNode with
    | none => none
    | some origin =>
      if a.active origin then none
      else some ⟨order.orderId, unassignedReason input grouped order, none⟩

/-- The stops appended after `count` stops for the nodes of a walk, `ortools_solver.py:515`.
Cumulated times are never negative. -/
def visitStops (nodes : List Node) (a : RoutingAssignment DimensionName) :
    Nat → List Nat → List SolverStop
  | _, [] => []
  | count, i :: rest =>
    let node := nodeAt nodes i
    match node.orderId, node.stopType with
    | some orderId, some stopType =>
      { orderId := orderId
        locationId := node.locationId.getD 0
        stopType := stopType
        sequenceNo := count + 1
        arrivalTimeSeconds := (a.cumul .time i).toNat
        departureTimeSeconds := (a.cumul .time i).toNat + node.serviceSeconds
        serviceDurationSeconds := node.serviceSeconds
        loadChangeLoadUnits := node.loadChangeLoadUnits
        sequence_pos := Nat.succ_pos count
        arrival_le := Nat.le_add_right _ _ } :: visitStops nodes a (count + 1) rest
    | _, _ => visitStops nodes a count rest

/-- One iteration of `_build_routes`, `ortools_solver.py:507`; `_route_distance` is the
validator's `pathDistance`. -/
def buildRoute (input : SolverInput) (grouped : List (UUID × List FrozenTask))
    (nodes : List Node) (m : RoutingModel DimensionName) (a : RoutingAssignment DimensionName)
    (vehicle : SolverVehicle) (k : Nat) : Option SolverRoute :=
  let frozen := (frozenOn grouped vehicle.vehicleId).map (·.stop)
  let visited := walk (fun i ↦ decide (i ∈ m.ends)) a.next m.numNodes (startNode k)
  let stops := frozen ++ visitStops nodes a frozen.length visited
  match stops.getLast? with
  | none => none
  | some last => some
    { vehicleId := vehicle.vehicleId
      stops := stops
      distanceMeters := SolverResultValidator.pathDistance input vehicle.startLocationId stops
      durationSeconds := last.departureTimeSeconds - vehicle.availableFromSeconds }

/-- `_build_routes`, `ortools_solver.py:496`. -/
def buildRoutes (input : SolverInput) (grouped : List (UUID × List FrozenTask))
    (nodes : List Node) (m : RoutingModel DimensionName) (a : RoutingAssignment DimensionName) :
    List SolverRoute :=
  input.vehicles.zipIdx.filterMap fun (vehicle, k) ↦ buildRoute input grouped nodes m a vehicle k

/-- A result without routes. -/
def withoutRoutes (status : SolverStatus) (diagnostic : Option String) : SolverResult :=
  ⟨status, [], [], 0, 0, diagnostic⟩

/-- `_without_vehicles`, `ortools_solver.py:395`. -/
def withoutVehicles (input : SolverInput) : SolverResult :=
  if !input.frozenTasks.isEmpty then
    withoutRoutes .error (some "Frozen tasks require their assigned vehicles")
  else
    { status := .feasible
      routes := []
      unassignedOrders := input.orders.map fun order ↦
        ⟨order.orderId, .resourceUnavailable, some "No vehicle is available"⟩
      totalDistanceMeters := 0
      totalDurationSeconds := 0
      diagnostic := none }

/-- `_solve`, `ortools_solver.py:57`. -/
def solveInput (search : RoutingSearch DimensionName) (input : SolverInput) :
    Except String SolverResult :=
  if input.vehicles.isEmpty then .ok (withoutVehicles input)
  else do
    let grouped ← groupFrozenTasks input
    raiseFirst [(!loadsValid input grouped, "frozen tasks produce an invalid vehicle load")]
    let (own, orderNodes) ← appendOrders input (vehicleNodes input grouped).length input.orders
    let nodes := vehicleNodes input grouped ++ own
    let m := routingModel input grouped nodes orderNodes
    match ← search.solve m with
    | none =>
      return withoutRoutes .infeasible (some "No feasible solution for mandatory constraints")
    | some a =>
      let routes := buildRoutes input grouped nodes m a
      return {
        status := .feasible
        routes := routes
        unassignedOrders := unassignedOrders input grouped a orderNodes
        totalDistanceMeters := (routes.map (·.distanceMeters)).sum
        totalDurationSeconds := (routes.map (·.durationSeconds)).sum
        diagnostic := none }

/-- `solve`, `ortools_solver.py:44`: whatever is raised becomes an error result. -/
def solve (search : RoutingSearch DimensionName) (input : SolverInput) : SolverResult :=
  match solveInput search input with
  | .ok result => result
  | .error message => withoutRoutes .error (some message)

end ORToolsSolver

end PenroseRoute.Optimization
