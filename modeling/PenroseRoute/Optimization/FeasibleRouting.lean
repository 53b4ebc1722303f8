import PenroseRoute.Lib.RunningSum
import PenroseRoute.Optimization.ResultValidator

/-!
# Feasible routings

What an optimizer result has to be for an input, stated without the validator's order of
checks: the abstract side of `SolverResultValidator.validate`.
-/

namespace PenroseRoute.Optimization

open PenroseRoute.Lib
open SolverResultValidator (originType expectedService pathDistance)

/-- A route stops for an order. -/
def SolverRoute.Visits (route : SolverRoute) (orderId : UUID) : Prop :=
  ∃ stop ∈ route.stops, stop.orderId = orderId

/-- The stops a route makes for an order, in sequence. -/
def SolverRoute.stopsOf (route : SolverRoute) (orderId : UUID) : List SolverStop :=
  route.stops.filter (fun stop ↦ stop.orderId = orderId)

/-- A stop that takes the order's goods aboard where they are, after they are ready. -/
structure OriginStop (order : SolverOrder) (stop : SolverStop) : Prop where
  kind : originType order = some stop.stopType
  location : order.originLocation = some stop.locationId
  service : stop.serviceDurationSeconds = expectedService order stop.stopType
  departure : stop.departureTimeSeconds =
    stop.arrivalTimeSeconds + expectedService order stop.stopType
  load : stop.loadChangeLoadUnits = order.demandLoadUnits
  ready : order.readyTimeSeconds ≤ stop.arrivalTimeSeconds

/-- A stop that hands the order's goods over inside its delivery window. -/
structure DeliveryStop (order : SolverOrder) (stop : SolverStop) : Prop where
  kind : stop.stopType = .delivery
  location : stop.locationId = order.deliveryLocationId
  service : stop.serviceDurationSeconds = order.deliveryServiceSeconds
  departure : stop.departureTimeSeconds = stop.arrivalTimeSeconds + order.deliveryServiceSeconds
  load : stop.loadChangeLoadUnits = -(order.demandLoadUnits : Int)
  window : order.deliveryWindowStartSeconds ≤ stop.arrivalTimeSeconds ∧
    stop.arrivalTimeSeconds ≤ order.deliveryWindowEndSeconds

/-- A route serves an order: exactly its origin and then its delivery, or exactly the
delivery when the goods already are on the route's vehicle. -/
def ServedOn (order : SolverOrder) (route : SolverRoute) : Prop :=
  (∃ origin delivery, route.stopsOf order.orderId = [origin, delivery] ∧
    OriginStop order origin ∧ DeliveryStop order delivery) ∨
  (order.originLocation = none ∧ order.requiredVehicleId = some route.vehicleId ∧
    ∃ delivery, route.stopsOf order.orderId = [delivery] ∧ DeliveryStop order delivery)

/-- Every stop can be reached from the place and time before it. -/
def Reaches (input : SolverInput) : UUID → Nat → List SolverStop → Prop
  | _, _, [] => True
  | location, departure, stop :: rest =>
    departure + input.duration location stop.locationId ≤ stop.arrivalTimeSeconds ∧
      Reaches input stop.locationId stop.departureTimeSeconds rest

/-- Reaching the stops after an earlier departure. -/
theorem Reaches.mono {input : SolverInput} {location : UUID} {departure departure' : Nat}
    {stops : List SolverStop} (h : Reaches input location departure stops)
    (hd : departure' ≤ departure) : Reaches input location departure' stops := by
  cases stops with
  | nil => trivial
  | cons stop rest => exact ⟨by have := h.1; omega, h.2⟩

/-- Further stops are reached from the last one before them. -/
theorem reaches_append (input : SolverInput) (location : UUID) (departure : Nat)
    (xs ys : List SolverStop) :
    Reaches input location departure (xs ++ ys) ↔ Reaches input location departure xs ∧
      Reaches input (xs.getLast?.elim location (·.locationId))
        (xs.getLast?.elim departure (·.departureTimeSeconds)) ys := by
  induction xs generalizing location departure with
  | nil => simp [Reaches]
  | cons x xs ih =>
    rw [List.cons_append, Reaches, Reaches, ih, and_assoc, List.getLast?_cons]
    cases xs.getLast? <;> rfl

/-- A route its vehicle can drive. -/
structure Drivable (input : SolverInput) (vehicle : SolverVehicle) (route : SolverRoute) :
    Prop where
  sequence : route.stops.map (·.sequenceNo) = List.range' 1 route.stops.length
  load : RunningWithin 0 vehicle.capacityLoadUnits vehicle.initialLoadLoadUnits
    (route.stops.map (·.loadChangeLoadUnits))
  available : ∀ stop ∈ route.stops, vehicle.availableFromSeconds ≤ stop.arrivalTimeSeconds ∧
    stop.departureTimeSeconds ≤ vehicle.availableUntilSeconds
  reaches : Reaches input vehicle.startLocationId vehicle.availableFromSeconds route.stops

/-- The declared distance and duration are those of the matrix and the timestamps. -/
structure DeclaresTotals (input : SolverInput) (vehicle : SolverVehicle) (route : SolverRoute) :
    Prop where
  distance : route.distanceMeters = pathDistance input vehicle.startLocationId route.stops
  duration : ∀ last, route.stops.getLast? = some last →
    (route.durationSeconds : Int) = (last.departureTimeSeconds : Int) - vehicle.availableFromSeconds

/-- How often a result lists an order as unassigned. -/
def SolverResult.unassignedCount (result : SolverResult) (orderId : UUID) : Nat :=
  (result.unassignedOrders.map (·.orderId)).count orderId

/-- Every order is unassigned exactly once, or served on exactly one route. -/
def Accounted (result : SolverResult) (order : SolverOrder) : Prop :=
  (result.unassignedCount order.orderId = 1 ∧
    ∀ route ∈ result.routes, ¬ route.Visits order.orderId) ∨
  (result.unassignedCount order.orderId = 0 ∧ ∃ route ∈ result.routes, ServedOn order route ∧
    ∀ other ∈ result.routes, other.Visits order.orderId → other = route)

/-- A feasible routing of the input, except that a route without any stop is let through
with whatever distance and duration it declares. -/
structure RoutingUpToEmptyRoutes (input : SolverInput) (result : SolverResult) : Prop where
  drivable : ∀ route ∈ result.routes, ∃ vehicle ∈ input.vehicles,
    vehicle.vehicleId = route.vehicleId ∧ Drivable input vehicle route ∧
      (route.stops ≠ [] → DeclaresTotals input vehicle route)
  vehicles : (result.routes.map (·.vehicleId)).Nodup
  known : ∀ route ∈ result.routes, ∀ stop ∈ route.stops,
    ∃ order ∈ input.orders, order.orderId = stop.orderId
  knownUnassigned : ∀ u ∈ result.unassignedOrders,
    ∃ order ∈ input.orders, order.orderId = u.orderId
  accounted : ∀ order ∈ input.orders, Accounted result order
  frozen : ∀ task ∈ input.frozenTasks, ∃ route ∈ result.routes,
    route.vehicleId = task.vehicleId ∧ task.stop ∈ route.stops
  totalDistance : result.totalDistanceMeters = (result.routes.map (·.distanceMeters)).sum
  totalDuration : result.totalDurationSeconds = (result.routes.map (·.durationSeconds)).sum

/-- A feasible routing of the input: every route has a stop and declares the distance and
duration of its own stops. -/
structure FeasibleRouting (input : SolverInput) (result : SolverResult) : Prop where
  drivable : ∀ route ∈ result.routes, ∃ vehicle ∈ input.vehicles,
    vehicle.vehicleId = route.vehicleId ∧ Drivable input vehicle route ∧
      DeclaresTotals input vehicle route
  nonempty : ∀ route ∈ result.routes, route.stops ≠ []
  vehicles : (result.routes.map (·.vehicleId)).Nodup
  known : ∀ route ∈ result.routes, ∀ stop ∈ route.stops,
    ∃ order ∈ input.orders, order.orderId = stop.orderId
  knownUnassigned : ∀ u ∈ result.unassignedOrders,
    ∃ order ∈ input.orders, order.orderId = u.orderId
  accounted : ∀ order ∈ input.orders, Accounted result order
  frozen : ∀ task ∈ input.frozenTasks, ∃ route ∈ result.routes,
    route.vehicleId = task.vehicleId ∧ task.stop ∈ route.stops
  totalDistance : result.totalDistanceMeters = (result.routes.map (·.distanceMeters)).sum
  totalDuration : result.totalDurationSeconds = (result.routes.map (·.durationSeconds)).sum

/-- Results that leave no route empty. -/
def SolverResult.NoEmptyRoute (result : SolverResult) : Prop :=
  ∀ route ∈ result.routes, route.stops ≠ []

/-- Without empty routes the two notions agree. -/
theorem feasibleRouting_iff (input : SolverInput) (result : SolverResult) :
    FeasibleRouting input result ↔
      RoutingUpToEmptyRoutes input result ∧ result.NoEmptyRoute := by
  constructor
  · intro h
    refine ⟨⟨?_, h.vehicles, h.known, h.knownUnassigned, h.accounted, h.frozen,
      h.totalDistance, h.totalDuration⟩, h.nonempty⟩
    intro route hr
    obtain ⟨v, hv, he, hd, ht⟩ := h.drivable route hr
    exact ⟨v, hv, he, hd, fun _ ↦ ht⟩
  · rintro ⟨h, hn⟩
    refine ⟨?_, hn, h.vehicles, h.known, h.knownUnassigned, h.accounted, h.frozen,
      h.totalDistance, h.totalDuration⟩
    intro route hr
    obtain ⟨v, hv, he, hd, ht⟩ := h.drivable route hr
    exact ⟨v, hv, he, hd, ht (hn route hr)⟩

/-- A stop of a served order is its origin or its delivery. -/
theorem ServedOn.stop_cases {order : SolverOrder} {route : SolverRoute}
    (h : ServedOn order route) {stop : SolverStop} (hs : stop ∈ route.stops)
    (ho : stop.orderId = order.orderId) : OriginStop order stop ∨ DeliveryStop order stop := by
  have hm : stop ∈ route.stopsOf order.orderId :=
    List.mem_filter.mpr ⟨hs, by simpa using ho⟩
  rcases h with ⟨origin, delivery, he, hO, hD⟩ | ⟨-, -, delivery, he, hD⟩
  · rw [he] at hm
    rcases (by simpa using hm : stop = origin ∨ stop = delivery) with rfl | rfl
    · exact .inl hO
    · exact .inr hD
  · rw [he] at hm
    rw [List.mem_singleton.mp hm]
    exact .inr hD

/-- A served order has its delivery on the route. -/
theorem ServedOn.delivery {order : SolverOrder} {route : SolverRoute} (h : ServedOn order route) :
    ∃ stop ∈ route.stops, stop.orderId = order.orderId ∧ DeliveryStop order stop := by
  have key (stop : SolverStop) (hm : stop ∈ route.stopsOf order.orderId) :
      stop ∈ route.stops ∧ stop.orderId = order.orderId := by
    simpa [SolverRoute.stopsOf] using hm
  rcases h with ⟨origin, delivery, he, -, hD⟩ | ⟨-, -, delivery, he, hD⟩
  · obtain ⟨hs, ho⟩ := key delivery (by simp [he])
    exact ⟨delivery, hs, ho, hD⟩
  · obtain ⟨hs, ho⟩ := key delivery (by simp [he])
    exact ⟨delivery, hs, ho, hD⟩

/-- A served order is visited. -/
theorem ServedOn.visits {order : SolverOrder} {route : SolverRoute} (h : ServedOn order route) :
    route.Visits order.orderId := by
  obtain ⟨stop, hs, ho, -⟩ := h.delivery
  exact ⟨stop, hs, ho⟩

/-- Every stop of an accepted routing serves its order as origin or as delivery. -/
theorem RoutingUpToEmptyRoutes.stop_cases {input : SolverInput} {result : SolverResult}
    (h : RoutingUpToEmptyRoutes input result) {route : SolverRoute} (hr : route ∈ result.routes)
    {stop : SolverStop} (hs : stop ∈ route.stops) :
    ∃ order ∈ input.orders, order.orderId = stop.orderId ∧ ServedOn order route ∧
      (OriginStop order stop ∨ DeliveryStop order stop) := by
  obtain ⟨order, ho, he⟩ := h.known route hr stop hs
  have hv : route.Visits order.orderId := ⟨stop, hs, he.symm⟩
  rcases h.accounted order ho with ⟨-, hn⟩ | ⟨-, r, -, hsv, hu⟩
  · exact absurd hv (hn route hr)
  · have hrr := hu route hr hv
    rw [← hrr] at hsv
    exact ⟨order, ho, he, hsv, hsv.stop_cases hs he.symm⟩

end PenroseRoute.Optimization
