import PenroseRoute.Optimization.Solver

/-!
# Feasible solutions of the payload

What `validate` is for: the solution, read as routes with numbers for their times, performs every
order of the payload once and keeps to capacities, windows and travel times. Times may be doubles,
so the conditions say in which arithmetic their sums are taken.
-/

namespace PenroseRoute.Optimization.Solver

open Lib Lib.Python

/-! ### Solutions -/

/-- A stop of a solution. -/
structure Stop where
  orderId : String
  kind : String
  location : Int
  arrival : Number
  departure : Number
  deriving DecidableEq

/-- A route of a solution. -/
structure Route where
  vehicleId : String
  start : Number
  «end» : Number
  distanceMeters : Number
  durationSeconds : Number
  stops : List Stop
  deriving DecidableEq

/-- The JSON of a stop. -/
structure ReadsStop (json : Json) (stop : Stop) : Prop where
  orderId : json.getItem "order_id" = .ok (.str stop.orderId)
  kind : json.getItem "kind" = .ok (.str stop.kind)
  location : ∃ value, json.getItem "location" = .ok value ∧ value.index = .ok stop.location
  arrival : ∃ value, json.getItem "arrival" = .ok value ∧ value.number = .ok stop.arrival
  departure : ∃ value, json.getItem "departure" = .ok value ∧ value.number = .ok stop.departure

/-- The JSON of a route. -/
structure ReadsRoute (json : Json) (route : Route) : Prop where
  vehicleId : json.getItem "vehicle_id" = .ok (.str route.vehicleId)
  start : ∃ value, json.getItem "start" = .ok value ∧ value.number = .ok route.start
  «end» : ∃ value, json.getItem "end" = .ok value ∧ value.number = .ok route.end
  distanceMeters : ∃ value, json.getItem "distance_meters" = .ok value ∧
    value.number = .ok route.distanceMeters
  durationSeconds : ∃ value, json.getItem "duration_seconds" = .ok value ∧
    value.number = .ok route.durationSeconds
  stops : ∃ value items, json.getItem "stops" = .ok value ∧ value.iter = .ok items ∧
    List.Forall₂ ReadsStop items route.stops

/-- The JSON of a solution. -/
def ReadsSolution (json : Json) (routes : List Route) : Prop :=
  ∃ value items, json.getItem "routes" = .ok value ∧ value.iter = .ok items ∧
    List.Forall₂ ReadsRoute items routes

/-! ### Arithmetic of times -/

/-- How the sums and differences of times are taken. -/
structure Arithmetic where
  plus : Number → Number → Option Quantity
  minus : Number → Number → Option Quantity
  total : List Number → Option Quantity

/-- Python's arithmetic: exact on integers, rounded to doubles otherwise. -/
def pythonArithmetic : Arithmetic where
  plus a b := (a.add b).toOption.bind (·.value)
  minus a b := (a.sub b).toOption.bind (·.value)
  total ns := (ns.foldlM Number.add (.int 0)).toOption.bind (·.value)

/-- The finite value of a number. -/
def rational? (n : Number) : Option Rat :=
  match n.value with
  | some (.rational q) => some q
  | _ => none

/-- Exact arithmetic. -/
def exactArithmetic : Arithmetic where
  plus a b := return .rational ((← rational? a) + (← rational? b))
  minus a b := return .rational ((← rational? a) - (← rational? b))
  total ns := return .rational (← ns.mapM rational?).sum

/-! ### Feasibility -/

/-- What a stop of an order may be. -/
structure OrderTask where
  kind : String
  location : Int
  earliest : Int
  service : Nat
  load : Int
  deriving DecidableEq

/-- Collecting the order, when the payload gives it an origin. -/
def Order.originTask (o : Order) : Option OrderTask :=
  o.pickup.map fun location ↦
    ⟨o.pickupKindOrDefault, location, o.ready, o.pickupService, o.demand⟩

/-- Delivering the order. -/
def Order.deliveryTask (o : Order) : OrderTask :=
  ⟨"DELIVERY", o.delivery, o.windowStart, o.deliveryService, -o.demand⟩

/-- All that has to be done for an order, in its order. -/
def Order.tasks (o : Order) : List OrderTask := o.originTask.toList ++ [o.deliveryTask]

/-- Where a vehicle is and what it carries. -/
structure Position where
  time : Number
  location : Int
  load : Int

/-- The entry of a matrix for the way from one location to another. -/
def travels (matrix : List (List Int)) (a b n : Int) : Prop :=
  ∃ row, listItem matrix a = .ok row ∧ listItem row b = .ok n

variable (arithmetic : Arithmetic) (data : Payload)

/-- One stop of a vehicle: a task of an order that it may serve, at a time that the way, the ready
time or window start, and the deadline allow, with a load that fits. -/
structure Leg (v : Vehicle) (p : Position) (stop : Stop) (meters : Int) (q : Position) : Prop where
  task : ∃ o ∈ data.orders, o.id = stop.orderId ∧ v.id ∈ o.allowedVehicleIds ∧
    ∃ task ∈ o.tasks, task.kind = stop.kind ∧ task.location = stop.location ∧
      (Number.int task.earliest).le stop.arrival = true ∧ stop.arrival.le (.int o.deadline) = true ∧
      (∃ departure, arithmetic.plus stop.arrival (.int task.service) = some departure ∧
        stop.departure.value = some departure) ∧
      q.load = p.load + task.load
  travel : ∃ seconds reached arrival, travels data.durationMatrix p.location stop.location seconds ∧
    arithmetic.plus p.time (.int seconds) = some reached ∧ stop.arrival.value = some arrival ∧
      reached.le arrival = true
  distance : travels data.distanceMatrix p.location stop.location meters
  time : q.time = stop.departure
  location : q.location = stop.location
  load : 0 ≤ q.load ∧ q.load ≤ v.capacity

/-- The stops of a vehicle one after the other, with the distance between them. -/
inductive Drives (v : Vehicle) : Position → List Stop → Int → Position → Prop where
  | done (p : Position) : Drives v p [] 0 p
  | leg {p q r : Position} {stop : Stop} {rest : List Stop} {meters further : Int} :
      Leg arithmetic data v p stop meters q → Drives v q rest further r →
        Drives v p (stop :: rest) (meters + further) r

/-- A route that its vehicle can drive within its availability, empty at the end. -/
structure FeasibleRoute (v : Vehicle) (route : Route) (meters : Int) : Prop where
  vehicle : v ∈ data.vehicles ∧ v.id = route.vehicleId
  starts : (Number.int v.start).le route.start = true ∧ route.start.le (.int v.end) = true
  loadAtStart : 0 ≤ v.loadAtStart ∧ v.loadAtStart ≤ v.capacity
  drives : ∃ last, Drives arithmetic data v ⟨route.start, v.location, v.loadAtStart⟩ route.stops
    meters last ∧ last.load = 0 ∧ route.end.equals last.time = true
  ends : route.end.le (.int v.end) = true
  distance : route.distanceMeters.equals (.int meters) = true
  duration : ∃ d, arithmetic.minus route.end route.start = some d ∧
    route.durationSeconds.value = some d

/-- An order is served by one route, which performs its tasks in their order. -/
def Served (routes : List Route) (o : Order) : Prop :=
  ∃ route ∈ routes, route.vehicleId ∈ o.allowedVehicleIds ∧
    (route.stops.filter (·.orderId == o.id)).map (·.kind) = o.tasks.map (·.kind) ∧
    ∀ other ∈ routes, other.vehicleId ≠ route.vehicleId → ∀ stop ∈ other.stops, stop.orderId ≠ o.id

/-- A feasible routing of the payload, with the summary's totals. -/
structure Feasible (routes : List Route) (summary : VerifiedSummary) : Prop where
  vehicles : (routes.map (·.vehicleId)).Nodup
  served : ∀ o ∈ data.orders, Served routes o
  drivable : ∃ meters : List Int, List.Forall₂ (fun route m ↦
      ∃ v, FeasibleRoute arithmetic data v route m) routes meters ∧
    (summary.totalDistanceMeters : Int) = meters.sum
  duration : arithmetic.total (routes.map (·.durationSeconds)) =
    some (.rational summary.totalDurationSeconds)
  assigned : summary.assignedOrderCount = data.orders.length
  changed : summary.changedRouteCount = routes.length

end PenroseRoute.Optimization.Solver
