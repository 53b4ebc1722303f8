import PenroseRoute.Lib.Python

/-!
# The validator of the first solver

`app/integrations/optimization/solver.py`. The payload is the one that the planning and recovery
services build; the solution is whatever JSON the solver returns, so `validate` reads it key by key
and turns every exception that it expects into the report INVALID.
-/

namespace PenroseRoute.Optimization.Solver

open Lib Lib.Python

/-! ### Payload -/

/-- An order of the payload; locations are rows of the matrices, times are epoch seconds. -/
structure Order where
  id : String
  pickup : Option Int
  pickupKind : Option String
  pickupService : Nat
  delivery : Int
  deliveryService : Nat
  ready : Int
  windowStart : Int
  deadline : Int
  demand : Int
  allowedVehicleIds : List String
  deriving DecidableEq, Repr

/-- A vehicle of the payload. -/
structure Vehicle where
  id : String
  location : Int
  capacity : Int
  start : Int
  «end» : Int
  initialLoad : Option Int
  deriving DecidableEq, Repr

/-- The payload of `solve` and `validate`. -/
structure Payload where
  orders : List Order
  vehicles : List Vehicle
  distanceMatrix : List (List Int)
  durationMatrix : List (List Int)
  deriving DecidableEq, Repr

/-- `o.get("pickup_kind", "PICKUP")`. -/
def Order.pickupKindOrDefault (o : Order) : String := o.pickupKind.getD "PICKUP"

/-- `v.get("initial_load", 0)`. -/
def Vehicle.loadAtStart (v : Vehicle) : Int := v.initialLoad.getD 0

/-- A square matrix without negative entries. -/
structure SquareNonNegative (matrix : List (List Int)) : Prop where
  square : ∀ row ∈ matrix, row.length = matrix.length
  nonNegative : ∀ row ∈ matrix, ∀ entry ∈ row, 0 ≤ entry

/-- What the services promise of the payload. -/
structure Payload.Contract (data : Payload) : Prop where
  orderIds : (data.orders.map (·.id)).Nodup
  vehicleIds : (data.vehicles.map (·.id)).Nodup
  distances : SquareNonNegative data.distanceMatrix
  durations : SquareNonNegative data.durationMatrix
  pickupKinds : ∀ o ∈ data.orders, o.pickupKindOrDefault ≠ "DELIVERY"

/-! ### Report -/

/-- `VerifiedSummary`, as far as `validate` fills it. -/
structure VerifiedSummary where
  assignedOrderCount : Nat
  changedRouteCount : Nat
  totalDistanceMeters : Nat
  totalDurationSeconds : Nat
  deriving DecidableEq, Repr

/-- `ValidationReport`. -/
inductive ValidationReport where
  | valid (summary : VerifiedSummary)
  | invalid (diagnosticCode : String)
  deriving DecidableEq, Repr

/-- How the report's model reads a number into a field of non-negative integers: it takes over the
value or refuses it. -/
structure IntegerField where
  read : Number → Option Nat
  exact : ∀ n k, read n = some k → n.equals (.int k) = true

/-! ### Validation -/

/-- solver.py:124–126. -/
def require (condition : Bool) : Except Exception Unit :=
  if condition then .ok () else .error .valueError

/-- A requirement passes when it holds. -/
@[simp] theorem require_eq_ok {condition : Bool} :
    require condition = .ok () ↔ condition = true := by
  cases condition <;> simp [require]

/-- A value that is required to be equal to a number is one. -/
def requireEqual (value : Json) (n : Number) : Except Exception Number :=
  match value.number with
  | .ok m => if m.equals n then .ok m else .error .valueError
  | .error _ => .error .valueError

/-- `orders[key]`. -/
def Payload.order (data : Payload) (key : Key) : Except Exception Order :=
  match data.orders.find? fun o ↦ key.equals (.text o.id) with
  | some o => .ok o
  | none => .error .keyError

/-- `vehicles[key]`. -/
def Payload.vehicle (data : Payload) (key : Key) : Except Exception Vehicle :=
  match data.vehicles.find? fun v ↦ key.equals (.text v.id) with
  | some v => .ok v
  | none => .error .keyError

/-- `matrix[a][b]`. -/
def cell (matrix : List (List Int)) (a b : Json) : Except Exception Int := do
  let row ← listItem matrix (← a.index)
  listItem row (← b.index)

/-- The tasks seen so far, by order and kind, with their vehicles. -/
abbrev Seen := List ((String × Key) × Key)

/-- `seen.get((orderId, kind)) == vid`. -/
def Seen.servedBy (seen : Seen) (orderId kind : String) (vid : Key) : Bool :=
  match seen.find? fun entry ↦ entry.1.1 == orderId && (Key.text kind).equals entry.1.2 with
  | some entry => entry.2.equals vid
  | none => false

/-- What a stop does to its order: when it may start, how long it takes and what it loads. -/
structure Task where
  earliest : Int
  service : Nat
  load : Int
  deriving DecidableEq, Repr

/-- The branches on the kind of a stop, solver.py:149–158. -/
def stopTask (o : Order) (vid kind : Key) (seen : Seen) (stop : Json) : Except Exception Task :=
  if kind.equals (.text o.pickupKindOrDefault) then
    match o.pickup with
    | none => .error .valueError
    | some pickup => do
      require ((← stop.getItem "location").equals (.int pickup))
      return ⟨o.ready, o.pickupService, o.demand⟩
  else if kind.equals (.text "DELIVERY") then do
    require ((← stop.getItem "location").equals (.int o.delivery))
    require (o.pickup.isNone || seen.servedBy o.id o.pickupKindOrDefault vid)
    return ⟨o.windowStart, o.deliveryService, -o.demand⟩
  else .error .valueError

/-- The running variables of a route. -/
structure Cursor where
  previousTime : Number
  location : Json
  load : Int
  meters : Int
  seen : Seen

/-- The body of the loop over the stops, solver.py:143–163. -/
def checkStop (data : Payload) (vid : Key) (v : Vehicle) (c : Cursor) (stop : Json) :
    Except Exception Cursor := do
  let o ← data.order (← (← stop.getItem "order_id").hash)
  require (o.allowedVehicleIds.any fun id ↦ vid.equals (.text id))
  let kind ← (← stop.getItem "kind").hash
  require (!c.seen.any fun entry ↦ entry.1.1 == o.id && kind.equals entry.1.2)
  let seen := c.seen ++ [((o.id, kind), vid)]
  let task ← stopTask o vid kind seen stop
  let load := c.load + task.load
  require (decide (0 ≤ load) && decide (load ≤ v.capacity))
  let location ← stop.getItem "location"
  let reached ← c.previousTime.add (.int (← cell data.durationMatrix c.location location))
  let arrival ← (← stop.getItem "arrival").number
  require (((Number.int task.earliest).max reached).le arrival && arrival.le (.int o.deadline))
  let departure ← requireEqual (← stop.getItem "departure") (← arrival.add (.int task.service))
  let meters ← cell data.distanceMatrix c.location location
  return ⟨departure, location, load, c.meters + meters, seen⟩

/-- The variables of the loop over the routes. -/
structure Totals where
  seen : Seen
  used : List Key
  totalDistance : Int
  totalDuration : Number

/-- The body of the loop over the routes, solver.py:135–167. -/
def checkRoute (data : Payload) (t : Totals) (route : Json) : Except Exception Totals := do
  let vid ← (← route.getItem "vehicle_id").hash
  require (!t.used.any fun other ↦ vid.equals other)
  let v ← data.vehicle vid
  let start ← (← route.getItem "start").number
  require ((Number.int v.start).le start && start.le (.int v.end) &&
    (decide (0 ≤ v.loadAtStart) && decide (v.loadAtStart ≤ v.capacity)))
  let stops ← (← route.getItem "stops").iter
  let c ← stops.foldlM (checkStop data vid v) ⟨start, .int v.location, v.loadAtStart, 0, t.seen⟩
  require (c.load == 0)
  let finish ← requireEqual (← route.getItem "end") c.previousTime
  require (finish.le (.int v.end))
  let _ ← requireEqual (← route.getItem "distance_meters") (.int c.meters)
  let duration ← requireEqual (← route.getItem "duration_seconds") (← finish.sub start)
  return ⟨c.seen, t.used ++ [vid], t.totalDistance + c.meters, ← t.totalDuration.add duration⟩

/-- Every order is delivered and, when it has an origin, collected; solver.py:168–171. -/
def requireServed (seen : Seen) (o : Order) : Except Exception Unit := do
  let served := fun kind ↦
    seen.any fun entry ↦ entry.1.1 == o.id && (Key.text kind).equals entry.1.2
  require (served "DELIVERY")
  require (o.pickup.isNone || served o.pickupKindOrDefault)

/-- The value of a summary field. -/
def IntegerField.get (field : IntegerField) (n : Number) : Except Exception Nat :=
  match field.read n with
  | some k => .ok k
  | none => .error .valueError

/-- The `try` block of `validate`. -/
def check (field : IntegerField) (data : Payload) (solutionPayload : Option Json) :
    Except Exception VerifiedSummary := do
  let output ← match solutionPayload with
    | some output => pure output
    | none => .error .typeError
  let routes ← output.getItem "routes"
  let t ← (← routes.iter).foldlM (checkRoute data) ⟨[], [], 0, .int 0⟩
  data.orders.forM (requireServed t.seen)
  return {
    assignedOrderCount := data.orders.length
    changedRouteCount := ← routes.len
    totalDistanceMeters := ← field.get (.int t.totalDistance)
    totalDurationSeconds := ← field.get t.totalDuration }

/-- `validate`, solver.py:129–176: of the exceptions only the overflow is not caught. -/
def validate (field : IntegerField) (data : Payload) (solutionPayload : Option Json) :
    Except Exception ValidationReport :=
  match check field data solutionPayload with
  | .ok summary => .ok (.valid summary)
  | .error (.overflowError n) => .error (.overflowError n)
  | .error _ => .ok (.invalid "CONSTRAINT_VALIDATION_FAILED")

end PenroseRoute.Optimization.Solver
