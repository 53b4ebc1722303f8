import PenroseRoute.Optimization.ResultValidator
import PenroseRoute.Recovery.Context

/-!
# Solving a recovery context

Models `backend/app/modules/recovery/deterministic_orchestration.py`: the solver input of a
context, and the single solve and validation of one attempt. The routing provider and the
solver are parameters: every property below holds whatever they answer.
-/

namespace PenroseRoute.Recovery

open PenroseRoute.Db PenroseRoute.Lib PenroseRoute.Operations PenroseRoute.Optimization

/-- `RoutingMatrix`. -/
structure RoutingMatrix where
  locationIds : List UUID
  distanceMatrixMeters : List (List Nat)
  durationMatrixSeconds : List (List Nat)
  deriving DecidableEq, Repr

/-- `RoadRoute`, `osrm.py:14`; its duration is not read here. -/
structure RoadRoute where
  geometry : String
  legEndIndices : List Nat
  distanceMeters : Nat
  deriving DecidableEq, Repr

/-- The services that a recovery calls outside its transactions: `build_distance_time_matrix`,
`ORToolsSolver().solve`, and the `build_route` of a provider that has one. `solve` returns a result
with its status; where it would raise, the workflows do what they do when the matrix raises. -/
structure Services where
  buildDistanceTimeMatrix : List UUID → Except AppError RoutingMatrix
  solve : SolverInput → SolverResult
  buildRoute : Option (List UUID → Except AppError RoadRoute)

/-- `OrchestrationResult`, `deterministic_orchestration.py:23`. -/
structure OrchestrationResult where
  solverInput : SolverInput
  solverResult : SolverResult
  validationIssues : List ValidationIssue
  deriving DecidableEq, Repr

/-- A dataclass check raises a `ValueError`. -/
def valueError {α : Type} : Except String α → Except AppError α
  | .ok a => .ok a
  | .error _ => .error (.uncaught "ValueError")

/-- A result is passed on. -/
@[simp] theorem valueError_eq_ok {α : Type} (x : Except String α) (a : α) :
    valueError x = .ok a ↔ x = .ok a := by
  cases x <;> simp [valueError]

/-- `seconds`, `deterministic_orchestration.py:58`: whole seconds from now, never negative. -/
def seconds (currentTime value : Instant) : Nat := (totalSeconds (value - currentTime)).toNat

/-- The `SolverOrder` fields of a target order, `deterministic_orchestration.py:65`. -/
def solverOrderFields (currentTime : Instant) (order : RecoveryOrderFact) :
    SolverOrderFields where
  orderId := order.orderId
  pickupLocationId :=
    if order.handoverRequired || order.deliveryOnly then none else some order.pickupLocationId
  handoverLocationId := if order.handoverRequired then order.handoverLocationId else none
  deliveryLocationId := order.deliveryLocationId
  readyTimeSeconds := if order.handoverRequired then 0 else seconds currentTime order.pickupReadyAt
  deliveryWindowStartSeconds := seconds currentTime order.deliveryWindowStartAt
  deliveryWindowEndSeconds := seconds currentTime order.deliveryWindowEndAt
  pickupServiceSeconds :=
    if order.handoverRequired || order.deliveryOnly then 0 else order.pickupServiceSeconds
  handoverServiceSeconds := if order.handoverRequired then order.pickupServiceSeconds else 0
  deliveryServiceSeconds := order.deliveryServiceSeconds
  demandLoadUnits := order.demandLoadUnits
  requiredVehicleId := order.requiredVehicleId

/-- The `SolverVehicle` fields of a usable vehicle, `deterministic_orchestration.py:100`. -/
def solverVehicleFields (currentTime : Instant) (vehicle : RecoveryVehicleFact) :
    SolverVehicleFields where
  vehicleId := vehicle.vehicleId
  capacityLoadUnits := vehicle.capacityLoadUnits
  startLocationId := vehicle.startLocationId
  availableFromSeconds := seconds currentTime vehicle.availableFrom
  availableUntilSeconds := seconds currentTime vehicle.availableUntil
  initialLoadLoadUnits := vehicle.initialLoadLoadUnits

/-- `build_recovery_solver_input`, `deterministic_orchestration.py:57`. -/
def buildRecoverySolverInput (context : RecoveryContext) (matrix : RoutingMatrix) :
    Except AppError SolverInput := do
  let orders ← context.targetOrders.mapM fun order ↦
    valueError (SolverOrder.make (solverOrderFields context.currentTime order))
  let vehicles ← context.vehicles.mapM fun vehicle ↦
    valueError (SolverVehicle.make (solverVehicleFields context.currentTime vehicle))
  valueError (SolverInput.make {
    businessDate := context.businessDate
    currentTime := context.currentTime
    orders := orders
    vehicles := vehicles
    frozenTasks := []
    recoveryScope := some context.scope
    locationIds := matrix.locationIds
    distanceMatrixMeters := matrix.distanceMatrixMeters
    durationMatrixSeconds := matrix.durationMatrixSeconds })

/-- A result without routes. -/
def infeasible (diagnostic : String) : SolverResult where
  status := .infeasible
  routes := []
  unassignedOrders := []
  totalDistanceMeters := 0
  totalDurationSeconds := 0
  diagnostic := some diagnostic

/-- The `missing_vehicle_ids` are not empty, `deterministic_orchestration.py:35`. -/
def missesVehicle (input : SolverInput) : Bool :=
  input.orders.any fun order ↦ order.requiredVehicleId.any fun vehicleId ↦
    !(input.vehicles.map (·.vehicleId)).contains vehicleId

/-- `_require_all_recovery_orders_assigned`, `deterministic_orchestration.py:118`. -/
def requireAllRecoveryOrdersAssigned (result : SolverResult) : SolverResult :=
  if result.status ≠ .feasible then result
  else if result.unassignedOrders = [] then result
  else infeasible ("Recovery requires every scoped order to be assigned; " ++
    toString result.unassignedOrders.length ++ " remained unassigned")

/-- `execute_recovery`, `deterministic_orchestration.py:29`. -/
def executeRecovery (services : Services) (context : RecoveryContext) :
    Except AppError OrchestrationResult := do
  let matrix ← services.buildDistanceTimeMatrix context.locations
  let input ← buildRecoverySolverInput context matrix
  if missesVehicle input then
    return ⟨input, infeasible "Onboard orders have no available vehicle-driver pair", []⟩
  else
    let result := requireAllRecoveryOrdersAssigned (services.solve input)
    return ⟨input, result, SolverResultValidator.validate input result⟩

/-- The input of a context has its orders, its vehicles and no frozen task. -/
theorem buildRecoverySolverInput_ok {context : RecoveryContext} {matrix : RoutingMatrix}
    {input : SolverInput} (h : buildRecoverySolverInput context matrix = .ok input) :
    input.orders.map (·.toSolverOrderFields) =
        context.targetOrders.map (solverOrderFields context.currentTime) ∧
      input.vehicles.map (·.toSolverVehicleFields) =
        context.vehicles.map (solverVehicleFields context.currentTime) ∧
      input.frozenTasks = [] := by
  obtain ⟨orders, ho, h⟩ := bind_eq_ok.mp h
  obtain ⟨vehicles, hv, h⟩ := bind_eq_ok.mp h
  have hfields := SolverInput.make_ok ((valueError_eq_ok _ _).mp h)
  refine ⟨?_, ?_, by rw [hfields]⟩
  · rw [hfields]
    exact map_eq_of_mapM (fun _ _ hm ↦ SolverOrder.make_ok ((valueError_eq_ok _ _).mp hm)) ho
  · rw [hfields]
    exact map_eq_of_mapM (fun _ _ hm ↦ SolverVehicle.make_ok ((valueError_eq_ok _ _).mp hm)) hv

end PenroseRoute.Recovery
