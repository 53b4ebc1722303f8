import PenroseRoute.Recovery.Orchestration

/-!
# Planning facts

Models `backend/app/modules/planning/input_builder.py` and the `_load_facts` of
`workflow.py`: the facts that a plan is made of, read from the database, and the solver input
made of them. A location is its id, as in a recovery context.
-/

namespace PenroseRoute.Planning

open PenroseRoute.Db PenroseRoute.Lib PenroseRoute.Operations PenroseRoute.Optimization
open PenroseRoute.Recovery

/-- `PlanningOrderFact`, `input_builder.py:19`. -/
structure PlanningOrderFact where
  orderId : UUID
  orderCode : String
  businessDate : BusinessDate
  merchantId : UUID
  customerId : UUID
  pickupLocationId : UUID
  deliveryLocationId : UUID
  pickupReadyAt : Instant
  pickupServiceSeconds : Nat
  deliveryWindowStartAt : Instant
  deliveryWindowEndAt : Instant
  deliveryServiceSeconds : Nat
  demandLoadUnits : Nat
  executionStatus : OrderExecutionStatus
  deriving DecidableEq, Repr

/-- `VehicleDriverPairFact`, `input_builder.py:37`. -/
structure VehicleDriverPairFact where
  assignmentId : UUID
  vehicleId : UUID
  driverId : UUID
  capacityLoadUnits : Nat
  startLocationId : UUID
  assignedFromAt : Instant
  assignedUntilAt : Option Instant
  assignmentStatus : AssignmentStatus
  vehicleStatus : ResourceStatus
  driverStatus : ResourceStatus
  deriving DecidableEq, Repr

/-- `PlanningFacts`, `input_builder.py:51`. -/
structure PlanningFacts where
  businessDate : BusinessDate
  currentTime : Instant
  orders : List PlanningOrderFact
  vehicleDriverPairs : List VehicleDriverPairFact
  locations : List UUID
  deriving DecidableEq, Repr

/-! ### Materialised facts -/

/-- `datetime.combine(business_date, time.min, timezone.utc)`: 719163 is the ordinal of the
first day of the epoch. -/
def startOfDay (businessDate : BusinessDate) : Instant :=
  timedelta (((businessDate : Int) - 719163) * 86400)

/-- The fact of one order, `input_builder.py:64`. -/
def planningOrderFact (order : Order) : PlanningOrderFact where
  orderId := order.id
  orderCode := order.orderCode
  businessDate := order.businessDate
  merchantId := order.merchantId
  customerId := order.customerId
  pickupLocationId := order.pickupLocationId
  deliveryLocationId := order.deliveryLocationId
  pickupReadyAt := order.pickupReadyAt
  pickupServiceSeconds := order.pickupServiceSeconds
  deliveryWindowStartAt := order.deliveryWindowStartAt
  deliveryWindowEndAt := order.deliveryWindowEndAt
  deliveryServiceSeconds := order.deliveryServiceSeconds
  demandLoadUnits := order.demandLoadUnits
  executionStatus := order.executionStatus

/-- The fact of one usable assignment, `input_builder.py:90`. -/
def vehicleDriverPairFact : VehicleDriverAssignment × Vehicle × Driver → VehicleDriverPairFact
  | (assignment, vehicle, driver) => {
    assignmentId := assignment.id
    vehicleId := assignment.vehicleId
    driverId := assignment.driverId
    capacityLoadUnits := vehicle.capacityLoadUnits
    startLocationId := vehicle.currentLocationId
    assignedFromAt := assignment.assignedFromAt
    assignedUntilAt := assignment.assignedUntilAt
    assignmentStatus := assignment.status
    vehicleStatus := vehicle.status
    driverStatus := driver.status }

/-- The `usable_assignments`, `input_builder.py:83`. -/
def usableAssignments (assignments : List (VehicleDriverAssignment × Vehicle × Driver)) :
    List (VehicleDriverAssignment × Vehicle × Driver) :=
  assignments.filter fun (_, vehicle, driver) ↦
    vehicle.status == .available && driver.status == .available

/-- The `time_candidates`, `input_builder.py:129`. -/
def timeCandidates (orders : List PlanningOrderFact) (pairs : List VehicleDriverPairFact) :
    List Instant :=
  orders.map (·.pickupReadyAt) ++ orders.map (·.deliveryWindowStartAt) ++
    pairs.map (·.assignedFromAt)

/-- `materialize_planning_facts`, `input_builder.py:59`. -/
def materializePlanningFacts (businessDate : BusinessDate) (orders : List Order)
    (assignments : List (VehicleDriverAssignment × Vehicle × Driver)) : PlanningFacts :=
  let orderFacts := orders.map planningOrderFact
  let usable := usableAssignments assignments
  let pairFacts := usable.map vehicleDriverPairFact
  let ofOrders := orders.flatMap fun order ↦ [order.pickupLocationId, order.deliveryLocationId]
  let ofVehicles := usable.map fun (_, vehicle, _) ↦ vehicle.currentLocationId
  { businessDate := businessDate
    currentTime := (timeCandidates orderFacts pairFacts).min?.getD (startOfDay businessDate)
    orders := orderFacts
    vehicleDriverPairs := pairFacts
    locations := (ofOrders ++ ofVehicles).eraseDups }

/-- `get_orders_for_business_date`, `resource_repository.py:15`, by order code. -/
def ordersForBusinessDate (db : Database) (businessDate : BusinessDate) : List Order :=
  (db.orders.filter (·.businessDate == businessDate)).insertionSort
    fun a b ↦ a.orderCode ≤ b.orderCode

/-- The `operational_from` of `_load_facts`, `workflow.py:188`. -/
def operationalFrom (businessDate : BusinessDate) (orders : List Order) : Instant :=
  (orders.map (·.pickupReadyAt)).min?.getD (startOfDay businessDate)

/-- The `operational_until` of `_load_facts`, `workflow.py:192`. -/
def operationalUntil (businessDate : BusinessDate) (orders : List Order) : Instant :=
  (orders.map fun order ↦
    order.deliveryWindowEndAt + timedelta order.deliveryServiceSeconds).max?.getD
      (operationalFrom businessDate orders)

/-- `_load_facts`, `workflow.py:185`. -/
def loadFacts (db : Database) (businessDate : BusinessDate) : PlanningFacts :=
  let orders := ordersForBusinessDate db businessDate
  materializePlanningFacts businessDate orders
    (vehicleDriverPairsForWindow db (operationalFrom businessDate orders)
      (operationalUntil businessDate orders))

/-! ### The solver input -/

/-- `seconds_from_current`, `input_builder.py:152`, as the contract takes it: a negative offset
raises in `_require_non_negative`. -/
def secondsFromCurrent (facts : PlanningFacts) (value : Instant) : Except AppError Nat :=
  let offset := totalSeconds (value - facts.currentTime)
  if offset < 0 then .error (.uncaught "ValueError") else .ok offset.toNat

/-- The `planning_end`, `input_builder.py:155`. -/
def planningEnd (facts : PlanningFacts) : Instant :=
  (facts.orders.map fun order ↦
    order.deliveryWindowEndAt + timedelta order.deliveryServiceSeconds).max?.getD
      facts.currentTime

/-- The `SolverOrder` of one order, `input_builder.py:167`. -/
def planningSolverOrder (facts : PlanningFacts) (order : PlanningOrderFact) :
    Except AppError SolverOrder := do
  let readyTimeSeconds ← secondsFromCurrent facts order.pickupReadyAt
  let deliveryWindowStartSeconds ← secondsFromCurrent facts order.deliveryWindowStartAt
  let deliveryWindowEndSeconds ← secondsFromCurrent facts order.deliveryWindowEndAt
  valueError (SolverOrder.make {
    orderId := order.orderId
    pickupLocationId := some order.pickupLocationId
    handoverLocationId := none
    deliveryLocationId := order.deliveryLocationId
    readyTimeSeconds := readyTimeSeconds
    deliveryWindowStartSeconds := deliveryWindowStartSeconds
    deliveryWindowEndSeconds := deliveryWindowEndSeconds
    pickupServiceSeconds := order.pickupServiceSeconds
    handoverServiceSeconds := 0
    deliveryServiceSeconds := order.deliveryServiceSeconds
    demandLoadUnits := order.demandLoadUnits })

/-- The `SolverVehicle` of one pair, `input_builder.py:187`. -/
def planningSolverVehicle (facts : PlanningFacts) (pair : VehicleDriverPairFact) :
    Except AppError SolverVehicle := do
  let availableFromSeconds ← secondsFromCurrent facts pair.assignedFromAt
  let availableUntilSeconds ←
    secondsFromCurrent facts (pair.assignedUntilAt.getD (planningEnd facts))
  valueError (SolverVehicle.make {
    vehicleId := pair.vehicleId
    capacityLoadUnits := pair.capacityLoadUnits
    startLocationId := pair.startLocationId
    availableFromSeconds := availableFromSeconds
    availableUntilSeconds := availableUntilSeconds })

/-- `build_solver_input`, `input_builder.py:148`. -/
def buildSolverInput (facts : PlanningFacts) (matrix : RoutingMatrix) :
    Except AppError SolverInput := do
  let orders ← facts.orders.mapM (planningSolverOrder facts)
  let vehicles ← facts.vehicleDriverPairs.mapM (planningSolverVehicle facts)
  valueError (SolverInput.make {
    businessDate := facts.businessDate
    currentTime := facts.currentTime
    orders := orders
    vehicles := vehicles
    frozenTasks := []
    recoveryScope := none
    locationIds := matrix.locationIds
    distanceMatrixMeters := matrix.distanceMatrixMeters
    durationMatrixSeconds := matrix.durationMatrixSeconds })

end PenroseRoute.Planning
