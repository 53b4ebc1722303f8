import PenroseRoute.Operations.Risk

/-!
# Stop execution

Models `StopExecutionService` of `backend/app/modules/operations/execution.py`: a stop of the
current plan goes from PLANNED over ARRIVED and IN_SERVICE to COMPLETED, and its order, route,
vehicle, driver and assignment follow. Event times carry their offset in the type, so the
check of `execution.py:93` never raises.
-/

namespace PenroseRoute.Db

/-- The `ranks` of `_advance_order`, `execution.py:273`: the place in `EXECUTION_PATH`. -/
def OrderExecutionStatus.rank : OrderExecutionStatus → Nat
  | .planned => 0
  | .pickupInProgress => 1
  | .pickedUp => 2
  | .delivering => 3
  | .completed => 4

end PenroseRoute.Db

namespace PenroseRoute.Operations

open PenroseRoute.Db PenroseRoute.Lib

/-- `StopExecutionResult`, `execution.py:28`. -/
structure StopExecutionResult where
  stop : RouteStop
  businessDate : BusinessDate
  orderExecutionStatus : OrderExecutionStatus
  orderRiskStatus : OrderRiskStatus
  routeStatus : RouteStatus
  vehicleStatus : ResourceStatus
  driverStatus : ResourceStatus
  deriving DecidableEq, Repr

namespace StopExecutionService

/-- `_validate_sequence`, `execution.py:175`. -/
def validateSequence (stop : RouteStop) (stops : List RouteStop) : List (Bool × AppError) :=
  [(stops.any fun item ↦ item.sequenceNo < stop.sequenceNo && item.status != .completed,
    .conflict "INVALID_STOP_STATE_TRANSITION")]

/-- `_validate_event_time`, `execution.py:187`. -/
def validateEventTime (stop : RouteStop) (stops : List RouteStop) (eventTime : Instant)
    (target : StopStatus) : List (Bool × AppError) :=
  let previous := stops.reverse.find? (·.sequenceNo < stop.sequenceNo)
  [((previous.bind (·.actualDepartureAt)).any (eventTime < ·), .conflict "INVALID_EVENT_TIME"),
    (target == .completed && stop.actualArrivalAt.any (eventTime < ·),
      .conflict "INVALID_EVENT_TIME")]

/-- The guards of `_activate_route`, `execution.py:221`. -/
def activationGuards (route : VehicleRoute) (vehicle : Vehicle) (driver : Driver)
    (assignment : VehicleDriverAssignment) : List (Bool × AppError) :=
  [(route.status == .cancelled, .conflict "INVALID_STOP_STATE_TRANSITION"),
    (route.status == .completed, .conflict "INVALID_STOP_STATE_TRANSITION"),
    (vehicle.status == .unavailable, .conflict "VEHICLE_NOT_AVAILABLE"),
    (driver.status == .unavailable, .conflict "DRIVER_NOT_AVAILABLE"),
    (assignment.status == .ended || assignment.status == .cancelled,
      .conflict "INVALID_ASSIGNMENT_STATE_TRANSITION")]

/-- The `desired` status of `_advance_order`, `execution.py:256`. -/
def desiredStatus (stopType : StopType) (target : StopStatus) : Option OrderExecutionStatus :=
  match stopType, target with
  | .pickup, .arrived => some .pickupInProgress
  | .pickup, .completed => some .pickedUp
  | .delivery, .arrived => some .delivering
  | .delivery, .inService => some .delivering
  | .delivery, .completed => some .completed
  | .handover, .arrived => some .delivering
  | .handover, .inService => some .delivering
  | .handover, .completed => some .delivering
  | _, _ => none

/-- `_advance_order`, `execution.py:256`: an order only moves forwards. -/
def advanceOrder (stopType : StopType) (target : StopStatus) (order : Order) : Order :=
  match desiredStatus stopType target with
  | none => order
  | some desired =>
    { order with
      executionStatus :=
        if desired.rank > order.executionStatus.rank then desired else order.executionStatus
      riskStatus := if desired = .completed then .normal else order.riskStatus }

/-- The stop after the transition, `execution.py:151`. -/
def advanceStop (target : StopStatus) (eventTime : Instant) (stop : RouteStop) : RouteStop :=
  match target with
  | .arrived => { stop with status := target, actualArrivalAt := some eventTime }
  | .completed => { stop with status := target, actualDepartureAt := some eventTime }
  | _ => { stop with status := target }

/-- The route after `_activate_route` and the completion at `execution.py:160`. -/
def advanceRoute (stopId : UUID) (target : StopStatus) (eventTime : Instant)
    (route : VehicleRoute) : VehicleRoute :=
  let moved := route.updateStop stopId (advanceStop target eventTime)
  let activated :=
    if route.status = .planned then
      { moved with status := .active, actualStartAt := some eventTime }
    else moved
  if target = .completed ∧ moved.stops.all (·.status == .completed) then
    { activated with status := .completed, actualEndAt := some eventTime }
  else activated

/-- Whether the transition completes the route, `execution.py:160`. -/
def completesRoute (stopId : UUID) (target : StopStatus) (eventTime : Instant)
    (route : VehicleRoute) : Bool :=
  target == .completed &&
    (route.updateStop stopId (advanceStop target eventTime)).stops.all (·.status == .completed)

/-- The status of the vehicle or the driver of the route. -/
def resourceStatus (starts ends : Bool) (status : ResourceStatus) : ResourceStatus :=
  let started := if starts then .active else status
  if ends && started != .unavailable then .available else started

/-- The assignment of the route after `_activate_route` and the completion. -/
def advanceAssignment (starts ends : Bool) (eventTime : Instant)
    (assignment : VehicleDriverAssignment) : VehicleDriverAssignment :=
  { assignment with
    status := if ends then .ended else if starts then .active else assignment.status
    activatedAt :=
      if starts then assignment.activatedAt.or (some eventTime) else assignment.activatedAt
    endedAt := if ends then some eventTime else assignment.endedAt }

/-- The writes of `_transition`, `execution.py:143`. -/
def applyTransition (thresholdSeconds : Int) (db : Database) (plan : DeliveryPlan)
    (route : VehicleRoute) (stop : RouteStop) (target : StopStatus) (eventTime : Instant) :
    Database :=
  let starts := route.status == .planned
  let ends := completesRoute stop.id target eventTime route
  let moved := (db.updatePlan plan.id (·.updateRoute route.id
      (advanceRoute stop.id target eventTime))).updateOrder stop.orderId
        (advanceOrder stop.stopType target)
  let staffed := ((moved.updateVehicle route.vehicleId fun vehicle ↦
      { vehicle with status := resourceStatus starts ends vehicle.status }).updateDriver
        route.driverId fun driver ↦
      { driver with status := resourceStatus starts ends driver.status }).updateAssignment
        route.assignmentId (advanceAssignment starts ends eventTime)
  { staffed with
    orders := RiskService.recalculateRoute thresholdSeconds
      (advanceRoute stop.id target eventTime route).stops eventTime staffed.orders }

/-- `ck_vehicle_routes_actual_window` and `ck_route_stops_actual_time`, `planning.py:164`. -/
def actualWindowHolds (start finish : Option Instant) : Bool :=
  finish.all fun finish ↦ start.any (· ≤ finish)

/-- `ck_assignments_ended_time`, `fleet.py:97`. -/
def endedTimeHolds (assignment : VehicleDriverAssignment) : Bool :=
  assignment.status != .ended || assignment.endedAt.any fun endedAt ↦
    assignment.activatedAt.all (· ≤ endedAt)

/-- The checks that the flush of a transition has to meet, `execution.py:171`. -/
def flushGuards (route : VehicleRoute) (stop : RouteStop) (assignment : VehicleDriverAssignment)
    (target : StopStatus) (eventTime : Instant) : List (Bool × AppError) :=
  let moved := advanceRoute stop.id target eventTime route
  let reached := advanceStop target eventTime stop
  [(!actualWindowHolds moved.actualStartAt moved.actualEndAt, .integrity "vehicle_routes"),
    (!actualWindowHolds reached.actualArrivalAt reached.actualDepartureAt,
      .integrity "route_stops"),
    (!endedTimeHolds (advanceAssignment (route.status == .planned)
      (completesRoute stop.id target eventTime route) eventTime assignment),
      .integrity "vehicle_driver_assignments")]

/-- `_result`, `execution.py:288`. -/
def result (stop : RouteStop) (order : Order) (route : VehicleRoute) (vehicle : Vehicle)
    (driver : Driver) (businessDate : BusinessDate) : StopExecutionResult where
  stop := stop
  businessDate := businessDate
  orderExecutionStatus := order.executionStatus
  orderRiskStatus := order.riskStatus
  routeStatus := route.status
  vehicleStatus := vehicle.status
  driverStatus := driver.status

/-- `_transition`, `execution.py:84`. -/
def transition (thresholdSeconds : Int) (db : Database) (stopId : UUID)
    (expected target : StopStatus) (eventTime : Instant) :
    Except AppError (Database × StopExecutionResult) := do
  let (plan, route, stop) ← orRaise (db.lockedStop? stopId) (.notFound "STOP_NOT_FOUND")
  raiseFirst [(plan.status != .current, .conflict "BASE_PLAN_NOT_CURRENT")]
  let order ← orRaise (db.order? stop.orderId) (.conflict "EXECUTION_RESOURCE_MISSING")
  let vehicle ← orRaise (db.vehicle? route.vehicleId) (.conflict "EXECUTION_RESOURCE_MISSING")
  let driver ← orRaise (db.driver? route.driverId) (.conflict "EXECUTION_RESOURCE_MISSING")
  let assignment ←
    orRaise (db.assignment? route.assignmentId) (.conflict "EXECUTION_RESOURCE_MISSING")
  if stop.status = target then
    return (db, result stop order route vehicle driver plan.businessDate)
  else
    raiseFirst ((stop.status != expected, .conflict "INVALID_STOP_STATE_TRANSITION") ::
      validateSequence stop route.stops ++ validateEventTime stop route.stops eventTime target ++
        activationGuards route vehicle driver assignment)
    raiseFirst (flushGuards route stop assignment target eventTime)
    let moved := applyTransition thresholdSeconds db plan route stop target eventTime
    return (moved, result (advanceStop target eventTime stop)
      ((moved.order? order.id).getD order) (advanceRoute stopId target eventTime route)
      ((moved.vehicle? vehicle.id).getD vehicle) ((moved.driver? driver.id).getD driver)
      plan.businessDate)

/-- What a transition that changes something has found and checked. -/
structure Checked (db : Database) (stopId : UUID) (expected target : StopStatus)
    (eventTime : Instant) (plan : DeliveryPlan) (route : VehicleRoute) (stop : RouteStop) :
    Prop where
  locked : db.lockedStop? stopId = some (plan, route, stop)
  current : plan.status = .current
  order : ∃ order, db.order? stop.orderId = some order
  vehicle : ∃ vehicle, db.vehicle? route.vehicleId = some vehicle ∧
    vehicle.status ≠ .unavailable
  expected : stop.status = expected
  runnable : route.status ≠ .cancelled ∧ route.status ≠ .completed
  sequence : ∀ item ∈ route.stops, item.sequenceNo < stop.sequenceNo → item.status = .completed
  inTime : raiseFirst (validateEventTime stop route.stops eventTime target) = .ok ()
  routeWindow : actualWindowHolds (advanceRoute stop.id target eventTime route).actualStartAt
    (advanceRoute stop.id target eventTime route).actualEndAt = true
  stopWindow : actualWindowHolds (advanceStop target eventTime stop).actualArrivalAt
    (advanceStop target eventTime stop).actualDepartureAt = true

/-- A transition of a stop that is there already changes nothing; any other one is checked and
then written. -/
theorem transition_ok {thresholdSeconds : Int} {db db' : Database} {stopId : UUID}
    {expected target : StopStatus} {eventTime : Instant} {result : StopExecutionResult}
    (h : transition thresholdSeconds db stopId expected target eventTime = .ok (db', result)) :
    (db' = db ∧ ∃ plan route stop, db.lockedStop? stopId = some (plan, route, stop) ∧
      plan.status = .current ∧ stop.status = target) ∨
    ∃ plan route stop, Checked db stopId expected target eventTime plan route stop ∧
      db' = applyTransition thresholdSeconds db plan route stop target eventTime := by
  obtain ⟨⟨plan, route, stop⟩, hl, h⟩ := bind_eq_ok.mp h
  obtain ⟨hc, h⟩ := unit_bind_eq_ok.mp h
  obtain ⟨order, ho, h⟩ := bind_eq_ok.mp h
  obtain ⟨vehicle, hv, h⟩ := bind_eq_ok.mp h
  obtain ⟨driver, hd, h⟩ := bind_eq_ok.mp h
  obtain ⟨assignment, ha, h⟩ := bind_eq_ok.mp h
  rw [orRaise_eq_ok] at hl ho hv
  rw [raiseFirst_cons_eq_ok, bne_eq_false_iff_eq] at hc
  split at h
  · next hs =>
    cases h
    exact .inl ⟨rfl, plan, route, stop, hl, hc.1, hs⟩
  · next hs =>
    obtain ⟨hg, h⟩ := unit_bind_eq_ok.mp h
    obtain ⟨hflush, h⟩ := unit_bind_eq_ok.mp h
    cases h
    rw [raiseFirst_eq_ok_iff] at hg
    simp only [List.mem_cons, List.mem_append, List.cons_append] at hg
    simp only [flushGuards, raiseFirst_cons_eq_ok, Bool.not_eq_false'] at hflush
    refine .inr ⟨plan, route, stop, ⟨hl, hc.1, ⟨order, ho⟩, ⟨vehicle, hv, ?_⟩, ?_, ⟨?_, ?_⟩, ?_, ?_,
      hflush.1, hflush.2.1⟩, rfl⟩
    · intro hu
      have := hg _ (.inr (.inr (List.mem_cons_of_mem _ (List.mem_cons_of_mem _
        List.mem_cons_self))))
      rw [hu] at this
      cases this
    · exact bne_eq_false_iff_eq.mp (hg _ (.inl rfl))
    · exact beq_eq_false_iff_ne.mp (hg _ (.inr (.inr List.mem_cons_self)))
    · exact beq_eq_false_iff_ne.mp (hg _ (.inr (.inr (List.mem_cons_of_mem _
        List.mem_cons_self))))
    · have hall := hg _ (.inr (.inl (.inl List.mem_cons_self)))
      rw [List.any_eq_false] at hall
      intro item hi hlt
      by_contra hne
      exact hall item hi (by simp [hlt, hne])
    · rw [raiseFirst_eq_ok_iff]
      exact fun c hcm ↦ hg c (.inr (.inl (.inr hcm)))

/-- A transition returns the date of the plan of its stop. -/
theorem transition_date {thresholdSeconds : Int} {db db' : Database} {stopId : UUID}
    {expected target : StopStatus} {eventTime : Instant} {outcome : StopExecutionResult}
    {plan : DeliveryPlan} {route : VehicleRoute} {stop : RouteStop}
    (h : transition thresholdSeconds db stopId expected target eventTime = .ok (db', outcome))
    (hl : db.lockedStop? stopId = some (plan, route, stop)) :
    outcome.businessDate = plan.businessDate := by
  obtain ⟨⟨plan', route', stop'⟩, hl', h⟩ := bind_eq_ok.mp h
  rw [orRaise_eq_ok, hl, Option.some.injEq, Prod.mk.injEq] at hl'
  obtain ⟨-, h⟩ := unit_bind_eq_ok.mp h
  obtain ⟨order, -, h⟩ := bind_eq_ok.mp h
  obtain ⟨vehicle, -, h⟩ := bind_eq_ok.mp h
  obtain ⟨driver, -, h⟩ := bind_eq_ok.mp h
  obtain ⟨assignment, -, h⟩ := bind_eq_ok.mp h
  rw [hl'.1]
  split at h
  · cases h
    rfl
  · obtain ⟨-, h⟩ := unit_bind_eq_ok.mp h
    obtain ⟨-, h⟩ := unit_bind_eq_ok.mp h
    cases h
    rfl

end StopExecutionService

end PenroseRoute.Operations
