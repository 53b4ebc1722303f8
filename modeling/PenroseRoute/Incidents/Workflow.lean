import PenroseRoute.Incidents.Impact
import PenroseRoute.Operations.Risk

/-!
# Reporting incidents

Models `backend/app/modules/incidents/context.py` and `workflow.py`: a vehicle that breaks
down while it executes a route, and a merchant whose goods are ready late. A merchant's own
columns are read by nothing that is modelled and are left out; rows that the source sorts by
`order_code` keep their order here, which nothing reads.
-/

namespace PenroseRoute.Incidents

open PenroseRoute.Db PenroseRoute.Lib PenroseRoute.Operations

/-- `list_route_plan_orders`, `plan_repository.py:284`. -/
def listRoutePlanOrders (plan : DeliveryPlan) (routeId : UUID) : List DeliveryPlanOrder :=
  plan.planOrders.filter fun membership ↦
    membership.vehicleRouteId == some routeId && membership.assignmentStatus == .assigned

/-! ### Vehicles -/

namespace VehicleIncidentWorkflow

/-- The place of the breakdown in a request: the recorded location of the vehicle, a code
without coordinates, or the row that `resolve_location` finds or creates for a code. -/
inductive BreakdownLocation where
  | recorded
  | withoutCoordinates
  | resolved (locationId : UUID)
  deriving DecidableEq, Repr

/-- `VehicleIncidentContext`, `context.py:18`. -/
structure VehicleIncidentContext where
  plan : DeliveryPlan
  route : VehicleRoute
  vehicle : Vehicle
  orders : List Order
  deriving DecidableEq, Repr

/-- `resolve_vehicle_incident_context`, `context.py:42`. -/
def resolveVehicleIncidentContext (db : Database) (businessDate : BusinessDate)
    (vehicleId : UUID) : Except AppError VehicleIncidentContext := do
  let plan ← orRaise (db.currentPlan? businessDate) (.notFound "CURRENT_PLAN_NOT_FOUND")
  let vehicle ← orRaise (db.vehicle? vehicleId) (.notFound "VEHICLE_NOT_FOUND")
  let route ← orRaise
    (plan.routes.find? fun route ↦ route.vehicleId == vehicleId && route.status == .active)
    (.conflict "VEHICLE_NOT_EXECUTING_ROUTE")
  let memberships := listRoutePlanOrders plan route.id
  let orders := memberships.filterMap (db.order? ·.orderId)
  raiseFirst [(orders.length != memberships.length, .conflict "INCIDENT_FACT_CONFLICT")]
  return { plan, route, vehicle, orders }

/-- `get_open_vehicle_incident`, `incident_repository.py:68`. -/
def openVehicleIncident? (db : Database) (planId vehicleId : UUID) : Option Incident :=
  db.incidents.find? fun incident ↦
    incident.deliveryPlanId == planId && incident.vehicleId == some vehicleId &&
      incident.incidentType == .vehicleUnavailable && incident.status != .resolved

/-- `_resolve_breakdown_location`, `workflow.py:192`. -/
def resolveBreakdownLocation (vehicle : Vehicle) (eventTime : Instant) :
    BreakdownLocation → Except AppError UUID
  | .withoutCoordinates => .error (.business "VEHICLE_LOCATION_REQUIRED")
  | .resolved locationId => .ok locationId
  | .recorded =>
    if vehicle.currentLocationRecordedAt > eventTime then
      .error (.business "VEHICLE_LOCATION_REQUIRED")
    else .ok vehicle.currentLocationId

/-- The `confirmed_times` of `_validate_event_time`, `workflow.py:228`. -/
def confirmedTimes (route : VehicleRoute) : List Instant :=
  route.stops.flatMap fun stop ↦ stop.actualArrivalAt.toList ++ stop.actualDepartureAt.toList

/-- The incident row of `report_unavailable`, `workflow.py:133`, with its affected orders. -/
def unavailableIncident (id : UUID) (context : VehicleIncidentContext) (locationId : UUID)
    (eventTime : Instant) : Incident where
  id := id
  incidentType := .vehicleUnavailable
  status := .replanning
  deliveryPlanId := context.plan.id
  vehicleRouteId := some context.route.id
  vehicleId := some context.vehicle.id
  merchantId := none
  incidentLocationId := some locationId
  originalReadyAt := none
  updatedReadyAt := none
  delaySeconds := none
  detectedAt := eventTime
  affectedOrders := context.orders.map (assessVehicleOrder context.route.id)

/-- `report_unavailable`, `workflow.py:75`; it returns the id of the incident. It ends with
`refreshAlertsForBusinessDate`, a transaction of its own. -/
def reportUnavailable (db : Database) (businessDate : BusinessDate) (vehicleId : UUID)
    (eventTime : Instant) (location : BreakdownLocation) : Except AppError (Database × UUID) := do
  let context ← resolveVehicleIncidentContext db businessDate vehicleId
  raiseFirst [
    ((openVehicleIncident? db context.plan.id vehicleId).isSome,
      .conflict "INCIDENT_ALREADY_EXISTS"),
    (context.vehicle.status != .active, .conflict "VEHICLE_NOT_EXECUTING_ROUTE"),
    (context.vehicle.currentLocationRecordedAt > eventTime, .conflict "INCIDENT_FACT_CONFLICT")]
  let locationId ← resolveBreakdownLocation context.vehicle eventTime location
  let incident := unavailableIncident db.nextId context locationId eventTime
  raiseFirst [
    ((confirmedTimes context.route).any (eventTime < ·), .conflict "INCIDENT_FACT_CONFLICT"),
    (!incident.affectedOrders.any (·.requiresReplanning), .conflict "INCIDENT_FACT_CONFLICT")]
  let reported := { db with
    incidents := db.incidents ++ [incident]
    nextId := db.nextId + 1 }
  return (reported.updateVehicle vehicleId fun vehicle ↦
    { vehicle with
      status := .unavailable
      currentLocationId := locationId
      currentLocationRecordedAt := eventTime }, incident.id)

/-- What the context of a breakdown was read from. -/
structure ReadFor (db : Database) (businessDate : BusinessDate) (vehicleId : UUID)
    (context : VehicleIncidentContext) : Prop where
  plan : db.currentPlan? businessDate = some context.plan
  vehicle : db.vehicle? vehicleId = some context.vehicle
  route : context.route ∈ context.plan.routes
  routeVehicle : context.route.vehicleId = vehicleId
  routeStatus : context.route.status = .active
  orders : context.orders =
    (listRoutePlanOrders context.plan context.route.id).filterMap (db.order? ·.orderId)
  complete : context.orders.length = (listRoutePlanOrders context.plan context.route.id).length

/-- A context that is found was read for the vehicle and the date. -/
theorem resolveVehicleIncidentContext_ok {db : Database} {businessDate : BusinessDate}
    {vehicleId : UUID} {context : VehicleIncidentContext}
    (h : resolveVehicleIncidentContext db businessDate vehicleId = .ok context) :
    ReadFor db businessDate vehicleId context := by
  obtain ⟨plan, hp, h⟩ := bind_eq_ok.mp h
  obtain ⟨vehicle, hv, h⟩ := bind_eq_ok.mp h
  obtain ⟨route, hr, h⟩ := bind_eq_ok.mp h
  obtain ⟨hl, h⟩ := unit_bind_eq_ok.mp h
  cases h
  rw [orRaise_eq_ok] at hp hv hr
  rw [raiseFirst_cons_eq_ok, bne_eq_false_iff_eq] at hl
  have hroute := List.find?_some hr
  rw [Bool.and_eq_true_iff, beq_iff_eq, beq_iff_eq] at hroute
  exact ⟨hp, hv, List.mem_of_find?_eq_some hr, hroute.1, hroute.2, rfl, hl.1⟩

/-- A reported breakdown adds its incident and moves the vehicle to the place of it. -/
theorem reportUnavailable_ok {db db' : Database} {businessDate : BusinessDate}
    {vehicleId incidentId : UUID} {eventTime : Instant} {location : BreakdownLocation}
    (h : reportUnavailable db businessDate vehicleId eventTime location = .ok (db', incidentId)) :
    ∃ context locationId, ReadFor db businessDate vehicleId context ∧
      openVehicleIncident? db context.plan.id vehicleId = none ∧
      context.vehicle.status = .active ∧ incidentId = db.nextId ∧
      db' = { db with
          incidents := db.incidents ++
            [unavailableIncident db.nextId context locationId eventTime]
          nextId := db.nextId + 1 }.updateVehicle vehicleId fun vehicle ↦
        { vehicle with
          status := .unavailable
          currentLocationId := locationId
          currentLocationRecordedAt := eventTime } := by
  obtain ⟨context, hc, h⟩ := bind_eq_ok.mp h
  obtain ⟨hg, h⟩ := unit_bind_eq_ok.mp h
  obtain ⟨locationId, -, h⟩ := bind_eq_ok.mp h
  obtain ⟨-, h⟩ := unit_bind_eq_ok.mp h
  cases h
  rw [raiseFirst_cons_eq_ok, raiseFirst_cons_eq_ok, Option.isSome_eq_false_iff,
    Option.isNone_iff_eq_none, bne_eq_false_iff_eq] at hg
  exact ⟨context, locationId, resolveVehicleIncidentContext_ok hc, hg.1, hg.2.1, rfl, rfl⟩

end VehicleIncidentWorkflow

/-! ### Merchants -/

namespace MerchantDelayWorkflow

/-- `MerchantOrderContext`, `context.py:26`, less the delivery stop, which is not read. -/
structure MerchantOrderContext where
  order : Order
  routeId : UUID
  isDirect : Bool
  deriving DecidableEq, Repr

/-- `MerchantIncidentContext`, `context.py:34`; the remaining stops are those of the routes
from their cutoff on that are not completed. -/
structure MerchantIncidentContext where
  plan : DeliveryPlan
  originalReadyAt : Instant
  orders : List MerchantOrderContext
  routeIds : List UUID
  cutoff : UUID → Nat

/-- `lock_merchant_pickup_stops`, `plan_repository.py:300`, on one route. -/
def pickupStops (db : Database) (plan : DeliveryPlan) (merchantId : UUID)
    (route : VehicleRoute) : List RouteStop :=
  route.stops.filter fun stop ↦
    stop.stopType == .pickup && stop.status != .completed &&
      (db.order? stop.orderId).any (·.merchantId == merchantId) &&
      (listRoutePlanOrders plan route.id).any (·.orderId == stop.orderId)

/-- The orders of one route that the delay reaches, `context.py:163`. -/
def reachedOrders (db : Database) (plan : DeliveryPlan) (merchantId : UUID)
    (route : VehicleRoute) : List MerchantOrderContext :=
  let direct := (pickupStops db plan merchantId route).map (·.orderId)
  let cutoff := ((pickupStops db plan merchantId route).map (·.sequenceNo)).min?.getD 0
  (listRoutePlanOrders plan route.id).filterMap fun membership ↦
    let isDirect := direct.contains membership.orderId
    let isDownstream := route.stops.any fun stop ↦
      stop.orderId == membership.orderId && stop.sequenceNo > cutoff
    if isDirect || isDownstream then
      (db.order? membership.orderId).map fun order ↦ { order, routeId := route.id, isDirect }
    else none

/-- `resolve_merchant_incident_context`, `context.py:97`. -/
def resolveMerchantIncidentContext (db : Database) (businessDate : BusinessDate)
    (merchantId : UUID) : Except AppError MerchantIncidentContext := do
  let plan ← orRaise (db.currentPlan? businessDate) (.notFound "CURRENT_PLAN_NOT_FOUND")
  raiseFirst [(!db.merchants.contains merchantId, .notFound "MERCHANT_NOT_FOUND")]
  let routes := plan.routes.filter fun route ↦ (pickupStops db plan merchantId route) != []
  let pickups := routes.flatMap (pickupStops db plan merchantId)
  let memberships := routes.flatMap fun route ↦ listRoutePlanOrders plan route.id
  raiseFirst [
    (pickups == [], .conflict "MERCHANT_NOT_IN_CURRENT_PLAN"),
    (pickups.any (·.timeWindowStartAt.isNone), .conflict "INCIDENT_FACT_CONFLICT"),
    (memberships.any fun membership ↦ (db.order? membership.orderId).isNone,
      .conflict "INCIDENT_FACT_CONFLICT")]
  let originalReadyAt ← orRaise (pickups.filterMap (·.timeWindowStartAt)).min?
    (.conflict "INCIDENT_FACT_CONFLICT")
  return {
    plan, originalReadyAt
    orders := routes.flatMap (reachedOrders db plan merchantId)
    routeIds := routes.map (·.id)
    cutoff := fun routeId ↦ ((routes.find? (·.id == routeId)).bind fun route ↦
      ((pickupStops db plan merchantId route).map (·.sequenceNo)).min?).getD 0 }

/-- `get_open_merchant_incident`, `incident_repository.py:79`. -/
def openMerchantIncident? (db : Database) (planId merchantId : UUID) : Option Incident :=
  db.incidents.find? fun incident ↦
    incident.deliveryPlanId == planId && incident.merchantId == some merchantId &&
      incident.incidentType == .merchantDelay && incident.status != .resolved

/-- The new times of one remaining stop, `workflow.py:412`, behind a delay of its route. -/
def shiftStop (directOrderIds : List UUID) (updatedReadyAt : Instant) (delay : Int)
    (stop : RouteStop) : RouteStop :=
  let arrival := stop.plannedArrivalAt + timedelta delay
  let departure := max stop.plannedDepartureAt (arrival + timedelta stop.serviceSeconds)
  { stop with
    plannedArrivalAt := arrival
    plannedDepartureAt :=
      if stop.stopType = .pickup ∧ directOrderIds.contains stop.orderId then
        max departure (updatedReadyAt + timedelta stop.serviceSeconds)
      else departure }

/-- The stops of one route, `workflow.py:408`: the delay is carried from stop to stop. -/
def shiftStops (directOrderIds : List UUID) (updatedReadyAt : Instant) (cutoff : Nat) :
    Int → List RouteStop → List RouteStop
  | _, [] => []
  | delay, stop :: rest =>
    if stop.sequenceNo ≥ cutoff ∧ stop.status ≠ .completed then
      let shifted := shiftStop directOrderIds updatedReadyAt delay stop
      shifted :: shiftStops directOrderIds updatedReadyAt cutoff
        (totalSeconds (shifted.plannedDepartureAt - stop.plannedDepartureAt)) rest
    else stop :: shiftStops directOrderIds updatedReadyAt cutoff delay rest

/-- A shift changes nothing of a stop but its planned times. -/
theorem map_shiftStops {α : Type} {f : RouteStop → α}
    (hf : ∀ (stop : RouteStop) (arrival departure : Instant),
      f { stop with plannedArrivalAt := arrival, plannedDepartureAt := departure } = f stop)
    (directOrderIds : List UUID) (updatedReadyAt : Instant) (cutoff : Nat) (delay : Int)
    (stops : List RouteStop) :
    (shiftStops directOrderIds updatedReadyAt cutoff delay stops).map f = stops.map f := by
  induction stops generalizing delay with
  | nil => rfl
  | cons stop rest ih =>
    rw [shiftStops]
    split
    · rw [List.map_cons, List.map_cons, ih, shiftStop, hf]
    · rw [List.map_cons, List.map_cons, ih]

/-- The plan after `_update_remaining_eta_and_risk`, `workflow.py:401`. -/
def shiftPlan (context : MerchantIncidentContext) (updatedReadyAt : Instant)
    (plan : DeliveryPlan) : DeliveryPlan :=
  let directOrderIds := (context.orders.filter (·.isDirect)).map (·.order.id)
  { plan with
    routes := plan.routes.map fun route ↦
      if context.routeIds.contains route.id then
        { route with
          stops := shiftStops directOrderIds updatedReadyAt (context.cutoff route.id) 0
            route.stops }
      else route }

/-- So the routes of a shifted plan are what they were apart from planned times. -/
theorem map_routes_shiftPlan {α β : Type} {f : RouteStop → α} {g : VehicleRoute → List α → β}
    (hf : ∀ (stop : RouteStop) (arrival departure : Instant),
      f { stop with plannedArrivalAt := arrival, plannedDepartureAt := departure } = f stop)
    (hg : ∀ (route : VehicleRoute) stops as, g { route with stops := stops } as = g route as)
    (context : MerchantIncidentContext) (updatedReadyAt : Instant) (plan : DeliveryPlan) :
    ((shiftPlan context updatedReadyAt plan).routes.map fun route ↦
      g route (route.stops.map f)) = plan.routes.map fun route ↦ g route (route.stops.map f) := by
  rw [shiftPlan, List.map_map]
  refine List.map_congr_left fun route _ ↦ ?_
  rw [Function.comp_apply]
  split
  · rw [hg, map_shiftStops hf]
  · rfl

/-- The risk flags of `_update_remaining_eta_and_risk`, `workflow.py:427`. -/
def shiftRisks (thresholdSeconds : Int) (context : MerchantIncidentContext)
    (shifted : DeliveryPlan) (orders : List Order) : List Order :=
  let remaining := (shifted.routes.filter fun route ↦ context.routeIds.contains route.id).flatMap
    fun route ↦ route.stops.filter fun stop ↦
      stop.sequenceNo ≥ context.cutoff route.id && stop.status != .completed
  remaining.foldl (fun orders stop ↦
    if stop.stopType = .delivery then
      updateWhere orders
        (fun order ↦ order.id == stop.orderId && order.executionStatus != .completed)
        fun order ↦ { order with
          riskStatus := RiskService.statusForEta thresholdSeconds stop.plannedArrivalAt
            (stop.timeWindowEndAt.getD order.deliveryWindowEndAt) }
    else orders) orders

/-- The incident row of `_assess_delay`, `workflow.py:350`, with its affected orders. -/
def delayIncident (id : UUID) (context : MerchantIncidentContext) (merchantId : UUID)
    (updatedReadyAt : Instant) (delaySeconds : Int) (requiresReplanning : Bool)
    (impacts : List IncidentAffectedOrder) (eventTime : Instant) : Incident where
  id := id
  incidentType := .merchantDelay
  status := if requiresReplanning then .replanning else .resolved
  deliveryPlanId := context.plan.id
  vehicleRouteId := none
  vehicleId := none
  merchantId := some merchantId
  incidentLocationId := none
  originalReadyAt := some context.originalReadyAt
  updatedReadyAt := some updatedReadyAt
  delaySeconds := some delaySeconds
  detectedAt := eventTime
  affectedOrders := impacts.map fun impact ↦ { impact with requiresReplanning }

/-- `_assess_delay`, `workflow.py:270`; it returns the id of the incident, if there is one.
The merchant's own columns are the only write when there is no delay. `assess_delay` ends with
`refreshAlertsForBusinessDate`, a transaction of its own. -/
def assessDelay (thresholdSeconds : Int) (db : Database) (businessDate : BusinessDate)
    (merchantId : UUID) (updatedReadyAt eventTime : Instant) (explicitIncident : Bool) :
    Except AppError (Database × Option UUID) := do
  let context ← resolveMerchantIncidentContext db businessDate merchantId
  let delaySeconds := totalSeconds (updatedReadyAt - context.originalReadyAt)
  if delaySeconds ≤ 0 then
    raiseFirst [(explicitIncident, .business "MERCHANT_DELAY_NOT_POSITIVE")]
    return (db, none)
  else
    raiseFirst [((openMerchantIncident? db context.plan.id merchantId).isSome,
      .conflict "INCIDENT_ALREADY_EXISTS")]
    let provisionalReplanning := delaySeconds > 600
    let impacts := context.orders.filterMap fun item ↦
      assessMerchantOrder item.routeId item.order item.isDirect provisionalReplanning
    let requiresReplanning := provisionalReplanning && impacts != []
    let incident := delayIncident db.nextId context merchantId updatedReadyAt delaySeconds
      requiresReplanning impacts eventTime
    raiseFirst [(!incident.delayValueHolds, .integrity "ck_incidents_delay_value")]
    let reported := { db with
      incidents := db.incidents ++ [incident]
      nextId := db.nextId + 1 }
    if requiresReplanning then return (reported, some incident.id)
    else
      let shifted := shiftPlan context updatedReadyAt context.plan
      return ({ reported.updatePlan context.plan.id (shiftPlan context updatedReadyAt) with
        orders := shiftRisks thresholdSeconds context shifted db.orders }, some incident.id)

/-- The context of a delay is one of the CURRENT plan. -/
theorem resolveMerchantIncidentContext_ok {db : Database} {businessDate : BusinessDate}
    {merchantId : UUID} {context : MerchantIncidentContext}
    (h : resolveMerchantIncidentContext db businessDate merchantId = .ok context) :
    db.currentPlan? businessDate = some context.plan := by
  obtain ⟨plan, hp, h⟩ := bind_eq_ok.mp h
  obtain ⟨-, h⟩ := unit_bind_eq_ok.mp h
  obtain ⟨-, h⟩ := unit_bind_eq_ok.mp h
  obtain ⟨originalReadyAt, -, h⟩ := bind_eq_ok.mp h
  cases h
  exact (orRaise_eq_ok _ _ _).mp hp

/-- A shift changes nothing of an order but its risk. -/
theorem map_shiftRisks {α : Type} (thresholdSeconds : Int) (context : MerchantIncidentContext)
    (shifted : DeliveryPlan) {f : Order → α}
    (hf : ∀ order risk, f { order with riskStatus := risk } = f order) (orders : List Order) :
    (shiftRisks thresholdSeconds context shifted orders).map f = orders.map f := by
  rw [shiftRisks]
  generalize ((shifted.routes.filter fun route ↦ context.routeIds.contains route.id).flatMap
    fun route ↦ route.stops.filter fun stop ↦
      stop.sequenceNo ≥ context.cutoff route.id && stop.status != .completed) = remaining
  induction remaining generalizing orders with
  | nil => rfl
  | cons stop rest ih =>
    rw [List.foldl_cons, ih]
    split
    · exact map_updateWhere fun order ↦ hf order _
    · rfl

/-- A reported delay adds its incident, and where no replanning is needed it shifts the stops
of the CURRENT plan. -/
theorem assessDelay_ok {thresholdSeconds : Int} {db db' : Database} {businessDate : BusinessDate}
    {merchantId : UUID} {updatedReadyAt eventTime : Instant} {explicitIncident : Bool}
    {incidentId : Option UUID}
    (h : assessDelay thresholdSeconds db businessDate merchantId updatedReadyAt eventTime
      explicitIncident = .ok (db', incidentId)) :
    db' = db ∨ ∃ (context : MerchantIncidentContext) (incident : Incident),
      db.currentPlan? businessDate = some context.plan ∧ incident.id = db.nextId ∧
      incident.deliveryPlanId = context.plan.id ∧ incident.vehicleId = none ∧
      (∃ (provisional requiresReplanning : Bool), incident.affectedOrders =
        (context.orders.filterMap fun item ↦
          assessMerchantOrder item.routeId item.order item.isDirect provisional).map
            fun impact ↦ { impact with requiresReplanning := requiresReplanning }) ∧
      (db' = { db with
          incidents := db.incidents ++ [incident]
          nextId := db.nextId + 1 } ∨
        db' = { (db.updatePlan context.plan.id (shiftPlan context updatedReadyAt)) with
          incidents := db.incidents ++ [incident]
          orders := shiftRisks thresholdSeconds context
            (shiftPlan context updatedReadyAt context.plan) db.orders
          nextId := db.nextId + 1 }) := by
  obtain ⟨context, hc, h⟩ := bind_eq_ok.mp h
  have hp := resolveMerchantIncidentContext_ok hc
  dsimp only at h
  split at h
  · obtain ⟨-, h⟩ := unit_bind_eq_ok.mp h
    cases h
    exact .inl rfl
  · obtain ⟨-, h⟩ := unit_bind_eq_ok.mp h
    obtain ⟨-, h⟩ := unit_bind_eq_ok.mp h
    split at h
    · cases h
      exact .inr ⟨context, _, hp, rfl, rfl, rfl, ⟨_, _, rfl⟩, .inl rfl⟩
    · cases h
      exact .inr ⟨context, _, hp, rfl, rfl, rfl, ⟨_, _, rfl⟩, .inr rfl⟩

end MerchantDelayWorkflow

end PenroseRoute.Incidents
