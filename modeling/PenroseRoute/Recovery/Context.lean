import Mathlib.Data.List.Dedup
import Mathlib.Data.List.Sort
import PenroseRoute.Incidents.Impact
import PenroseRoute.Operations.Risk

/-!
# Recovery contexts

Models `backend/app/modules/recovery/deterministic_context.py`: the immutable facts that one
recovery works on, read from the database in one transaction. A location is its id: its
coordinates never change and only the routing provider reads them.
-/

namespace PenroseRoute.Recovery

open PenroseRoute.Db PenroseRoute.Lib PenroseRoute.Operations

/-- `RecoveryOrderFact`, `deterministic_context.py:29`. -/
structure RecoveryOrderFact where
  orderId : UUID
  pickupLocationId : UUID
  deliveryLocationId : UUID
  pickupReadyAt : Instant
  pickupServiceSeconds : Nat
  deliveryWindowStartAt : Instant
  deliveryWindowEndAt : Instant
  deliveryServiceSeconds : Nat
  demandLoadUnits : Nat
  executionStatus : OrderExecutionStatus
  riskStatus : OrderRiskStatus
  originalRouteId : Option UUID
  handoverRequired : Bool
  handoverLocationId : Option UUID
  deliveryOnly : Bool
  requiredVehicleId : Option UUID
  deriving DecidableEq, Repr

/-- `RecoveryVehicleFact`, `deterministic_context.py:49`. -/
structure RecoveryVehicleFact where
  assignmentId : UUID
  vehicleId : UUID
  driverId : UUID
  capacityLoadUnits : Nat
  initialLoadLoadUnits : Nat
  startLocationId : UUID
  availableFrom : Instant
  availableUntil : Instant
  deriving DecidableEq, Repr

/-- `ImpactSnapshot`, `deterministic_context.py:112`. -/
structure ImpactSnapshot where
  orderId : UUID
  executionStatusSnapshot : OrderExecutionStatus
  riskStatusSnapshot : OrderRiskStatus
  requiresReplanning : Bool
  handoverRequired : Bool
  wasCompleted : Bool
  impactType : ImpactType
  deriving DecidableEq, Repr

/-- `RecoveryContext`, `deterministic_context.py:123`. A `RouteSnapshot` and a
`PlanOrderSnapshot` have the fields of their rows. -/
structure RecoveryContext where
  incidentId : UUID
  incidentType : IncidentType
  basePlanId : UUID
  planGroupId : UUID
  businessDate : BusinessDate
  baseVersionNo : Nat
  currentTime : Instant
  scope : ReplanningScope
  affectedRouteId : Option UUID
  targetOrders : List RecoveryOrderFact
  vehicles : List RecoveryVehicleFact
  routes : List VehicleRoute
  planOrders : List DeliveryPlanOrder
  locations : List UUID
  impactSnapshots : List ImpactSnapshot
  incidentLocationId : Option UUID
  delaySeconds : Option Int
  deriving DecidableEq, Repr

/-! ### Target orders -/

/-- The `affected` orders, `deterministic_context.py:167`. -/
def affectedOrders (incident : Incident) : List IncidentAffectedOrder :=
  incident.affectedOrders.filter (·.requiresReplanning)

/-- The `affected_route_ids`, `deterministic_context.py:190`. -/
def affectedRouteIds (incident : Incident) : List UUID :=
  (affectedOrders incident).filterMap (·.originalVehicleRouteId)

/-- The live status of a member of the plan is not COMPLETED. -/
def stillOpen (db : Database) (membership : DeliveryPlanOrder) : Bool :=
  (db.order? membership.orderId).any (·.executionStatus != .completed)

/-- The route's vehicle is ACTIVE, `deterministic_context.py:204`. -/
def onActiveVehicle (db : Database) (route : VehicleRoute) : Bool :=
  (db.vehicle? route.vehicleId).any (·.status == .active)

/-- The members that a scope adds, `deterministic_context.py:196`. -/
def scopeReaches (db : Database) (incident : Incident) (plan : DeliveryPlan)
    (scope : ReplanningScope) (membership : DeliveryPlanOrder) : Bool :=
  membership.vehicleRouteId.any (affectedRouteIds incident).contains ||
    (scope == .crossRoute && plan.routes.any fun route ↦
      onActiveVehicle db route && membership.vehicleRouteId == some route.id) ||
    scope == .allRemaining

/-- `sorted(target_ids)`, `deterministic_context.py:195`. -/
def targetIds (db : Database) (incident : Incident) (plan : DeliveryPlan)
    (scope : ReplanningScope) : List UUID :=
  ((affectedOrders incident).map (·.orderId) ++
    (plan.planOrders.filter fun membership ↦
      scopeReaches db incident plan scope membership && stillOpen db membership).map
        (·.orderId)).dedup.insertionSort (· ≤ ·)

/-- The loop body of `deterministic_context.py:223`: the facts of one target order. -/
def orderFact (db : Database) (incident : Incident) (plan : DeliveryPlan) (orderId : UUID) :
    Except AppError RecoveryOrderFact := do
  let membership ← orRaise (plan.planOrders.find? (·.orderId == orderId))
    (.business "RECOVERY_CONTEXT_INVALID")
  let order ← orRaise (db.order? orderId) (.business "RECOVERY_CONTEXT_INVALID")
  let handoverRequired :=
    (incident.affectedOrders.find? (·.orderId == orderId)).any (·.handoverRequired)
  let deliveryOnly := Incidents.aboard order.executionStatus && !handoverRequired
  let originalRoute := membership.vehicleRouteId.bind fun routeId ↦
    plan.routes.find? (·.id == routeId)
  raiseFirst [
    (deliveryOnly && originalRoute.isNone, .business "RECOVERY_CONTEXT_INVALID"),
    (handoverRequired && incident.incidentLocationId.isNone,
      .business "RECOVERY_CONTEXT_INVALID")]
  return {
    orderId := order.id
    pickupLocationId := order.pickupLocationId
    deliveryLocationId := order.deliveryLocationId
    pickupReadyAt :=
      if incident.incidentType = .merchantDelay ∧ incident.merchantId = some order.merchantId then
        incident.updatedReadyAt.getD order.pickupReadyAt
      else order.pickupReadyAt
    pickupServiceSeconds := order.pickupServiceSeconds
    deliveryWindowStartAt := order.deliveryWindowStartAt
    deliveryWindowEndAt := order.deliveryWindowEndAt
    deliveryServiceSeconds := order.deliveryServiceSeconds
    demandLoadUnits := order.demandLoadUnits
    executionStatus := order.executionStatus
    riskStatus := order.riskStatus
    originalRouteId := membership.vehicleRouteId
    handoverRequired := handoverRequired
    handoverLocationId := if handoverRequired then incident.incidentLocationId else none
    deliveryOnly := deliveryOnly
    requiredVehicleId := if deliveryOnly then originalRoute.map (·.vehicleId) else none }

/-- The route that a membership names in its plan. -/
def namedRoute? (plan : DeliveryPlan) (membership : DeliveryPlanOrder) : Option VehicleRoute :=
  membership.vehicleRouteId.bind fun routeId ↦ plan.routes.find? (·.id == routeId)

/-- The route that a membership names is one of the plan. -/
theorem namedRoute?_mem {plan : DeliveryPlan} {membership : DeliveryPlanOrder}
    {route : VehicleRoute} (h : namedRoute? plan membership = some route) :
    route ∈ plan.routes ∧ membership.vehicleRouteId = some route.id := by
  obtain ⟨routeId, hid, hf⟩ := Option.bind_eq_some_iff.mp h
  have he : route.id = routeId := by simpa using List.find?_some hf
  exact ⟨List.mem_of_find?_eq_some hf, by rw [hid, he]⟩

/-- What the facts of a target order say about the rows they were read from. -/
structure FactOf (incident : Incident) (plan : DeliveryPlan) (membership : DeliveryPlanOrder)
    (order : Order) (fact : RecoveryOrderFact) : Prop where
  orderId : fact.orderId = order.id
  executionStatus : fact.executionStatus = order.executionStatus
  demand : fact.demandLoadUnits = order.demandLoadUnits
  pickupReadyAt : fact.pickupReadyAt =
    if incident.incidentType = .merchantDelay ∧ incident.merchantId = some order.merchantId then
      incident.updatedReadyAt.getD order.pickupReadyAt
    else order.pickupReadyAt
  originalRouteId : fact.originalRouteId = membership.vehicleRouteId
  handoverRequired : fact.handoverRequired =
    (incident.affectedOrders.find? (·.orderId == order.id)).any (·.handoverRequired)
  handoverLocationId : fact.handoverRequired = true →
    fact.handoverLocationId = incident.incidentLocationId ∧ incident.incidentLocationId.isSome
  deliveryOnly : fact.deliveryOnly =
    (Incidents.aboard order.executionStatus && !fact.handoverRequired)
  requiredVehicleId : fact.deliveryOnly = true → ∃ route,
    namedRoute? plan membership = some route ∧ fact.requiredVehicleId = some route.vehicleId
  anyVehicle : fact.deliveryOnly = false → fact.requiredVehicleId = none

/-- The facts of a target order are read from its membership and its live row. -/
theorem orderFact_ok {db : Database} {incident : Incident} {plan : DeliveryPlan}
    {orderId : UUID} {fact : RecoveryOrderFact}
    (h : orderFact db incident plan orderId = .ok fact) :
    ∃ membership order, plan.planOrders.find? (·.orderId == orderId) = some membership ∧
      db.order? orderId = some order ∧ FactOf incident plan membership order fact := by
  obtain ⟨membership, hm, h⟩ := bind_eq_ok.mp h
  obtain ⟨order, ho, h⟩ := bind_eq_ok.mp h
  obtain ⟨hguards, h⟩ := unit_bind_eq_ok.mp h
  cases h
  rw [orRaise_eq_ok] at hm ho
  have hid : order.id = orderId := by simpa using List.find?_some ho
  subst hid
  rw [raiseFirst_cons_eq_ok, raiseFirst_cons_eq_ok] at hguards
  obtain ⟨hroute, hlocation, -⟩ := hguards
  refine ⟨membership, order, hm, ho, rfl, rfl, rfl, rfl, rfl, rfl, ?_, rfl, ?_, ?_⟩
  · intro hrequired
    refine ⟨if_pos hrequired, ?_⟩
    cases hl : incident.incidentLocationId with
    | some location => rfl
    | none =>
      rw [hl, Option.isNone_none, Bool.and_true] at hlocation
      exact absurd (hlocation.symm.trans hrequired) Bool.false_ne_true
  · intro honly
    cases hn : namedRoute? plan membership with
    | some route => exact ⟨route, rfl, (if_pos honly).trans (congrArg _ hn)⟩
    | none =>
      rw [namedRoute?] at hn
      rw [hn, Option.isNone_none, Bool.and_true] at hroute
      exact absurd (hroute.symm.trans honly) Bool.false_ne_true
  · intro honly
    exact if_neg (Bool.eq_false_iff.mp honly)

/-- The places of a target order are those of its live row. -/
theorem orderFact_locations {db : Database} {incident : Incident} {plan : DeliveryPlan}
    {orderId : UUID} {fact : RecoveryOrderFact}
    (h : orderFact db incident plan orderId = .ok fact) :
    ∃ order, db.order? fact.orderId = some order ∧
      fact.pickupLocationId = order.pickupLocationId ∧
      fact.deliveryLocationId = order.deliveryLocationId := by
  obtain ⟨membership, -, h⟩ := bind_eq_ok.mp h
  obtain ⟨order, ho, h⟩ := bind_eq_ok.mp h
  obtain ⟨-, h⟩ := unit_bind_eq_ok.mp h
  cases h
  rw [orRaise_eq_ok] at ho
  have hid : order.id = orderId := by simpa using List.find?_some ho
  subst hid
  exact ⟨order, ho, rfl, rfl⟩

/-! ### Vehicles -/

/-- `get_vehicle_driver_pairs_for_window`, `fleet_repository.py`: the open assignments that
meet the window, by vehicle code. -/
def vehicleDriverPairsForWindow (db : Database) (operationalFrom operationalUntil : Instant) :
    List (VehicleDriverAssignment × Vehicle × Driver) :=
  (db.assignments.filterMap fun assignment ↦
    if (assignment.status = .planned ∨ assignment.status = .active) ∧
        assignment.assignedFromAt ≤ operationalUntil ∧
        assignment.assignedUntilAt.all (operationalFrom < ·) then
      match db.vehicle? assignment.vehicleId, db.driver? assignment.driverId with
      | some vehicle, some driver => some (assignment, vehicle, driver)
      | _, _ => none
    else none).insertionSort fun a b ↦ a.2.1.vehicleCode ≤ b.2.1.vehicleCode

/-- The `usable` pairs, `deterministic_context.py:293`. -/
def usablePairs (db : Database) (incident : Incident) (plan : DeliveryPlan)
    (scope : ReplanningScope) (currentTime planningEnd : Instant) :
    List (VehicleDriverAssignment × Vehicle × Driver) :=
  (vehicleDriverPairsForWindow db currentTime planningEnd).filter fun (_, vehicle, driver) ↦
    vehicle.status != .unavailable && driver.status != .unavailable &&
      (scope != .affectedRoute || plan.routes.any fun route ↦
        (affectedRouteIds incident).contains route.id && route.vehicleId == vehicle.id)

/-- `onboard_loads.get(vehicle_id, 0)`, `deterministic_context.py:306`. -/
def onboardLoad (facts : List RecoveryOrderFact) (vehicleId : UUID) : Nat :=
  ((facts.filter fun order ↦ order.deliveryOnly && order.requiredVehicleId == some vehicleId).map
    (·.demandLoadUnits)).sum

/-- `vehicle_facts`, `deterministic_context.py:312`. -/
def vehicleFacts (facts : List RecoveryOrderFact) (currentTime planningEnd : Instant)
    (usable : List (VehicleDriverAssignment × Vehicle × Driver)) : List RecoveryVehicleFact :=
  (usable.filter fun (assignment, _, _) ↦
    assignment.assignedUntilAt.getD planningEnd ≥ currentTime).map
      fun (assignment, vehicle, _) ↦ {
        assignmentId := assignment.id
        vehicleId := assignment.vehicleId
        driverId := assignment.driverId
        capacityLoadUnits := vehicle.capacityLoadUnits
        initialLoadLoadUnits := onboardLoad facts assignment.vehicleId
        startLocationId := vehicle.currentLocationId
        availableFrom := max assignment.assignedFromAt currentTime
        availableUntil := assignment.assignedUntilAt.getD planningEnd }

/-! ### The context -/

/-- `_route_snapshot`, `deterministic_context.py:398`. -/
def routeSnapshot (route : VehicleRoute) : VehicleRoute :=
  { route with stops := route.stops.insertionSort fun a b ↦ a.sequenceNo ≤ b.sequenceNo }

/-- The `impact_snapshots`, `deterministic_context.py:381`. -/
def impactSnapshots (incident : Incident) : List ImpactSnapshot :=
  (incident.affectedOrders.insertionSort fun a b ↦ a.orderId ≤ b.orderId).map fun item ↦ {
    orderId := item.orderId
    executionStatusSnapshot := item.executionStatusSnapshot
    riskStatusSnapshot := item.riskStatusSnapshot
    requiresReplanning := item.requiresReplanning
    handoverRequired := item.handoverRequired
    wasCompleted := item.wasCompleted
    impactType := item.impactType }

/-- The `locations`, `deterministic_context.py:343`, in the order they are first added. -/
def contextLocations (incident : Incident) (plan : DeliveryPlan)
    (facts : List RecoveryOrderFact)
    (usable : List (VehicleDriverAssignment × Vehicle × Driver)) : List UUID :=
  let ofRoutes := plan.routes.flatMap fun route ↦
    route.startLocationId :: route.endLocationId :: route.stops.map (·.locationId)
  let ofOrders := facts.flatMap fun order ↦ [order.pickupLocationId, order.deliveryLocationId]
  let ofVehicles := usable.map fun (_, vehicle, _) ↦ vehicle.currentLocationId
  (ofRoutes ++ ofOrders ++ incident.incidentLocationId.toList ++ ofVehicles).eraseDups

/-- The guards of `deterministic_context.py:159` on the incident. -/
def incidentGuards (incident : Incident) : List (Bool × AppError) :=
  [(incident.status == .resolved, .conflict "RECOVERY_NOT_REQUIRED"),
    (affectedOrders incident == [], .conflict "RECOVERY_NOT_REQUIRED"),
    (incident.incidentType == .vehicleUnavailable && incident.incidentLocationId.isNone,
      .business "RECOVERY_CONTEXT_INVALID")]

/-- `materialize_recovery_context`, `deterministic_context.py:147`; `operationalTime` is the
given time or, without one, the clock. -/
def materializeRecoveryContext (db : Database) (incidentId : UUID) (scope : ReplanningScope)
    (operationalTime : Instant) : Except AppError RecoveryContext := do
  let incident ← orRaise (db.incident? incidentId) (.notFound "INCIDENT_NOT_FOUND")
  raiseFirst (incidentGuards incident)
  let currentTime := max incident.detectedAt operationalTime
  let plan ← orRaise ((db.plan? incident.deliveryPlanId).filter (·.status == .current))
    (.conflict "BASE_PLAN_NOT_CURRENT")
  let facts ← (targetIds db incident plan scope).mapM (orderFact db incident plan)
  let planningEnd ← orRaise
    (facts.map fun order ↦
      order.deliveryWindowEndAt + timedelta order.deliveryServiceSeconds).max?
    (.uncaught "ValueError")
  let usable := usablePairs db incident plan scope currentTime planningEnd
  return {
    incidentId := incident.id
    incidentType := incident.incidentType
    basePlanId := plan.id
    planGroupId := plan.planGroupId
    businessDate := plan.businessDate
    baseVersionNo := plan.versionNo
    currentTime := currentTime
    scope := scope
    affectedRouteId := incident.vehicleRouteId
    targetOrders := facts
    vehicles := vehicleFacts facts currentTime planningEnd usable
    routes := (plan.routes.insertionSort fun a b ↦ a.routeNo ≤ b.routeNo).map routeSnapshot
    planOrders := plan.planOrders.insertionSort fun a b ↦ a.orderId ≤ b.orderId
    locations := contextLocations incident plan facts usable
    impactSnapshots := impactSnapshots incident
    incidentLocationId := incident.incidentLocationId
    delaySeconds := incident.delaySeconds }

/-- What a materialised context was read from. -/
structure ReadFrom (db : Database) (incident : Incident) (plan : DeliveryPlan)
    (scope : ReplanningScope) (operationalTime : Instant) (context : RecoveryContext) :
    Prop where
  guards : raiseFirst (incidentGuards incident) = .ok ()
  current : plan.status = .current
  incidentId : context.incidentId = incident.id
  incidentType : context.incidentType = incident.incidentType
  basePlanId : context.basePlanId = plan.id
  planGroupId : context.planGroupId = plan.planGroupId
  businessDate : context.businessDate = plan.businessDate
  currentTime : context.currentTime = max incident.detectedAt operationalTime
  sameScope : context.scope = scope
  affectedRouteId : context.affectedRouteId = incident.vehicleRouteId
  incidentLocationId : context.incidentLocationId = incident.incidentLocationId
  targetOrders : List.Forall₂ (fun orderId order ↦ orderFact db incident plan orderId = .ok order)
    (targetIds db incident plan scope) context.targetOrders
  vehicles : ∃ planningEnd, context.vehicles = vehicleFacts context.targetOrders
    context.currentTime planningEnd
      (usablePairs db incident plan scope context.currentTime planningEnd)
  routes : context.routes =
    (plan.routes.insertionSort fun a b ↦ a.routeNo ≤ b.routeNo).map routeSnapshot
  planOrders : context.planOrders =
    plan.planOrders.insertionSort fun a b ↦ a.orderId ≤ b.orderId

/-- A context is read from the incident and from its plan, which is CURRENT. -/
theorem materializeRecoveryContext_ok {db : Database} {incidentId : UUID}
    {scope : ReplanningScope} {operationalTime : Instant} {context : RecoveryContext}
    (h : materializeRecoveryContext db incidentId scope operationalTime = .ok context) :
    ∃ incident plan, db.incident? incidentId = some incident ∧
      db.plan? incident.deliveryPlanId = some plan ∧
      ReadFrom db incident plan scope operationalTime context := by
  obtain ⟨incident, hi, h⟩ := bind_eq_ok.mp h
  obtain ⟨hg, h⟩ := unit_bind_eq_ok.mp h
  obtain ⟨plan, hp, h⟩ := bind_eq_ok.mp h
  obtain ⟨facts, hf, h⟩ := bind_eq_ok.mp h
  obtain ⟨planningEnd, -, h⟩ := bind_eq_ok.mp h
  cases h
  rw [orRaise_eq_ok] at hi hp
  rw [Option.filter_eq_some_iff] at hp
  exact ⟨incident, plan, hi, hp.1, hg, by simpa using hp.2, rfl, rfl, rfl, rfl, rfl, rfl, rfl, rfl,
    rfl, mapM_eq_ok_iff.mp hf, ⟨planningEnd, rfl⟩, rfl, rfl⟩

/-- The vehicles and the locations of a context are those of the pairs that serve it until the
last deadline. -/
theorem materializeRecoveryContext_vehicles {db : Database} {incidentId : UUID}
    {scope : ReplanningScope} {operationalTime : Instant} {context : RecoveryContext}
    (h : materializeRecoveryContext db incidentId scope operationalTime = .ok context)
    {incident : Incident} {plan : DeliveryPlan} (hi : db.incident? incidentId = some incident)
    (hp : db.plan? incident.deliveryPlanId = some plan) :
    ReadFrom db incident plan scope operationalTime context ∧ ∃ planningEnd,
      (context.targetOrders.map fun order ↦
        order.deliveryWindowEndAt + timedelta order.deliveryServiceSeconds).max? =
          some planningEnd ∧
      context.vehicles = vehicleFacts context.targetOrders context.currentTime planningEnd
        (usablePairs db incident plan scope context.currentTime planningEnd) ∧
      context.locations = contextLocations incident plan context.targetOrders
        (usablePairs db incident plan scope context.currentTime planningEnd) := by
  obtain ⟨incident', plan', hi', hp', hr⟩ := materializeRecoveryContext_ok h
  rw [hi, Option.some.injEq] at hi'
  subst hi'
  rw [hp, Option.some.injEq] at hp'
  subst hp'
  refine ⟨hr, ?_⟩
  obtain ⟨row, hrow, h⟩ := bind_eq_ok.mp h
  obtain ⟨-, h⟩ := unit_bind_eq_ok.mp h
  obtain ⟨base, hbase, h⟩ := bind_eq_ok.mp h
  obtain ⟨facts, -, h⟩ := bind_eq_ok.mp h
  obtain ⟨planningEnd, hend, h⟩ := bind_eq_ok.mp h
  cases h
  rw [orRaise_eq_ok] at hrow hbase hend
  rw [hi, Option.some.injEq] at hrow
  subst hrow
  rw [Option.filter_eq_some_iff, hp, Option.some.injEq] at hbase
  obtain ⟨rfl, -⟩ := hbase
  exact ⟨planningEnd, hend, rfl, rfl⟩

namespace ReadFrom

variable {db : Database} {incident : Incident} {plan : DeliveryPlan} {scope : ReplanningScope}
  {operationalTime : Instant} {context : RecoveryContext}

/-- The routes of a context are those of its plan, with their stops in sequence. -/
theorem mem_routes (h : ReadFrom db incident plan scope operationalTime context)
    (route : VehicleRoute) :
    route ∈ context.routes ↔ ∃ base ∈ plan.routes, routeSnapshot base = route := by
  rw [h.routes, List.mem_map]
  simp only [List.mem_insertionSort]

/-- The routes of a context keep the numbers and vehicles of those of its plan. -/
theorem routes_map {α : Type} (h : ReadFrom db incident plan scope operationalTime context)
    (f : VehicleRoute → α) (hf : ∀ route, f (routeSnapshot route) = f route) :
    (context.routes.map f).Perm (plan.routes.map f) := by
  rw [h.routes, List.map_map]
  have hcomp : f ∘ routeSnapshot = f := funext hf
  rw [hcomp]
  exact (List.perm_insertionSort _ plan.routes).map f

/-- The routes of a context stand in the order of their numbers. -/
theorem routes_sorted (h : ReadFrom db incident plan scope operationalTime context)
    (hno : (plan.routes.map (·.routeNo)).Nodup) :
    context.routes.Pairwise fun a b ↦ a.routeNo < b.routeNo := by
  have hle : context.routes.Pairwise fun a b ↦ a.routeNo ≤ b.routeNo := by
    rw [h.routes, List.pairwise_map]
    have hsorted := List.pairwise_insertionSort
      (fun a b : VehicleRoute ↦ a.routeNo ≤ b.routeNo) plan.routes
    exact hsorted
  have hne : context.routes.Pairwise fun a b ↦ a.routeNo ≠ b.routeNo := by
    have hperm := h.routes_map (·.routeNo) fun _ ↦ rfl
    have hnodup := hperm.nodup_iff.mpr hno
    rw [List.nodup_iff_pairwise_ne, List.pairwise_map] at hnodup
    exact hnodup
  exact (hle.and hne).imp fun hab ↦ by omega

/-- The memberships of a context are those of its plan. -/
theorem mem_planOrders (h : ReadFrom db incident plan scope operationalTime context)
    (membership : DeliveryPlanOrder) :
    membership ∈ context.planOrders ↔ membership ∈ plan.planOrders := by
  rw [h.planOrders, List.mem_insertionSort]

end ReadFrom

end PenroseRoute.Recovery
