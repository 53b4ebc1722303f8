import PenroseRoute.Recovery.CandidateMemberships

/-!
# When a candidate agrees with itself

`_create_candidate` counts and sums what it writes, so a candidate can only disagree with
itself in its memberships: this module says exactly when it does not, for the base plan and an
accepted result, and that an agreeing candidate passes the check before a decision.
-/

namespace PenroseRoute.Recovery

open PenroseRoute.Db PenroseRoute.Lib PenroseRoute.Optimization PenroseRoute.Decisions

/-! ### Accepted results -/

/-- A result that the workflows persist: feasible, complete and without any issue. -/
structure Accepted (input : SolverInput) (result : SolverResult) : Prop where
  feasible : result.status = .feasible
  complete : result.unassignedOrders = []
  valid : SolverResultValidator.validate input result = []

namespace Accepted

variable {input : SolverInput} {result : SolverResult}

/-- An accepted result is a feasible routing, up to empty routes. -/
theorem routing (h : Accepted input result) : RoutingUpToEmptyRoutes input result :=
  (validate_eq_nil result h.feasible).mp h.valid

/-- Every order of the input is served by one route, and only by that one. -/
theorem served (h : Accepted input result) {order : SolverOrder} (ho : order ∈ input.orders) :
    ∃ route ∈ result.routes, ServedOn order route ∧
      ∀ other ∈ result.routes, other.Visits order.orderId → other = route := by
  rcases h.routing.accounted order ho with ⟨hc, -⟩ | ⟨-, hs⟩
  · rw [SolverResult.unassignedCount, h.complete] at hc
    cases hc
  · exact hs

/-- A route that visits an order delivers it, and no other route visits it. -/
theorem visits (h : Accepted input result) {orderId : UUID} {solver : SolverRoute}
    (hs : solver ∈ result.routes) (hv : solver.Visits orderId) :
    servesDelivery orderId solver = true ∧
      ∀ other ∈ result.routes, other.Visits orderId → other = solver := by
  obtain ⟨stop, hstop, hid⟩ := hv
  obtain ⟨order, ho, he⟩ := h.routing.known solver hs stop hstop
  rw [hid] at he
  subst he
  obtain ⟨route, hr, hserved, hu⟩ := h.served ho
  have hsame := hu solver hs ⟨stop, hstop, hid⟩
  subst hsame
  obtain ⟨delivery, hd, hdo, hD⟩ := hserved.delivery
  refine ⟨?_, hu⟩
  simp only [servesDelivery, List.any_eq_true, Bool.and_eq_true, beq_iff_eq]
  exact ⟨delivery, hd, hdo, hD.kind⟩

end Accepted

/-! ### Created candidates -/

namespace Created

variable {db : Database} {context : RecoveryContext} {result : SolverResult}
  {plan : DeliveryPlan}

/-- The constraints of a flushed candidate. -/
theorem constraints_iff (db : Database) (plan : DeliveryPlan) :
    plan.constraintsHold db = true ↔
      (∀ route ∈ plan.routes, route.checks = true) ∧ (plan.routes.map (·.vehicleId)).Nodup ∧
      (plan.routes.map (·.assignmentId)).Nodup ∧ (plan.planOrders.map (·.orderId)).Nodup ∧
      ∀ route ∈ plan.routes, ∀ stop ∈ route.stops, stop.relationshipsValid db plan = true := by
  simp [DeliveryPlan.constraintsHold, and_assoc]

/-- A candidate has one route per vehicle. -/
theorem vehicles_nodup (h : Created db context result plan) :
    (plan.routes.map (·.vehicleId)).Nodup :=
  ((constraints_iff db plan).mp h.constraints).2.1

/-- A candidate has one membership per order. -/
theorem planOrders_nodup (h : Created db context result plan) :
    (plan.planOrders.map (·.orderId)).Nodup :=
  ((constraints_iff db plan).mp h.constraints).2.2.2.1

/-- The routes of a candidate have different ids. -/
theorem routeIds_nodup (h : Created db context result plan) :
    (plan.routes.map (·.id)).Nodup := by
  have hall : (plan.routes.flatMap fun route ↦ route.id :: route.stops.map (·.id)).Nodup := by
    rw [h.ids]
    exact List.nodup_range'
  have hsub : (plan.routes.map (·.id)).Sublist
      (plan.routes.flatMap fun route ↦ route.id :: route.stops.map (·.id)) := by
    induction plan.routes with
    | nil => exact .slnil
    | cons route routes ih =>
      rw [List.map_cons, List.flatMap_cons, List.cons_append]
      exact (ih.trans (List.sublist_append_right _ _)).cons_cons _
  exact hsub.nodup hall

/-- The memberships of a candidate are those of the base plan, order by order. -/
theorem planOrders_orderId (h : Created db context result plan) :
    plan.planOrders.map (·.orderId) = context.planOrders.map (·.orderId) := by
  have hm : ∀ snapshot membership,
      candidateMembership plan.routes result snapshot = .ok membership →
        snapshot.orderId = membership.orderId :=
    fun _ _ hm ↦ (candidateMembership_ok hm).1.symm
  exact (map_eq_map_of_forall₂ hm h.planOrders).symm

-- An order's membership names the route that delivers it when the last pass with a stop of
-- the order does.
private theorem names_iff (h : Created db context result plan)
    {snapshot membership : DeliveryPlanOrder}
    (hm : candidateMembership plan.routes result snapshot = .ok membership) :
    (membership.assignmentStatus = .assigned → NamesDeliveringRoute plan membership) ↔
      LastPassDelivers context (routeTasks context result) snapshot.orderId := by
  obtain ⟨ho, hcase⟩ := candidateMembership_ok hm
  have hrev := List.forall₂_reverse_iff.mpr h.routes
  rcases find?_of_forall₂ (fun _ _ hb ↦ hb.holds snapshot.orderId) hrev with
    ⟨htask, hroute⟩ | ⟨task, route, hb, htask, hroute⟩
  · rcases hcase with ⟨-, route, hf, -⟩ | ⟨hun, -, -⟩
    · rw [hroute] at hf
      cases hf
    · constructor
      · intro _ last hl
        rw [htask] at hl
        cases hl
      · intro _ ha
        rw [hun] at ha
        cases ha
  · rcases hcase with ⟨ha, route', hf, hr⟩ | ⟨-, -, hf⟩
    swap
    · rw [hroute] at hf
      cases hf
    rw [hroute, Option.some.injEq] at hf
    subst hf
    have hmem : route ∈ plan.routes := List.mem_reverse.mp (List.mem_of_find?_eq_some hroute)
    constructor
    · intro hn last hl
      rw [htask, Option.some.injEq] at hl
      subst hl
      obtain ⟨named, hnm, he, hd, hu⟩ := hn ha
      have hsame : route = named := by
        rw [hr, Option.some.injEq] at he
        exact eq_of_key_eq h.routeIds_nodup hmem hnm he
      subst hsame
      rw [ho] at hd hu
      refine ⟨by rw [hb.delivers, hd], ?_⟩
      intro other hother hdo
      obtain ⟨r, hrm, hbr⟩ := exists_of_forall₂_left h.routes hother
      rw [hbr.delivers] at hdo
      rw [← hbr.vehicleId, hu r hrm hdo, hb.vehicleId]
    · intro hl _
      obtain ⟨hd, hu⟩ := hl task htask
      refine ⟨route, hmem, hr, by rw [ho, ← hb.delivers, hd], ?_⟩
      intro other hother hdo
      rw [ho] at hdo
      obtain ⟨t, htm, hbt⟩ := exists_of_forall₂_right h.routes hother
      have he := hu t htm (by rw [hbt.delivers, hdo])
      exact eq_of_key_eq h.vehicles_nodup hother hmem
        (by rw [hbt.vehicleId, he, ← hb.vehicleId])

/-- A candidate agrees with itself and with its base plan exactly when, for every order of the
base plan, the last route that holds a stop of it is the one that delivers it. -/
theorem agrees_iff (h : Created db context result plan) {base : DeliveryPlan}
    (hbase : ∀ membership, membership ∈ context.planOrders ↔ membership ∈ base.planOrders)
    (hveh : (context.routes.map (·.vehicleId)).Nodup)
    (hno : context.routes.Pairwise fun a b ↦ a.routeNo < b.routeNo) {input : SolverInput}
    (hacc : Accepted input result) :
    Agrees base plan ↔
      ∀ membership ∈ base.planOrders, LastRouteDelivers context result membership.orderId := by
  have hiff := fun orderId ↦ lastPassDelivers_iff hveh hno hacc.routing.vehicles orderId
    fun solver hs hv ↦ hacc.visits hs hv
  constructor
  · intro ha snapshot hs
    rw [← hiff]
    obtain ⟨membership, hmem, hm⟩ :=
      exists_of_forall₂_left h.planOrders ((hbase snapshot).mpr hs)
    exact (h.names_iff hm).mp (ha.memberships membership hmem)
  · intro hl
    refine ⟨h.planOrders_nodup, ?_, ?_, ?_, ?_, ?_, ?_, ?_⟩
    · intro orderId
      rw [h.planOrders_orderId, List.mem_map, List.mem_map]
      simp only [hbase]
    · intro membership hmem
      obtain ⟨snapshot, hs, hm⟩ := exists_of_forall₂_right h.planOrders hmem
      exact (h.names_iff hm).mpr ((hiff _).mpr (hl snapshot ((hbase snapshot).mp hs)))
    all_goals rw [h.row]; rfl

end Created

/-- For a context read from the database and an accepted result: the memberships, counts and
totals of the candidate agree with its routes and stops and it passes the check before a
decision, exactly when the last route with a stop of each order delivers it. -/
theorem createCandidate_agrees_iff {db db₁ db₂ : Database} {incidentId : UUID}
    {scope : ReplanningScope} {operationalTime : Instant} {context : RecoveryContext}
    {base candidate : DeliveryPlan} {input : SolverInput} {result : SolverResult}
    {roads : RoadRoutes}
    (hread : materializeRecoveryContext db incidentId scope operationalTime = .ok context)
    (hbase : db.plan? context.basePlanId = some base)
    (hno : (base.routes.map (·.routeNo)).Nodup) (hveh : (base.routes.map (·.vehicleId)).Nodup)
    (hacc : Accepted input result)
    (hcreated : createCandidate db₁ context result roads = .ok (db₂, candidate)) :
    (Agrees base candidate ∧ snapshotConsistent base candidate = true) ↔
      ∀ membership ∈ base.planOrders,
        LastRouteDelivers context result membership.orderId := by
  obtain ⟨incident, plan, -, hp, hr⟩ := materializeRecoveryContext_ok hread
  have hplan : plan = base := by
    have he : plan.id = incident.deliveryPlanId := by simpa using List.find?_some hp
    rw [hr.basePlanId, he, hp, Option.some.injEq] at hbase
    exact hbase
  subst hplan
  have hnew := (createCandidate_ok hcreated).1
  have hveh' : (context.routes.map (·.vehicleId)).Nodup :=
    (hr.routes_map (·.vehicleId) fun _ ↦ rfl).nodup_iff.mpr hveh
  rw [← hnew.agrees_iff hr.mem_planOrders hveh' (hr.routes_sorted hno) hacc]
  constructor
  · exact fun h ↦ h.1
  · exact fun h ↦ ⟨h, h.snapshotConsistent hnew.routeIds_nodup⟩

/-! ### A handover to an earlier route -/

/-- A stop of the scenario, done or not. -/
def scenarioStop (id orderId locationId sequenceNo : Nat) (stopType : StopType)
    (precedence : Option UUID) (done : Bool) : RouteStop where
  id := id
  orderId := orderId
  locationId := locationId
  stopType := stopType
  sequenceNo := sequenceNo
  precedenceStopId := precedence
  sourceIncidentId := none
  plannedArrivalAt := sequenceNo * 100000000
  plannedDepartureAt := sequenceNo * 100000000 + 60000000
  actualArrivalAt := if done then some (sequenceNo * 100000000) else none
  actualDepartureAt := if done then some (sequenceNo * 100000000 + 60000000) else none
  serviceSeconds := 60
  timeWindowStartAt := some 0
  timeWindowEndAt := if stopType = .delivery then some 7200000000 else none
  demandLoadUnitsSnapshot := 1
  status := if done then .completed else .planned

/-- A route of the scenario, from the store to its customer. -/
def scenarioRoute (id routeNo vehicleId endLocationId : Nat) (status : RouteStatus)
    (stops : List RouteStop) : VehicleRoute where
  id := id
  routeNo := routeNo
  vehicleId := vehicleId
  driverId := vehicleId + 1
  assignmentId := vehicleId + 2
  startLocationId := 1
  endLocationId := endLocationId
  status := status
  plannedStartAt := 0
  plannedEndAt := 260000000
  actualStartAt := if status = .planned then none else some 100000000
  actualEndAt := none
  distanceMeters := 100
  durationSeconds := 260
  capacityLoadUnits := 5
  routeGeometry := none
  routeMetrics := none
  stops := stops

/-- An order of the scenario, from the store of location 1. -/
def scenarioOrder (id deliveryLocationId : Nat) (status : OrderExecutionStatus) : Order where
  id := id
  orderCode := "ORDER-" ++ toString id
  businessDate := 738000
  merchantId := 7
  customerId := 8
  pickupLocationId := 1
  deliveryLocationId := deliveryLocationId
  pickupReadyAt := 0
  pickupServiceSeconds := 60
  deliveryWindowStartAt := 0
  deliveryWindowEndAt := 7200000000
  deliveryServiceSeconds := 60
  demandLoadUnits := 1
  executionStatus := status
  riskStatus := .normal

/-- Two routes under way, with the given numbers: that of vehicle 10, which has picked up order
32, and that of vehicle 20, which has picked up order 31. -/
def handoverBase (ownNo brokenNo : Nat) : DeliveryPlan where
  id := 40
  planGroupId := 39
  businessDate := 738000
  versionNo := 1
  parentPlanId := none
  status := .current
  validationStatus := .valid
  totalDistanceMeters := 200
  totalDurationSeconds := 520
  vehicleCount := 2
  assignedOrderCount := 2
  unassignedOrderCount := 0
  planningFactsSha256 := none
  routes := [
    scenarioRoute 41 ownNo 10 3 .active [scenarioStop 51 32 1 1 .pickup none true,
      scenarioStop 52 32 3 2 .delivery (some 51) false],
    scenarioRoute 42 brokenNo 20 2 .active [scenarioStop 53 31 1 1 .pickup none true,
      scenarioStop 54 31 2 2 .delivery (some 53) false]]
  planOrders := [⟨31, .assigned, some 42, none, none⟩, ⟨32, .assigned, some 41, none, none⟩]

/-- Vehicle 20 has broken down at location 4 with order 31 aboard. -/
def handoverIncident : Incident where
  id := 60
  incidentType := .vehicleUnavailable
  status := .replanning
  deliveryPlanId := 40
  vehicleRouteId := some 42
  vehicleId := some 20
  merchantId := none
  incidentLocationId := some 4
  originalReadyAt := none
  updatedReadyAt := none
  delaySeconds := none
  detectedAt := 200000000
  affectedOrders :=
    [⟨31, some 42, .pickedUp, .normal, true, false, true, true, .handoverRequired⟩]

/-- The database after the breakdown. -/
def handoverDatabase (ownNo brokenNo : Nat) : Database where
  orders := [scenarioOrder 31 2 .pickedUp, scenarioOrder 32 3 .pickedUp]
  vehicles := [⟨10, "V10", 5, .active, 1, 0⟩, ⟨20, "V20", 5, .unavailable, 4, 200000000⟩]
  drivers := [⟨11, .active⟩, ⟨21, .active⟩]
  assignments := [⟨12, 10, 11, .active, 0, none, some 100000000, none⟩,
    ⟨22, 20, 21, .active, 0, none, some 100000000, none⟩]
  merchants := [7]
  plans := [handoverBase ownNo brokenNo]
  incidents := [handoverIncident]
  recoveryPlans := []
  nextId := 100

/-- All distances and travel times between the locations of the scenario are equal. -/
def handoverMatrix : RoutingMatrix where
  locationIds := [1, 3, 2, 4]
  distanceMatrixMeters := [[0, 100, 100, 100], [100, 0, 100, 100], [100, 100, 0, 100],
    [100, 100, 100, 0]]
  durationMatrixSeconds := [[0, 60, 60, 60], [60, 0, 60, 60], [60, 60, 0, 60], [60, 60, 60, 0]]

/-- Vehicle 10 takes order 31 over at the breakdown and delivers both orders. -/
def handoverResult : SolverResult where
  status := .feasible
  routes := [{
    vehicleId := 10
    stops := [servedStop 31 4 .handover 0 60 60 1,
      servedStop 31 2 .delivery 1 180 60 (-1),
      servedStop 32 3 .delivery 2 300 60 (-1)]
    distanceMeters := 300
    durationSeconds := 360 }]
  unassignedOrders := []
  totalDistanceMeters := 300
  totalDurationSeconds := 360
  diagnostic := none

/-- The context of the scenario when vehicle 10 drives route number 1. -/
def handoverContext : RecoveryContext :=
  (materializeRecoveryContext (handoverDatabase 1 2) 60 .crossRoute 300000000).toOption.get rfl

/-- The database and the candidate that `_create_candidate` makes of it. -/
def handoverCandidate : Database × DeliveryPlan :=
  (createCandidate (handoverDatabase 1 2) handoverContext handoverResult none).toOption.get rfl

/-- A handover to a route with a smaller number: the membership of the order names the route
of the broken vehicle, which is the last one with a stop of the order, and the candidate can
never be decided. -/
theorem handover_membership_disagrees :
    Consistent (handoverBase 1 2) ∧
      materializeRecoveryContext (handoverDatabase 1 2) 60 .crossRoute 300000000 =
        .ok handoverContext ∧
      (∃ input, buildRecoverySolverInput handoverContext handoverMatrix = .ok input ∧
        Accepted input handoverResult) ∧ handoverResult.NoEmptyRoute ∧
      createCandidate (handoverDatabase 1 2) handoverContext handoverResult none =
        .ok handoverCandidate ∧
      ¬ Agrees (handoverBase 1 2) handoverCandidate.2 ∧
      snapshotConsistent (handoverBase 1 2) handoverCandidate.2 = false := by
  have hcheck : snapshotConsistent (handoverBase 1 2) handoverCandidate.2 = false := by
    decide +kernel
  refine ⟨⟨by decide, ?_⟩, rfl, ⟨_, rfl, rfl, rfl, by decide +kernel⟩, ?_, rfl, ?_, hcheck⟩
  · intro membership hm _
    simp only [handoverBase, List.mem_cons, List.not_mem_nil, or_false] at hm
    rcases hm with rfl | rfl
    · exact ⟨_, List.mem_cons_of_mem _ List.mem_cons_self, rfl, by decide, by decide⟩
    · exact ⟨_, List.mem_cons_self, rfl, by decide, by decide⟩
  · intro route hr
    rw [List.mem_singleton.mp hr]
    decide
  · intro h
    have hids : (handoverCandidate.2.routes.map (·.id)).Nodup := by decide +kernel
    rw [h.snapshotConsistent hids] at hcheck
    cases hcheck

/-- The context of the scenario when vehicle 10 drives route number 2. -/
def laterContext : RecoveryContext :=
  (materializeRecoveryContext (handoverDatabase 2 1) 60 .crossRoute 300000000).toOption.get rfl

/-- The database and the candidate that `_create_candidate` makes of it. -/
def laterCandidate : Database × DeliveryPlan :=
  (createCandidate (handoverDatabase 2 1) laterContext handoverResult none).toOption.get rfl

/-- The solver input of that context. -/
def laterInput : SolverInput :=
  (buildRecoverySolverInput laterContext handoverMatrix).toOption.get rfl

/-- The same handover to a route with a larger number: the candidate agrees with itself. -/
theorem handover_to_later_route_agrees :
    Agrees (handoverBase 2 1) laterCandidate.2 ∧
      snapshotConsistent (handoverBase 2 1) laterCandidate.2 = true := by
  have hread : materializeRecoveryContext (handoverDatabase 2 1) 60 .crossRoute 300000000 =
      .ok laterContext := rfl
  have hcreated : createCandidate (handoverDatabase 2 1) laterContext handoverResult none =
      .ok (laterCandidate.1, laterCandidate.2) := rfl
  have hacc : Accepted laterInput handoverResult := ⟨rfl, rfl, by decide +kernel⟩
  refine (createCandidate_agrees_iff hread rfl (by decide) (by decide) hacc hcreated).mpr ?_
  have hroutes : ∀ orderId ∈ (handoverBase 2 1).planOrders.map (·.orderId),
      (∃ stop ∈ (handoverResult.routes.flatMap (·.stops)), stop.orderId = orderId) ∧
      (∀ other ∈ laterContext.routes, keepsDelivery laterContext orderId other = true →
        other.vehicleId = 10) ∧
      ∀ own ∈ laterContext.routes, own.vehicleId = 10 →
        ∀ other ∈ laterContext.routes, keeps laterContext orderId other = true →
          other.routeNo ≤ own.routeNo := by
    decide +kernel
  intro membership hm
  obtain ⟨⟨stop, hs, he⟩, hk⟩ := hroutes _ (List.mem_map.mpr ⟨membership, hm, rfl⟩)
  constructor
  · intro hn
    obtain ⟨solver, hsolver, hstop⟩ := List.mem_flatMap.mp hs
    exact absurd ⟨stop, hstop, he⟩ (hn solver hsolver)
  · intro solver hsolver _
    rw [List.mem_singleton.mp hsolver]
    exact hk

end PenroseRoute.Recovery
