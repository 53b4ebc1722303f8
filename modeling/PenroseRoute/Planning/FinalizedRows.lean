import PenroseRoute.Planning.FinalizedPlan
import PenroseRoute.Recovery.CandidateFeasible

/-!
# The rows of an accepted result

The times, loads and places of the rows that `PlanFinalizer.finalize` makes, and with them the
constraints of the tables that the flush has to meet.
-/

namespace PenroseRoute.Planning

open PenroseRoute.Db PenroseRoute.Lib PenroseRoute.Operations PenroseRoute.Optimization
open PenroseRoute.Recovery PenroseRoute.Resources

variable {facts : PlanningFacts} {matrix : RoutingMatrix} {input : SolverInput}
  {result : SolverResult} {roads : RoadRoutes}

/-! ### The input of a pair and of an order -/

/-- A vehicle is available from the start of its assignment, in seconds from now. -/
theorem planningSolverVehicle_available {pair : VehicleDriverPairFact} {vehicle : SolverVehicle}
    (h : planningSolverVehicle facts pair = .ok vehicle) :
    max 0 (totalSeconds (pair.assignedFromAt - facts.currentTime)) =
        (vehicle.availableFromSeconds : Int) ∧
      pair.capacityLoadUnits = vehicle.capacityLoadUnits := by
  obtain ⟨seconds, hseconds, h⟩ := bind_eq_ok.mp h
  obtain ⟨_, -, h⟩ := bind_eq_ok.mp h
  have hfields := SolverVehicle.make_ok ((valueError_eq_ok _ _).mp h)
  unfold secondsFromCurrent at hseconds
  dsimp only at hseconds
  split at hseconds
  · cases hseconds
  · next hnonneg =>
    cases hseconds
    rw [hfields]
    refine ⟨?_, rfl⟩
    dsimp only
    omega

/-- An order keeps its load and has its goods at the merchant. -/
theorem planningSolverOrder_load {fact : PlanningOrderFact} {order : SolverOrder}
    (h : planningSolverOrder facts fact = .ok order) :
    fact.demandLoadUnits = order.demandLoadUnits ∧
      SolverResultValidator.originType order = some .pickup := by
  obtain ⟨_, -, h⟩ := bind_eq_ok.mp h
  obtain ⟨_, -, h⟩ := bind_eq_ok.mp h
  obtain ⟨_, -, h⟩ := bind_eq_ok.mp h
  have hfields := SolverOrder.make_ok ((valueError_eq_ok _ _).mp h)
  rw [SolverResultValidator.originType, hfields]
  exact ⟨rfl, rfl⟩

/-- The pairs of the facts are of different assignments. -/
theorem loadFacts_assignmentIds {db : Database} (hids : (db.assignments.map (·.id)).Nodup)
    (businessDate : BusinessDate) :
    ((loadFacts db businessDate).vehicleDriverPairs.map (·.assignmentId)).Nodup := by
  unfold loadFacts materializePlanningFacts usableAssignments
  dsimp only
  rw [List.map_map]
  refine List.Nodup.sublist (List.filter_sublist.map _) ?_
  have hrows := @nodup_vehicleDriverPairsForWindow db
    (operationalFrom businessDate (ordersForBusinessDate db businessDate))
    (operationalUntil businessDate (ordersForBusinessDate db businessDate)) hids
  refine List.pairwise_map.mpr ((List.pairwise_map.mp hrows).imp_of_mem ?_)
  intro a b ha hb hne hsame
  refine hne (eq_of_key_eq hids ?_ ?_ hsame)
  · exact (mem_vehicleDriverPairsForWindow.mp ha).1
  · exact (mem_vehicleDriverPairsForWindow.mp hb).1

/-! ### Routes -/

/-- The planned times of a route hold the planned times of its stops. -/
structure TimeEnvelope (route : VehicleRoute) : Prop where
  started : route.plannedStartAt ≤ route.plannedEndAt
  duration : 0 ≤ route.durationSeconds
  departed : ∀ stop ∈ route.stops, stop.plannedDepartureAt ≤ route.plannedEndAt

namespace Finalizable

variable {db : Database} {solverRoute : SolverRoute} {route : VehicleRoute}

/-- A route has the planned times of the vehicle and the stops that the solver plans with. -/
theorem envelope (h : Finalizable facts input result roads) (hsolver : solverRoute ∈ result.routes)
    (hroute : FinalizedRoute facts roads solverRoute route) :
    TimeEnvelope route ∧ 0 < route.capacityLoadUnits := by
  obtain ⟨pair, road, last, hpair, -, hlast, he⟩ := hroute.row
  obtain ⟨hp, hpid⟩ := h.plannable.pair?_eq_some.mp hpair
  obtain ⟨vehicle, hv, hvid, hdrive, -⟩ := h.routing.drivable solverRoute hsolver
  obtain ⟨pair', hp', hmake⟩ := exists_of_forall₂_right h.vehicles hv
  have hsame : pair' = pair := by
    refine eq_of_key_eq h.plannable.vehicleIds hp' hp ?_
    rw [(planningSolverVehicle_fields hmake).1, hvid, hpid]
  rw [hsame] at hmake
  obtain ⟨hfrom, hcapacity⟩ := planningSolverVehicle_available hmake
  obtain ⟨hlater, -⟩ := reaches_pairwise hdrive.reaches
  have hlastmem := List.mem_of_getLast? hlast
  have hseconds : ∀ {a b : Nat}, a ≤ b →
      facts.currentTime + timedelta a ≤ facts.currentTime + timedelta b := by
    intro a b hab
    refine Int.add_le_add_left (Int.mul_le_mul_of_nonneg_right ?_ (by decide)) _
    omega
  refine ⟨⟨?_, ?_, fun stop hs ↦ ?_⟩, ?_⟩
  · rw [he]
    dsimp only [finalizedRoute]
    rw [hfrom]
    exact hseconds ((hlater last hlastmem).trans last.arrival_le)
  · rw [he]
    exact Int.natCast_nonneg _
  · obtain ⟨solverStop, hsolverStop, order, -, hstop⟩ := exists_of_forall₂_right hroute.stops hs
    rw [he, hstop]
    exact hseconds (reaches_left_by_last hdrive.reaches hsolverStop hlast)
  · rw [he]
    have hpos : 0 < vehicle.capacityLoadUnits := (vehicle_postInit_iff.mp vehicle.checked).1
    rw [← hcapacity] at hpos
    exact hpos

/-- A route stops at most once of a kind for an order. -/
theorem stopKeys_nodup (h : Finalizable facts input result roads)
    (hsolver : solverRoute ∈ result.routes)
    (hroute : FinalizedRoute facts roads solverRoute route) :
    (route.stops.map fun stop ↦ (stop.orderId, stop.stopType)).Nodup := by
  have hkeys := map_eq_map_of_forall₂
    (fun solverStop stop (hs : FinalizedAs facts solverStop stop) ↦ by
      rw [hs.field.1, hs.field.2.1] : ∀ solverStop stop, FinalizedAs facts solverStop stop →
        (solverStop.orderId, solverStop.stopType) = (stop.orderId, stop.stopType)) hroute.stops
  rw [← hkeys, List.Nodup, List.pairwise_map, List.pairwise_iff_forall_sublist]
  intro a b hab hsame
  obtain ⟨hid, htype⟩ := Prod.mk.inj hsame
  obtain ⟨origin, delivery, hstops, hO, hD⟩ := served_stops h.routing
    (fun _ ↦ planned_origin h.orders) hsolver (hab.subset List.mem_cons_self)
  have hsub := hab.filter fun stop ↦ stop.orderId = a.orderId
  rw [List.filter_cons_of_pos (by simp), List.filter_cons_of_pos (by simp [hid]),
    List.filter_nil] at hsub
  rw [SolverRoute.stopsOf] at hstops
  rw [hstops] at hsub
  have heq := hsub.eq_of_length rfl
  rw [List.cons.injEq, List.cons.injEq] at heq
  rw [← heq.1] at hO
  rw [← heq.2.1] at hD
  exact hO (htype.trans hD)

/-! ### Stops -/

/-- A stop has the load and the place of its order, and no incident. -/
theorem stop_row (h : Finalizable facts input result roads) (hsolver : solverRoute ∈ result.routes)
    (hroute : FinalizedRoute facts roads solverRoute route) {stop : RouteStop}
    (hs : stop ∈ route.stops) : ∃ fact ∈ facts.orders, fact.orderId = stop.orderId ∧
      0 < stop.sequenceNo ∧ 0 < stop.demandLoadUnitsSnapshot ∧
      stop.plannedArrivalAt ≤ stop.plannedDepartureAt ∧ stop.sourceIncidentId = none ∧
      ((stop.stopType = .pickup ∧ stop.locationId = fact.pickupLocationId ∧
          stop.timeWindowEndAt = none) ∨
        (stop.stopType = .delivery ∧ stop.locationId = fact.deliveryLocationId ∧
          stop.timeWindowStartAt = some fact.deliveryWindowStartAt ∧
          stop.timeWindowEndAt = some fact.deliveryWindowEndAt)) := by
  obtain ⟨solverStop, hsolverStop, fact, hfact, hstop⟩ := exists_of_forall₂_right hroute.stops hs
  obtain ⟨hf, hfid⟩ := h.plannable.order?_eq_some.mp hfact
  obtain ⟨order, ho, hoid, -, hcase⟩ := h.routing.stop_cases hsolver hsolverStop
  obtain ⟨fact', hf', hmake⟩ := exists_of_forall₂_right h.orders ho
  obtain ⟨hid, hdelivery, horigin⟩ := planningSolverOrder_fields hmake
  have hsame : fact' = fact :=
    eq_of_key_eq h.plannable.orderIds hf' hf (by rw [hid, hoid, hfid])
  rw [hsame] at hmake hdelivery horigin
  obtain ⟨hload, htype⟩ := planningSolverOrder_load hmake
  have hpos : 0 < fact.demandLoadUnits := by
    rw [hload]
    exact order.demand_pos
  have harrival : facts.currentTime + timedelta solverStop.arrivalTimeSeconds ≤
      facts.currentTime + timedelta solverStop.departureTimeSeconds := by
    have hle := solverStop.arrival_le
    refine Int.add_le_add_left (Int.mul_le_mul_of_nonneg_right ?_ (by decide)) _
    omega
  refine ⟨fact, hf, ?_⟩
  rw [hstop]
  refine ⟨hfid, solverStop.sequence_pos, hpos, harrival, rfl, ?_⟩
  rcases hcase with hO | hD
  · have hkind : solverStop.stopType = .pickup := by
      have hkind := hO.kind
      rw [htype] at hkind
      exact (Option.some.inj hkind).symm
    have hlocation := hO.location
    rw [horigin] at hlocation
    refine .inl ⟨hkind, (Option.some.inj hlocation).symm, ?_⟩
    exact if_neg hO.ne_delivery
  · exact .inr ⟨hD.kind, hD.location.trans hdelivery.symm, if_pos hD.kind, if_pos hD.kind⟩

/-! ### The constraints -/

/-- The rows meet the column checks of their tables, on a database from which the facts were
read. -/
theorem route_checks (h : Finalizable facts input result roads) (hschema : SchemaChecks db)
    (hread : facts = loadFacts db facts.businessDate) {plan : DeliveryPlan}
    (hcons : ConsistentPlan facts result plan) (hnos : 0 < route.routeNo)
    (hmem : route ∈ plan.routes) (hsolver : solverRoute ∈ result.routes)
    (hroute : FinalizedRoute facts roads solverRoute route) : route.checks = true := by
  obtain ⟨henvelope, hcapacity⟩ := h.envelope hsolver hroute
  have hsequence : (route.stops.map (·.sequenceNo)).Nodup := by
    rw [hcons.sequence route hmem]
    exact List.nodup_range'
  have hstops : route.stops.all (·.checks) = true := by
    refine List.all_eq_true.mpr fun stop hs ↦ ?_
    obtain ⟨fact, hf, -, hpos, hdemand, harrival, hincident, hcase⟩ :=
      h.stop_row hsolver hroute hs
    obtain ⟨pre, post, -, horigin⟩ := hroute.linked.of_mem hs
    rw [List.nil_append, OriginBefore] at horigin
    unfold RouteStop.checks
    rcases hcase with ⟨htype, -, hend⟩ | ⟨htype, -, hstart, hend⟩
    · rw [if_neg (by rw [htype]; decide)] at horigin
      simp [hpos, hdemand, harrival, hincident, htype, hend, horigin]
    · rw [if_pos htype] at horigin
      obtain ⟨origin, -, hlink, -⟩ := horigin
      rw [hread] at hf
      obtain ⟨row, hrow, he⟩ := mem_loadFacts_orders hf
      have hwindow := hschema.orderWindows row hrow
      have hfact : fact.deliveryWindowStartAt ≤ fact.deliveryWindowEndAt := by
        rw [← he]
        exact hwindow
      simp [hpos, hdemand, harrival, hincident, htype, hstart, hend, hlink, hfact]
  unfold VehicleRoute.checks
  simp [hnos, henvelope.started, henvelope.duration, hcapacity, h.stopKeys_nodup hsolver hroute,
    hsequence, hstops]

/-- Every stop is where its order is picked up or delivered, and a delivery follows its origin. -/
theorem stop_relationships (h : Finalizable facts input result roads)
    (hids : (db.orders.map (·.id)).Nodup) (hread : facts = loadFacts db facts.businessDate)
    {plan : DeliveryPlan} (hcons : ConsistentPlan facts result plan) (hmem : route ∈ plan.routes)
    (hsolver : solverRoute ∈ result.routes)
    (hroute : FinalizedRoute facts roads solverRoute route) {stop : RouteStop}
    (hs : stop ∈ route.stops) : stop.relationshipsValid db plan = true := by
  obtain ⟨fact, hf, hfid, -, -, -, -, hcase⟩ := h.stop_row hsolver hroute hs
  rw [hread] at hf
  obtain ⟨row, hrow, rfl⟩ := mem_loadFacts_orders hf
  have horder : db.order? stop.orderId = some row :=
    (find?_key_eq_some_iff hids).mpr ⟨hrow, hfid⟩
  obtain ⟨pre, post, hsplit, horigin⟩ := hroute.linked.of_mem hs
  rw [List.nil_append, OriginBefore] at horigin
  unfold RouteStop.relationshipsValid
  rcases hcase with ⟨htype, hlocation, -⟩ | ⟨htype, hlocation, -, -⟩
  · rw [htype, horder, hlocation]
    simp [planningOrderFact]
  · rw [if_pos htype] at horigin
    obtain ⟨origin, ho, hlink, hoid, hotype⟩ := horigin
    have hostop : origin ∈ route.stops := by
      rw [hsplit]
      exact List.mem_append_left _ ho
    have hstopIds : ((plan.routes.flatMap (·.stops)).map (·.id)).Nodup := by
      have hsub : ∀ routes : List VehicleRoute, ((routes.flatMap (·.stops)).map (·.id)).Sublist
          (routes.flatMap fun route ↦ route.id :: route.stops.map (·.id)) := by
        intro routes
        induction routes with
        | nil => exact .slnil
        | cons route rest ih =>
          rw [List.flatMap_cons, List.flatMap_cons, List.map_append]
          exact (List.sublist_cons_self _ _).append ih
      exact (hsub plan.routes).nodup (List.nodup_cons.mp hcons.ids).2
    have hfind : plan.stop? origin.id = some origin :=
      (find?_key_eq_some_iff hstopIds).mpr ⟨List.mem_flatMap.mpr ⟨route, hmem, hostop⟩, rfl⟩
    have hearlier : origin.sequenceNo < stop.sequenceNo := by
      have hpairs : (route.stops.map (·.sequenceNo)).Pairwise (· < ·) := by
        rw [hcons.sequence route hmem]
        exact List.pairwise_lt_range'
      rw [hsplit, List.map_append, List.pairwise_append] at hpairs
      exact hpairs.2.2 _ (List.mem_map_of_mem ho) _ (List.mem_map_of_mem List.mem_cons_self)
    rw [htype, horder, hlocation, hlink, Option.bind_some, hfind]
    simp [hoid, hotype, hearlier, planningOrderFact]

/-- The database from which the facts were read takes the plan. -/
theorem constraintsHold {activatedAt : Option Instant} {plan : DeliveryPlan} {db' : Database}
    (h : Finalizable facts input result roads)
    (hplan : finalize db' facts result activatedAt roads = .ok plan) (hschema : SchemaChecks db)
    (hids : (db.orders.map (·.id)).Nodup) (hread : facts = loadFacts db facts.businessDate) :
    plan.constraintsHold db = true := by
  have hcons := h.consistent hplan
  obtain ⟨hroutes, hmemberships, -, hnos, -⟩ := finalize_ok hplan
  refine (Created.constraints_iff db plan).mpr
    ⟨fun route hr ↦ ?_, ?_, ?_, ?_, fun route hr stop hs ↦ ?_⟩
  · obtain ⟨solver, hsolver, hfinal⟩ := exists_of_forall₂_right hroutes hr
    have hno : route.routeNo ∈ plan.routes.map (·.routeNo) := List.mem_map_of_mem hr
    rw [hnos, List.mem_range'_1] at hno
    exact h.route_checks hschema hread hcons hno.1 hr hsolver hfinal
  · rw [h.vehicleIds hroutes]
    exact h.routing.vehicles
  · have hvehicles : (plan.routes.map (·.vehicleId)).Nodup :=
      h.vehicleIds hroutes ▸ h.routing.vehicles
    have hassignments : (facts.vehicleDriverPairs.map (·.assignmentId)).Nodup := by
      rw [hread]
      exact loadFacts_assignmentIds hschema.assignmentIds _
    have hpair : ∀ route ∈ plan.routes, ∃ pair ∈ facts.vehicleDriverPairs,
        route.assignmentId = pair.assignmentId ∧ route.vehicleId = pair.vehicleId := by
      intro route hr
      obtain ⟨solver, -, hfinal⟩ := exists_of_forall₂_right hroutes hr
      obtain ⟨pair, road, last, hpair, -, -, he⟩ := hfinal.row
      refine ⟨pair, (h.plannable.pair?_eq_some.mp hpair).1, ?_⟩
      rw [he]
      exact ⟨rfl, rfl⟩
    refine List.pairwise_map.mpr ((List.pairwise_map.mp hvehicles).imp_of_mem ?_)
    intro a b ha hb hne hsame
    obtain ⟨pair, hp, hassignment, hvehicle⟩ := hpair a ha
    obtain ⟨pair', hp', hassignment', hvehicle'⟩ := hpair b hb
    have heq : pair = pair' := eq_of_key_eq hassignments hp hp'
      (hassignment.symm.trans (hsame.trans hassignment'))
    exact hne (hvehicle.trans (heq ▸ hvehicle'.symm))
  · have horders : plan.planOrders.map (·.orderId) = facts.orders.map (·.orderId) :=
      map_eq_of_mapM (fun _ _ hm ↦ (finalizedMembership_ok hm).1) hmemberships
    rw [horders]
    exact h.plannable.orderIds
  · obtain ⟨solver, hsolver, hfinal⟩ := exists_of_forall₂_right hroutes hr
    exact h.stop_relationships hids hread hcons hr hsolver hfinal hs

end Finalizable

/-- Two orders of one merchant and one vehicle, which has room for one of them. -/
def twoOrderFacts : PlanningFacts :=
  let order : PlanningOrderFact := {
    orderId := 10, orderCode := "A", businessDate := 738000, merchantId := 1, customerId := 1
    pickupLocationId := 1, deliveryLocationId := 2, pickupReadyAt := 0
    pickupServiceSeconds := 30, deliveryWindowStartAt := 0
    deliveryWindowEndAt := timedelta 900, deliveryServiceSeconds := 30, demandLoadUnits := 4
    executionStatus := .planned }
  { businessDate := 738000
    currentTime := 0
    orders := [order, { order with orderId := 11, orderCode := "B", demandLoadUnits := 6 }]
    vehicleDriverPairs := [{
      assignmentId := 30, vehicleId := 20, driverId := 40, capacityLoadUnits := 5
      startLocationId := 1, assignedFromAt := 0, assignedUntilAt := none
      assignmentStatus := .planned, vehicleStatus := .available, driverStatus := .available }]
    locations := [1, 2] }

/-- A minute and a hundred metres between the two places. -/
def twoPlaceMatrix : RoutingMatrix where
  locationIds := [1, 2]
  distanceMatrixMeters := [[0, 100], [100, 0]]
  durationMatrixSeconds := [[0, 60], [60, 0]]

/-- The first order is served, the second one does not fit. -/
def oneServedResult : SolverResult where
  status := .feasible
  routes := [{
    vehicleId := 20
    stops := [servedStop 10 1 .pickup 0 0 30 4,
      servedStop 10 2 .delivery 1 90 30 (-4)]
    distanceMeters := 100
    durationSeconds := 120 }]
  unassignedOrders := [⟨11, .capacityInfeasible, none⟩]
  totalDistanceMeters := 100
  totalDurationSeconds := 120
  diagnostic := none

/-- The input of the two orders. -/
def twoOrderInput : SolverInput :=
  (buildSolverInput twoOrderFacts twoPlaceMatrix).toOption.get (by decide +kernel)

end PenroseRoute.Planning
