import PenroseRoute.Planning.FinalizerCorrect

/-!
# The plan of an accepted result

The rows that `PlanFinalizer.finalize` makes fit together: memberships with routes, stops with
their origins, counts with memberships and totals with routes; and the database takes them.
-/

namespace PenroseRoute.Planning

open PenroseRoute.Db PenroseRoute.Lib PenroseRoute.Operations PenroseRoute.Optimization
open PenroseRoute.Recovery

variable {facts : PlanningFacts} {matrix : RoutingMatrix} {input : SolverInput}
  {result : SolverResult} {roads : RoadRoutes}

namespace Finalizable

variable {db : Database} {solverRoute : SolverRoute} {routes : List VehicleRoute}

/-! ### Counts and totals -/

/-- The unassigned orders are different orders of the facts. -/
theorem unassigned_nodup (h : Finalizable facts input result roads) :
    (result.unassignedOrders.map (·.orderId)).Nodup ∧
      ∀ orderId ∈ result.unassignedOrders.map (·.orderId),
        orderId ∈ facts.orders.map (·.orderId) := by
  have hknown : ∀ orderId ∈ result.unassignedOrders.map (·.orderId),
      ∃ order ∈ input.orders, order.orderId = orderId := by
    intro orderId hmem
    obtain ⟨item, hitem, rfl⟩ := List.mem_map.mp hmem
    exact h.routing.knownUnassigned item hitem
  constructor
  · refine List.nodup_iff_count.mpr fun orderId ↦ ?_
    by_cases hmem : orderId ∈ result.unassignedOrders.map (·.orderId)
    · obtain ⟨order, ho, rfl⟩ := hknown orderId hmem
      rcases h.routing.accounted order ho with ⟨hcount, -⟩ | ⟨hcount, -⟩
      · exact hcount.le
      · exact hcount.le.trans (by decide)
    · rw [List.count_eq_zero.mpr hmem]
      exact Nat.zero_le 1
  · intro orderId hmem
    obtain ⟨order, ho, rfl⟩ := hknown orderId hmem
    obtain ⟨fact, hf, hmake⟩ := exists_of_forall₂_right h.orders ho
    exact List.mem_map.mpr ⟨fact, hf, (planningSolverOrder_fields hmake).1⟩

/-- A membership is unassigned when the result lists its order. -/
theorem unassigned_iff (h : Finalizable facts input result roads)
    (hroutes : List.Forall₂ (FinalizedRoute facts roads) result.routes routes)
    {order : PlanningOrderFact} (ho : order ∈ facts.orders) {membership : DeliveryPlanOrder}
    (hm : finalizedMembership routes result order = .ok membership) :
    membership.assignmentStatus = .unassigned ↔
      order.orderId ∈ result.unassignedOrders.map (·.orderId) := by
  obtain ⟨solverOrder, hso, hmake⟩ := exists_of_forall₂_left h.orders ho
  have hid := (planningSolverOrder_fields hmake).1
  have hvisits : (∃ route, routes.reverse.find? (·.holds order.orderId) = some route) ↔
      ∃ solver ∈ result.routes, solver.Visits order.orderId := by
    rw [← Option.isSome_iff_exists, List.find?_isSome]
    constructor
    · rintro ⟨route, hroute, hholds⟩
      obtain ⟨solver, hsolver, hfinal⟩ :=
        exists_of_forall₂_right hroutes (List.mem_reverse.mp hroute)
      exact ⟨solver, hsolver, (hfinal.holds_iff _).mp hholds⟩
    · rintro ⟨solver, hsolver, hvisits⟩
      obtain ⟨route, hroute, hfinal⟩ := exists_of_forall₂_left hroutes hsolver
      exact ⟨route, List.mem_reverse.mpr hroute, (hfinal.holds_iff _).mpr hvisits⟩
  have hlisted : order.orderId ∈ result.unassignedOrders.map (·.orderId) ↔
      ¬ ∃ solver ∈ result.routes, solver.Visits order.orderId := by
    rw [hid]
    rcases h.routing.accounted solverOrder hso with ⟨hcount, hnone⟩ | ⟨hcount, s, hs, hserved, -⟩
    · refine iff_of_true (List.count_pos_iff.mp ?_) ?_
      · rw [SolverResult.unassignedCount] at hcount
        omega
      · rintro ⟨s, hs, hv⟩
        exact hnone s hs hv
    · exact iff_of_false (List.count_eq_zero.mp hcount) fun hnone ↦ hnone ⟨s, hs, hserved.visits⟩
  rw [hlisted, ← hvisits]
  obtain ⟨-, ⟨hassigned, route, hfind, -⟩ | ⟨hun, -, -, hfind⟩⟩ := finalizedMembership_ok hm
  · exact iff_of_false (by simp [hassigned]) fun hnone ↦ hnone ⟨route, hfind⟩
  · refine iff_of_true hun ?_
    rintro ⟨route, hroute⟩
    simp [hfind] at hroute

/-- The counts of the plan are those of its memberships. -/
theorem counts (h : Finalizable facts input result roads)
    (hroutes : List.Forall₂ (FinalizedRoute facts roads) result.routes routes)
    {planOrders : List DeliveryPlanOrder}
    (hm : facts.orders.mapM (finalizedMembership routes result) = .ok planOrders) :
    result.unassignedOrders.length =
        (planOrders.filter (·.assignmentStatus == .unassigned)).length ∧
      facts.orders.length - result.unassignedOrders.length =
        (planOrders.filter (·.assignmentStatus == .assigned)).length := by
  obtain ⟨hnodup, hsub⟩ := h.unassigned_nodup
  have hall := forall₂_and_mem (mapM_eq_ok_iff.mp hm)
  have hun : result.unassignedOrders.length =
      (planOrders.filter (·.assignmentStatus == .unassigned)).length := by
    have hcount := countP_contains h.plannable.orderIds hnodup hsub
    have hfilter := filter_map_of_forall₂ (f := fun _ ↦ ()) (g := fun _ ↦ ())
      (p := fun order : PlanningOrderFact ↦
        (result.unassignedOrders.map (·.orderId)).contains order.orderId)
      (q := fun membership : DeliveryPlanOrder ↦ membership.assignmentStatus == .unassigned)
      (fun order membership hrow ↦ ⟨by
        rw [Bool.eq_iff_iff, List.contains_iff_mem, beq_iff_eq]
        exact (h.unassigned_iff hroutes hrow.1 hrow.2.2).symm, rfl⟩) hall
    have hlength := congrArg List.length hfilter
    rw [List.length_map, List.length_map, ← List.countP_eq_length_filter] at hlength
    rw [List.countP_map, List.length_map] at hcount
    exact hcount.symm.trans hlength
  refine ⟨hun, ?_⟩
  have hsplit := List.length_eq_length_filter_add (l := planOrders)
    (fun membership ↦ membership.assignmentStatus == .unassigned)
  have hrest : planOrders.filter (fun m ↦ !(m.assignmentStatus == .unassigned)) =
      planOrders.filter (·.assignmentStatus == .assigned) := by
    refine List.filter_congr fun m _ ↦ ?_
    cases m.assignmentStatus <;> rfl
  rw [hrest] at hsplit
  have hlength := hall.length_eq
  omega

/-- A route has the distance of its road geometry, or else of its solver route. -/
theorem distanceMeters_eq {route : VehicleRoute}
    (hroute : FinalizedRoute facts roads solverRoute route) :
    route.distanceMeters = roads.elim solverRoute.distanceMeters fun entries ↦
      (lastWrite entries solverRoute.vehicleId).elim 0 (·.distanceMeters) := by
  obtain ⟨pair, road, last, -, hroad, -, he⟩ := hroute.row
  rw [he]
  cases roads with
  | none =>
    cases hroad
    rfl
  | some entries =>
    obtain ⟨found, hfound, hroad⟩ := bind_eq_ok.mp hroad
    rw [orRaise_eq_ok] at hfound
    cases hroad
    rw [Option.elim_some, hfound]
    rfl

/-- The total distance of the plan is that of its routes. -/
theorem totalDistance (h : Finalizable facts input result roads)
    (hroutes : List.Forall₂ (FinalizedRoute facts roads) result.routes routes) :
    (roads.elim result.totalDistanceMeters fun entries ↦
        ((dictEntries entries).map (·.2.distanceMeters)).sum) =
      (routes.map (·.distanceMeters)).sum := by
  have hdistances := map_eq_map_of_forall₂
    (fun solver route (hr : FinalizedRoute facts roads solver route) ↦
      (distanceMeters_eq hr).symm) hroutes
  rw [← hdistances]
  cases hr : roads with
  | none => exact h.routing.totalDistance
  | some entries =>
    have hcovers := h.roads entries hr
    rw [coversRoutes, Bool.and_eq_true, List.all_eq_true, List.all_eq_true] at hcovers
    have hkeys : ∀ vehicleId, vehicleId ∈ result.routes.map (·.vehicleId) ↔
        (lastWrite entries vehicleId).isSome := by
      intro vehicleId
      rw [isSome_lastWrite_iff]
      constructor
      · intro hmem
        obtain ⟨entry, hentry, hkey⟩ := List.any_eq_true.mp (hcovers.2 vehicleId hmem)
        exact ⟨entry.2, by rw [← (beq_iff_eq.mp hkey : entry.1 = vehicleId)]; exact hentry⟩
      · rintro ⟨road, hentry⟩
        exact List.contains_iff_mem.mp (hcovers.1 _ hentry)
    have hsum := sum_dictEntries h.routing.vehicles hkeys (·.distanceMeters)
    rw [List.map_map] at hsum
    exact hsum

/-- The total duration of the plan is that of its routes. -/
theorem totalDuration (h : Finalizable facts input result roads)
    (hroutes : List.Forall₂ (FinalizedRoute facts roads) result.routes routes) :
    (result.totalDurationSeconds : Int) = (routes.map (·.durationSeconds)).sum := by
  have hdurations : result.routes.map (fun solver ↦ (solver.durationSeconds : Int)) =
      routes.map (·.durationSeconds) := by
    refine map_eq_map_of_forall₂ (fun solver route hr ↦ ?_) hroutes
    obtain ⟨pair, road, last, -, -, -, he⟩ := hr.row
    rw [he]
    rfl
  rw [h.routing.totalDuration, ← hdurations]
  induction result.routes with
  | nil => rfl
  | cons solver rest ih =>
    rw [List.map_cons, List.map_cons, List.sum_cons, List.sum_cons, ← ih]
    exact Int.natCast_add _ _

end Finalizable

/-! ### The plan -/

/-- A plan aggregate whose rows fit together and to the facts and the result they are of. -/
structure ConsistentPlan (facts : PlanningFacts) (result : SolverResult) (plan : DeliveryPlan) :
    Prop where
  /-- No two rows have one id. -/
  ids : (plan.id :: plan.routes.flatMap fun route ↦ route.id :: route.stops.map (·.id)).Nodup
  /-- The routes make the stops of the solver routes. -/
  routes : List.Forall₂ (fun solverRoute route ↦ route.vehicleId = solverRoute.vehicleId ∧
    route.stops.map (fun stop ↦ (stop.orderId, stop.stopType, stop.locationId)) =
      solverRoute.stops.map fun stop ↦ (stop.orderId, stop.stopType, stop.locationId))
    result.routes plan.routes
  /-- Every order has exactly one membership. -/
  once : ∀ order ∈ facts.orders, (plan.planOrders.map (·.orderId)).count order.orderId = 1
  /-- It is assigned exactly when some route serves the order. -/
  assigned : ∀ membership ∈ plan.planOrders, membership.assignmentStatus = .assigned ↔
    ∃ solverRoute ∈ result.routes, solverRoute.Visits membership.orderId
  /-- It points at the route that holds both stops of the order, or at none. -/
  fits : ∀ membership ∈ plan.planOrders, Fits plan.routes membership
  /-- Every delivery is linked to the origin of its order before it on the route. -/
  linked : ∀ route ∈ plan.routes, EachAfter OriginBefore [] route.stops
  sequence : ∀ route ∈ plan.routes,
    route.stops.map (·.sequenceNo) = List.range' 1 route.stops.length
  endsAt : ∀ route ∈ plan.routes,
    route.stops.getLast?.map (·.locationId) = some route.endLocationId
  assignedCount : plan.assignedOrderCount =
    (plan.planOrders.filter (·.assignmentStatus == .assigned)).length
  unassignedCount : plan.unassignedOrderCount =
    (plan.planOrders.filter (·.assignmentStatus == .unassigned)).length
  vehicleCount : plan.vehicleCount = plan.routes.length
  totalDistance : plan.totalDistanceMeters = (plan.routes.map (·.distanceMeters)).sum
  totalDuration : plan.totalDurationSeconds = (plan.routes.map (·.durationSeconds)).sum

/-- A finished run of `finalize`, part by part. -/
theorem finalize_ok {db : Database} {activatedAt : Option Instant} {plan : DeliveryPlan}
    (h : finalize db facts result activatedAt roads = .ok plan) :
    List.Forall₂ (FinalizedRoute facts roads) result.routes plan.routes ∧
      facts.orders.mapM (finalizedMembership plan.routes result) = .ok plan.planOrders ∧
      (∃ firstRow, plan.id < firstRow ∧
        (plan.routes.flatMap fun route ↦ route.id :: route.stops.map (·.id)) =
          List.range' firstRow (rowCount plan.routes)) ∧
      plan.routes.map (·.routeNo) = List.range' 1 plan.routes.length ∧
      plan.totalDistanceMeters = (roads.elim result.totalDistanceMeters fun entries ↦
        ((dictEntries entries).map (·.2.distanceMeters)).sum) ∧
      plan.totalDurationSeconds = result.totalDurationSeconds ∧
      plan.vehicleCount = result.routes.length ∧
      plan.assignedOrderCount = facts.orders.length - result.unassignedOrders.length ∧
      plan.unassignedOrderCount = result.unassignedOrders.length := by
  obtain ⟨_, -, h⟩ := bind_eq_ok.mp h
  dsimp only at h
  obtain ⟨routes, hroutes, h⟩ := bind_eq_ok.mp h
  obtain ⟨planOrders, hmemberships, h⟩ := bind_eq_ok.mp h
  cases h
  obtain ⟨hall, hnos, hids⟩ := finalizeRoutes_ok hroutes
  refine ⟨hall, hmemberships, ⟨_, ?_, hids⟩, hnos, rfl, rfl, rfl, rfl, rfl⟩
  dsimp only
  split
  · exact Nat.lt_succ_self _
  · exact Nat.lt_add_of_pos_right (by decide)

namespace Finalizable

/-- The plan of an accepted result is consistent. -/
theorem consistent {db : Database} {activatedAt : Option Instant} {plan : DeliveryPlan}
    (h : Finalizable facts input result roads)
    (hplan : finalize db facts result activatedAt roads = .ok plan) :
    ConsistentPlan facts result plan := by
  obtain ⟨hroutes, hmemberships, ⟨firstRow, hlt, hids⟩, -, hdistance, hduration, hvehicles,
    hassigned, hunassigned⟩ := finalize_ok hplan
  have hrows := mapM_eq_ok_iff.mp hmemberships
  have horders : plan.planOrders.map (·.orderId) = facts.orders.map (·.orderId) :=
    map_eq_of_mapM (fun _ _ hm ↦ (finalizedMembership_ok hm).1) hmemberships
  obtain ⟨hun, has⟩ := h.counts hroutes hmemberships
  refine ⟨?_, ?_, ?_, ?_, ?_, ?_, ?_, ?_, ?_, ?_, ?_, ?_, ?_⟩
  · rw [List.nodup_cons, hids]
    refine ⟨fun hmem ↦ ?_, List.nodup_range'⟩
    exact absurd hlt (Nat.not_lt.mpr (List.mem_range'_1.mp hmem).1)
  · refine hroutes.imp fun solver route hr ↦ ⟨h.vehicleId hr, ?_⟩
    refine (map_eq_map_of_forall₂ (fun solverStop stop hs ↦ ?_) hr.stops).symm
    obtain ⟨hid, htype, hlocation, -⟩ := FinalizedAs.field hs
    rw [hid, htype, hlocation]
  · intro order ho
    rw [horders]
    exact List.count_eq_one_of_mem h.plannable.orderIds (List.mem_map_of_mem ho)
  · intro membership hm
    obtain ⟨order, ho, hrow⟩ := exists_of_forall₂_right hrows hm
    have hholds : (∃ route ∈ plan.routes, route.holds membership.orderId = true) ↔
        ∃ solverRoute ∈ result.routes, solverRoute.Visits membership.orderId := by
      constructor
      · rintro ⟨route, hr, hholds⟩
        obtain ⟨solver, hsolver, hfinal⟩ := exists_of_forall₂_right hroutes hr
        exact ⟨solver, hsolver, (hfinal.holds_iff _).mp hholds⟩
      · rintro ⟨solver, hsolver, hvisits⟩
        obtain ⟨route, hr, hfinal⟩ := exists_of_forall₂_left hroutes hsolver
        exact ⟨route, hr, (hfinal.holds_iff _).mpr hvisits⟩
    rw [← hholds]
    rcases h.fits hroutes hrow with ⟨hassigned, route, hr, -, hboth, -⟩ | ⟨hun, -, -, hnone⟩
    · obtain ⟨origin, hs, -, -, hid, -⟩ := hboth
      refine iff_of_true hassigned ⟨route, hr, ?_⟩
      exact List.contains_iff_mem.mpr (List.mem_map.mpr ⟨origin, hs, hid⟩)
    · refine iff_of_false (by simp [hun]) fun ⟨route, hr, hholds⟩ ↦ ?_
      rw [hnone route hr] at hholds
      cases hholds
  · intro membership hm
    obtain ⟨order, ho, hrow⟩ := exists_of_forall₂_right hrows hm
    exact h.fits hroutes hrow
  · intro route hr
    obtain ⟨solver, -, hfinal⟩ := exists_of_forall₂_right hroutes hr
    exact hfinal.linked
  · intro route hr
    obtain ⟨solver, hsolver, hfinal⟩ := exists_of_forall₂_right hroutes hr
    obtain ⟨vehicle, -, -, hdrive, -⟩ := h.routing.drivable solver hsolver
    have hsame := map_eq_map_of_forall₂
      (fun solverStop stop (hs : FinalizedAs facts solverStop stop) ↦ hs.field.2.2.2.symm)
      hfinal.stops
    rw [← hsame, hdrive.sequence, hfinal.stops.length_eq]
  · intro route hr
    obtain ⟨solver, hsolver, hfinal⟩ := exists_of_forall₂_right hroutes hr
    obtain ⟨pair, road, last, -, -, hlast, he⟩ := hfinal.row
    have hsame := map_eq_map_of_forall₂
      (fun solverStop stop (hs : FinalizedAs facts solverStop stop) ↦ hs.field.2.2.1.symm)
      hfinal.stops
    rw [← List.getLast?_map, ← hsame, List.getLast?_map, hlast, he]
    rfl
  · rw [hassigned, has]
  · rw [hunassigned, hun]
  · rw [hvehicles, hroutes.length_eq]
  · rw [hdistance, h.totalDistance hroutes]
  · rw [hduration, h.totalDuration hroutes]

end Finalizable

end PenroseRoute.Planning
