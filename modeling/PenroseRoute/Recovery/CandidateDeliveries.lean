import PenroseRoute.Recovery.NewStops
import PenroseRoute.Recovery.ReadyTimes
import PenroseRoute.Recovery.WorkInProgress

/-!
# Who delivers an order of a candidate

Where every delivery of the base plan is on the route that the order's membership names, one
vehicle of a candidate delivers each order, or the candidate delivers an order again that the base
plan has delivered.
-/

namespace PenroseRoute.Recovery

open PenroseRoute.Db PenroseRoute.Lib PenroseRoute.Optimization PenroseRoute.Decisions

/-- Every delivery of a plan is on the route that the membership of its order names. -/
def DeliveriesNamed (plan : DeliveryPlan) : Prop :=
  ∀ route ∈ plan.routes, ∀ orderId, route.delivers orderId = true →
    ∃ membership ∈ plan.planOrders, membership.orderId = orderId ∧
      membership.vehicleRouteId = some route.id

/-- At most one vehicle delivers an order. -/
def OneDeliverer (routes : List VehicleRoute) (orderId : UUID) : Prop :=
  ∀ a ∈ routes, ∀ b ∈ routes, a.delivers orderId = true → b.delivers orderId = true →
    a.vehicleId = b.vehicleId

/-- The routes have a delivery of an order behind them and another one before them. -/
structure DeliveredAgain (routes : List VehicleRoute) (orderId : UUID) : Prop where
  done : ∃ route ∈ routes, ∃ stop ∈ route.stops, stop.orderId = orderId ∧
    stop.stopType = .delivery ∧ stop.status = .completed
  waiting : ∃ route ∈ routes, ∃ stop ∈ route.stops, stop.orderId = orderId ∧
    stop.stopType = .delivery ∧ stop.status ≠ .completed

variable {db : Database} {incident : Incident} {base : DeliveryPlan} {scope : ReplanningScope}
  {operationalTime : Instant} {context : RecoveryContext} {input : SolverInput}
  {result : SolverResult} {routes : List VehicleRoute} {orderId : UUID}

/-- A route delivers an order by one of its stops. -/
theorem delivers_iff {route : VehicleRoute} : route.delivers orderId = true ↔
    ∃ stop ∈ route.stops, stop.orderId = orderId ∧ stop.stopType = .delivery := by
  simp [VehicleRoute.delivers]

/-- Then one route delivers an order. -/
theorem DeliveriesNamed.unique {plan : DeliveryPlan} (h : DeliveriesNamed plan)
    (honce : (plan.planOrders.map (·.orderId)).Nodup) (hids : (plan.routes.map (·.id)).Nodup)
    {a b : VehicleRoute} (ha : a ∈ plan.routes) (hb : b ∈ plan.routes)
    (hda : a.delivers orderId = true) (hdb : b.delivers orderId = true) : a = b := by
  obtain ⟨m, hm, hmid, hma⟩ := h a ha orderId hda
  obtain ⟨m', hm', hmid', hmb⟩ := h b hb orderId hdb
  rw [eq_of_key_eq honce hm hm' (hmid.trans hmid'.symm), hmb, Option.some.injEq] at hma
  exact eq_of_key_eq hids ha hb hma.symm

private theorem deliverer_of_keeps (h : ReadFrom db incident base scope operationalTime context)
    {own : VehicleRoute} (hown : own ∈ context.routes)
    (hk : keepsDelivery context orderId own = true) :
    ∃ route ∈ base.routes, route.id = own.id ∧ route.vehicleId = own.vehicleId ∧
      route.delivers orderId = true := by
  obtain ⟨route, hr, rfl⟩ := (h.mem_routes own).mp hown
  refine ⟨route, hr, rfl, rfl, delivers_iff.mpr ?_⟩
  simp only [keepsDelivery, List.any_eq_true, Bool.and_eq_true, beq_iff_eq] at hk
  obtain ⟨stop, hs, hid, hd⟩ := hk
  exact ⟨stop, mem_routeSnapshot_stops.mp (mem_preservedStops.mp hs).1, hid, hd⟩

private theorem rebuilt_of_named (h : ReadFrom db incident base scope operationalTime context)
    (honce : (base.planOrders.map (·.orderId)).Nodup) {membership : DeliveryPlanOrder}
    (hm : membership ∈ base.planOrders) {routeId : UUID}
    (hnamed : membership.vehicleRouteId = some routeId)
    (htarget : membership.orderId ∈ context.targetOrderIds) :
    routeId ∈ context.rebuiltRouteIds := by
  obtain ⟨fact, hfact, hid⟩ := List.mem_map.mp htarget
  obtain ⟨target, -, hread⟩ := exists_of_forall₂_right h.targetOrders hfact
  obtain ⟨own, order, hfind, horder, hof⟩ := orderFact_ok hread
  refine List.mem_filterMap.mpr ⟨fact, hfact, ?_⟩
  have hownId : own.orderId = target := eq_of_beq (List.find?_some hfind :)
  have horderId : order.id = target := eq_of_beq (List.find?_some horder :)
  have hsame : own = membership := by
    refine eq_of_key_eq honce (List.mem_of_find?_eq_some hfind) hm ?_
    rw [hownId, ← horderId, ← hof.orderId, hid]
  rw [hof.originalRouteId, hsame, hnamed]

private theorem completed_of_kept (h : ReadFrom db incident base scope operationalTime context)
    (honce : (base.planOrders.map (·.orderId)).Nodup) (hnamed : DeliveriesNamed base)
    (htarget : orderId ∈ context.targetOrderIds) {own : VehicleRoute}
    (hown : own ∈ context.routes) {stop : RouteStop} (hs : stop ∈ preservedStops context own)
    (hid : stop.orderId = orderId) (hd : stop.stopType = .delivery) :
    stop.status = .completed := by
  have hk : keepsDelivery context orderId own = true := by
    simp only [keepsDelivery, List.any_eq_true, Bool.and_eq_true, beq_iff_eq]
    exact ⟨stop, hs, hid, hd⟩
  obtain ⟨route, hr, hrid, -, hdelivers⟩ := deliverer_of_keeps h hown hk
  obtain ⟨membership, hm, hmid, hname⟩ := hnamed route hr orderId hdelivers
  refine (mem_preservedStops.mp hs).2 ⟨?_, hid ▸ htarget⟩
  rw [← hrid]
  exact rebuilt_of_named h honce hm hname (hmid ▸ htarget)

private theorem deliveredAgain (h : ReadFrom db incident base scope operationalTime context)
    (honce : (base.planOrders.map (·.orderId)).Nodup) (hnamed : DeliveriesNamed base)
    (hacc : Accepted input result)
    (hbuilt : List.Forall₂ (BuiltFrom context) (routeTasks context result) routes)
    {solver : SolverRoute} (hsolver : solver ∈ result.routes) (hvisits : solver.Visits orderId)
    {own : VehicleRoute} (hown : own ∈ context.routes)
    (hk : keepsDelivery context orderId own = true) : DeliveredAgain routes orderId := by
  have hv := hacc.routing.vehicles
  obtain ⟨task, ht, -, hsolved⟩ := @exists_task_of_solver context result hv solver hsolver
  obtain ⟨route, hr, hb⟩ := exists_of_forall₂_left hbuilt ht
  obtain ⟨_, solved, hstops, -, hall⟩ := hb.stops.parts
  rw [hsolved] at hall
  constructor
  · have htarget : orderId ∈ context.targetOrderIds := by
      obtain ⟨solverStop, hstop, hid⟩ := hvisits
      obtain ⟨_, -, fact, hfact, -⟩ := exists_of_forall₂_left hall hstop
      obtain ⟨hmem, hfid⟩ := targetOrder?_mem hfact
      exact List.mem_map.mpr ⟨fact, hmem, hfid.trans hid⟩
    simp only [keepsDelivery, List.any_eq_true, Bool.and_eq_true, beq_iff_eq] at hk
    obtain ⟨stop, hs, hid, hd⟩ := hk
    obtain ⟨popped, htask⟩ := exists_task_of_preserved hv hown hs
    obtain ⟨keeper, hkeeper, hkb⟩ := exists_of_forall₂_left hbuilt htask
    obtain ⟨copies, _, hkstops, hcopies, -⟩ := hkb.stops.parts
    obtain ⟨copy, hcopy, hof⟩ := exists_of_forall₂_left hcopies hs
    refine ⟨keeper, hkeeper, copy, by rw [hkstops]; exact List.mem_append_left _ hcopy, ?_, ?_, ?_⟩
    · rw [hof.field (·.orderId) fun _ _ _ _ ↦ rfl, hid]
    · rw [hof.field (·.stopType) fun _ _ _ _ ↦ rfl, hd]
    · rw [hof.field (·.status) fun _ _ _ _ ↦ rfl]
      exact completed_of_kept h honce hnamed htarget hown hs hid hd
  · have hserves := (hacc.visits hsolver hvisits).1
    simp only [servesDelivery, List.any_eq_true, Bool.and_eq_true, beq_iff_eq] at hserves
    obtain ⟨solverStop, hstop, hid, hd⟩ := hserves
    obtain ⟨stop, hs, fact, -, he⟩ := exists_of_forall₂_left hall hstop
    refine ⟨route, hr, stop, by rw [hstops]; exact List.mem_append_right _ hs, ?_, ?_, ?_⟩
    · rw [he]
      exact hid
    · rw [he]
      exact hd
    · rw [he]
      exact fun hdone ↦ (by cases hdone)

/-- One vehicle of a candidate delivers an order, or the order is delivered again. -/
theorem oneDeliverer_or_again (h : ReadFrom db incident base scope operationalTime context)
    (honce : (base.planOrders.map (·.orderId)).Nodup)
    (hids : (base.routes.map (·.id)).Nodup) (hnamed : DeliveriesNamed base)
    (hacc : Accepted input result)
    (hbuilt : List.Forall₂ (BuiltFrom context) (routeTasks context result) routes)
    (orderId : UUID) : OneDeliverer routes orderId ∨ DeliveredAgain routes orderId := by
  -- A delivering route keeps the delivery of a base route or makes the one of a solver route.
  have hpass : ∀ route ∈ routes, route.delivers orderId = true →
      (∃ own ∈ context.routes, keepsDelivery context orderId own = true ∧
        route.vehicleId = own.vehicleId) ∨
      ∃ solver ∈ result.routes, solver.Visits orderId ∧ route.vehicleId = solver.vehicleId := by
    intro route hr hd
    obtain ⟨task, ht, hb⟩ := exists_of_forall₂_right hbuilt hr
    rw [hb.vehicleId]
    exact delivering_pass hacc.routing.vehicles ht (by rw [hb.delivers, hd])
  by_cases hvisited : ∃ solver ∈ result.routes, solver.Visits orderId
  · obtain ⟨solver, hsolver, hvisits⟩ := hvisited
    by_cases hkept : ∃ own ∈ context.routes, keepsDelivery context orderId own = true
    · obtain ⟨own, hown, hk⟩ := hkept
      exact .inr (deliveredAgain h honce hnamed hacc hbuilt hsolver hvisits hown hk)
    · have hserver : ∀ route ∈ routes, route.delivers orderId = true →
          route.vehicleId = solver.vehicleId := by
        intro route hr hd
        rcases hpass route hr hd with ⟨own, hown, hk, -⟩ | ⟨other, hother, hvisits', hid⟩
        · exact absurd ⟨own, hown, hk⟩ hkept
        · rw [hid, (hacc.visits hsolver hvisits).2 other hother hvisits']
      exact .inl fun a ha b hb hda hdb ↦ (hserver a ha hda).trans (hserver b hb hdb).symm
  · have hkeeper : ∀ route ∈ routes, route.delivers orderId = true → ∃ old ∈ base.routes,
        old.delivers orderId = true ∧ route.vehicleId = old.vehicleId := by
      intro route hr hd
      rcases hpass route hr hd with ⟨own, hown, hk, hid⟩ | ⟨solver, hsolver, hvisits, -⟩
      · obtain ⟨old, hold, -, hvehicle, hdelivers⟩ := deliverer_of_keeps h hown hk
        exact ⟨old, hold, hdelivers, hid.trans hvehicle.symm⟩
      · exact absurd ⟨solver, hsolver, hvisits⟩ hvisited
    refine .inl fun a ha b hb hda hdb ↦ ?_
    obtain ⟨old, hold, hd, hid⟩ := hkeeper a ha hda
    obtain ⟨old', hold', hd', hid'⟩ := hkeeper b hb hdb
    rw [hid, hid', hnamed.unique honce hids hold hold' hd hd']

end PenroseRoute.Recovery
