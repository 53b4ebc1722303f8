import PenroseRoute.Optimization.ValidatorCorrect

/-!
# The results the validator accepts

The route loop and the checks on the whole result, assembled: `SolverResultValidator.validate`
accepts exactly the routings that are feasible up to empty routes. It therefore decides
feasibility precisely when no route is empty or something else is wrong.
-/

namespace PenroseRoute.Optimization

open PenroseRoute.Lib
open SolverResultValidator

variable {input : SolverInput}

/-! ### The route loop -/

/-- After a route that raised nothing, the assigned ids are the earlier ones and its own. -/
theorem mem_checkRoute_assigned (routeVehicleIds assigned : List UUID) {route : SolverRoute}
    (h : RouteFits input route) (orderId : UUID) :
    orderId ∈ (checkRoute input routeVehicleIds assigned route).2 ↔
      orderId ∈ assigned ∨ route.Visits orderId := by
  have hknown : ∀ stop ∈ route.stops, ∃ order, input.order? stop.orderId = some order := by
    intro stop hs
    obtain ⟨order, hm, he, -⟩ := h.served stop hs
    exact ⟨order, (input.order?_eq_some_iff _ _).mpr ⟨hm, he⟩⟩
  simp only [checkRoute, mem_checkOrders_assigned, List.mem_map]
  constructor
  · rintro (ha | ⟨⟨k, stops⟩, hg, rfl⟩)
    · exact .inl ha
    · exact .inr ((mem_stopsByOrder hknown k stops).mp hg).2
  · rintro (ha | hv)
    · exact .inl ha
    · exact .inr ⟨(orderId, _), (mem_stopsByOrder hknown orderId _).mpr ⟨rfl, hv⟩, rfl⟩

/-- No order is visited by two of the routes. -/
def DisjointOrders (routes : List SolverRoute) : Prop :=
  routes.Pairwise fun a b ↦ ∀ orderId, a.Visits orderId → ¬ b.Visits orderId

/-- The route loop raises nothing. -/
theorem checkRoutes_eq_nil (routeVehicleIds assigned : List UUID) (routes : List SolverRoute) :
    (checkRoutes input routeVehicleIds assigned routes).1 = [] ↔
      (∀ route ∈ routes, RouteFits input route ∧ route.vehicleId ∉ routeVehicleIds ∧
        ∀ stop ∈ route.stops, stop.orderId ∉ assigned) ∧
      (routes.map (·.vehicleId)).Nodup ∧ DisjointOrders routes := by
  induction routes generalizing routeVehicleIds assigned with
  | nil => simp [checkRoutes, DisjointOrders]
  | cons route rest ih =>
    simp only [checkRoutes, List.append_eq_nil_iff, checkRoute_eq_nil, ih, List.map_cons,
      List.nodup_cons, List.mem_map, not_exists, not_and, List.forall_mem_cons, DisjointOrders,
      List.pairwise_cons]
    constructor
    · rintro ⟨⟨hf, hv, ha⟩, hrest, hnd, hdis⟩
      have hmem := mem_checkRoute_assigned routeVehicleIds assigned hf
      refine ⟨⟨⟨hf, hv, ha⟩, ?_⟩, ⟨?_, hnd⟩, ?_, hdis⟩
      · intro r hr
        obtain ⟨hfr, hvr, har⟩ := hrest r hr
        refine ⟨hfr, fun hm ↦ hvr (List.mem_cons_of_mem _ hm), ?_⟩
        intro stop hs hm
        exact har stop hs ((hmem stop.orderId).mpr (.inl hm))
      · intro r hr he
        exact (hrest r hr).2.1 (by rw [he]; exact List.mem_cons_self)
      · rintro r hr orderId hvis ⟨stop, hs, rfl⟩
        exact (hrest r hr).2.2 stop hs ((hmem stop.orderId).mpr (.inr hvis))
    · rintro ⟨⟨⟨hf, hv, ha⟩, hrest⟩, ⟨hne, hnd⟩, hdis₁, hdis⟩
      have hmem := mem_checkRoute_assigned routeVehicleIds assigned hf
      refine ⟨⟨hf, hv, ha⟩, ?_, hnd, hdis⟩
      intro r hr
      obtain ⟨hfr, hvr, har⟩ := hrest r hr
      refine ⟨hfr, ?_, ?_⟩
      · intro hm
        rcases List.mem_cons.mp hm with he | hm
        · exact hne r hr he
        · exact hvr hm
      · intro stop hs hm
        rcases (hmem stop.orderId).mp hm with hm | hvis
        · exact har stop hs hm
        · exact hdis₁ r hr stop.orderId hvis ⟨stop, hs, rfl⟩

/-- After routes that raised nothing, the assigned ids are the earlier ones and theirs. -/
theorem mem_checkRoutes_assigned (routeVehicleIds assigned : List UUID)
    {routes : List SolverRoute} (h : ∀ route ∈ routes, RouteFits input route) (orderId : UUID) :
    orderId ∈ (checkRoutes input routeVehicleIds assigned routes).2 ↔
      orderId ∈ assigned ∨ ∃ route ∈ routes, route.Visits orderId := by
  induction routes generalizing routeVehicleIds assigned with
  | nil => simp [checkRoutes]
  | cons route rest ih =>
    obtain ⟨hf, hr⟩ := List.forall_mem_cons.mp h
    simp only [checkRoutes, ih _ _ hr, mem_checkRoute_assigned _ _ hf, List.mem_cons,
      exists_eq_or_imp, or_assoc]

/-! ### The whole result -/

/-- The loop over unassigned orders raises nothing. -/
theorem checkUnassigned_eq_nil (assigned seen : List UUID) (us : List SolverUnassignedOrder) :
    checkUnassigned input assigned seen us = [] ↔
      (∀ u ∈ us, (∃ order ∈ input.orders, order.orderId = u.orderId) ∧
        u.orderId ∉ seen ∧ u.orderId ∉ assigned) ∧ (us.map (·.orderId)).Nodup := by
  induction us generalizing seen with
  | nil => simp [checkUnassigned]
  | cons u rest ih =>
    have hknown : (input.order? u.orderId).isNone = false ↔
        ∃ order ∈ input.orders, order.orderId = u.orderId := by
      rw [Option.isNone_eq_false_iff, Option.isSome_iff_exists]
      exact exists_congr fun order ↦ input.order?_eq_some_iff _ _
    simp only [checkUnassigned, List.append_eq_nil_iff, issueIf_eq_nil, hknown, ih,
      Bool.or_eq_false_iff, List.contains_eq_mem, decide_eq_false_iff_not, List.forall_mem_cons,
      List.map_cons, List.nodup_cons, List.mem_map, not_exists, not_and]
    constructor
    · rintro ⟨⟨hk, hs, ha⟩, hrest, hnd⟩
      refine ⟨⟨⟨hk, hs, ha⟩, ?_⟩, ?_, hnd⟩
      · intro w hw
        obtain ⟨hkw, hsw, haw⟩ := hrest w hw
        exact ⟨hkw, fun hm ↦ hsw (List.mem_cons_of_mem _ hm), haw⟩
      · intro w hw he
        exact (hrest w hw).2.1 (by rw [he]; exact List.mem_cons_self)
    · rintro ⟨⟨⟨hk, hs, ha⟩, hrest⟩, hne, hnd⟩
      refine ⟨⟨hk, hs, ha⟩, ?_, hnd⟩
      intro w hw
      obtain ⟨hkw, hsw, haw⟩ := hrest w hw
      refine ⟨hkw, ?_, haw⟩
      intro hm
      rcases List.mem_cons.mp hm with he | hm
      · exact hne w hw he
      · exact hsw hm

/-- The frozen-task loop raises nothing. -/
theorem checkFrozen_eq_nil (result : SolverResult) :
    checkFrozen input result = [] ↔ ∀ task ∈ input.frozenTasks, ∃ route ∈ result.routes,
      route.vehicleId = task.vehicleId ∧ task.stop ∈ route.stops := by
  simp [checkFrozen, List.flatMap_eq_nil_iff]

private theorem visits_unique {routes : List SolverRoute} (hd : DisjointOrders routes)
    {orderId : UUID} {a b : SolverRoute} (ha : a ∈ routes) (hb : b ∈ routes)
    (hva : a.Visits orderId) (hvb : b.Visits orderId) : a = b := by
  have same : ∀ x ∈ routes, x.Visits orderId → x.Visits orderId → x = x :=
    fun _ _ _ _ ↦ rfl
  have later : routes.Pairwise fun x y ↦ x.Visits orderId → y.Visits orderId → x = y :=
    hd.imp fun h hx hy ↦ absurd hy (h orderId hx)
  have earlier : routes.Pairwise (flip fun x y ↦ x.Visits orderId → y.Visits orderId → x = y) :=
    hd.imp fun h hy hx ↦ absurd hy (h orderId hx)
  exact List.Pairwise.forall_of_forall_of_flip same later earlier ha hb hva hvb

-- The order checks, the unassigned loop and the missing-order check together: every order
-- is accounted for and nothing else is named.
private theorem accounted_iff {result : SolverResult}
    (hf : ∀ route ∈ result.routes, RouteFits input route)
    (hn : (result.routes.map (·.vehicleId)).Nodup) {assigned : List UUID}
    (ha : ∀ orderId, orderId ∈ assigned ↔ ∃ route ∈ result.routes, route.Visits orderId) :
    (DisjointOrders result.routes ∧
      checkUnassigned input assigned [] result.unassignedOrders = [] ∧
      (missingOrders input result assigned).isEmpty = true) ↔
      (∀ u ∈ result.unassignedOrders, ∃ order ∈ input.orders, order.orderId = u.orderId) ∧
        ∀ order ∈ input.orders, Accounted result order := by
  rw [checkUnassigned_eq_nil]
  simp only [missingOrders, List.isEmpty_iff, List.filter_eq_nil_iff, Bool.and_eq_true,
    Bool.not_eq_true', List.contains_eq_mem, decide_eq_false_iff_not, not_and,
    Classical.not_not, ha]
  constructor
  · rintro ⟨hd, ⟨hu, hnd⟩, hm⟩
    refine ⟨fun u hum ↦ (hu u hum).1, ?_⟩
    intro order ho
    by_cases hv : ∃ route ∈ result.routes, route.Visits order.orderId
    · obtain ⟨route, hr, stop, hs, he⟩ := hv
      obtain ⟨order', ho', he', hsv⟩ := (hf route hr).served stop hs
      rw [eq_of_key_eq input.orders_nodup ho' ho (he'.trans he)] at hsv
      refine .inr ⟨?_, route, hr, hsv, ?_⟩
      · apply List.count_eq_zero.mpr
        intro hmem
        obtain ⟨u, hum, hue⟩ := List.mem_map.mp hmem
        exact (hu u hum).2.2 ⟨route, hr, stop, hs, he.trans hue.symm⟩
      · intro other hro hvo
        exact visits_unique hd hro hr hvo hsv.visits
    · have hmem := hm order ho hv
      refine .inl ⟨Nat.le_antisymm
        (List.nodup_iff_count.mp hnd _) (List.count_pos_iff.mpr hmem), ?_⟩
      intro route hr hvis
      exact hv ⟨route, hr, hvis⟩
  · rintro ⟨hk, hacc⟩
    have hcount (order : SolverOrder) (ho : order ∈ input.orders) :
        result.unassignedCount order.orderId ≤ 1 ∧
          (0 < result.unassignedCount order.orderId →
            ∀ route ∈ result.routes, ¬ route.Visits order.orderId) := by
      rcases hacc order ho with ⟨h1, hv⟩ | ⟨h0, -⟩
      · exact ⟨by omega, fun _ ↦ hv⟩
      · exact ⟨by omega, fun hpos ↦ by omega⟩
    refine ⟨?_, ⟨?_, ?_⟩, ?_⟩
    · refine (List.pairwise_map.mp hn).imp_of_mem ?_
      intro a b hra hrb hab orderId hva hvb
      obtain ⟨stop, hs, rfl⟩ := hva
      obtain ⟨order, ho, he, -⟩ := (hf a hra).served stop hs
      rcases hacc order ho with ⟨-, hv⟩ | ⟨-, r, -, -, hu⟩
      · exact hv a hra ⟨stop, hs, he.symm⟩
      · have h₁ := hu a hra ⟨stop, hs, he.symm⟩
        have h₂ := hu b hrb (by rw [he]; exact hvb)
        exact hab (by rw [h₁, h₂])
    · intro u hum
      obtain ⟨order, ho, he⟩ := hk u hum
      refine ⟨⟨order, ho, he⟩, List.not_mem_nil, ?_⟩
      rintro ⟨route, hr, hvis⟩
      have hmem : order.orderId ∈ result.unassignedOrders.map (·.orderId) := by
        rw [he]
        exact List.mem_map.mpr ⟨u, hum, rfl⟩
      exact (hcount order ho).2 (List.count_pos_iff.mpr hmem) route hr (by rw [he]; exact hvis)
    · apply List.nodup_iff_count.mpr
      intro orderId
      by_cases hmem : orderId ∈ result.unassignedOrders.map (·.orderId)
      · obtain ⟨u, hum, rfl⟩ := List.mem_map.mp hmem
        obtain ⟨order, ho, he⟩ := hk u hum
        rw [← he]
        exact (hcount order ho).1
      · rw [List.count_eq_zero.mpr hmem]
        omega
    · intro order ho hv
      rcases hacc order ho with ⟨h1, -⟩ | ⟨-, route, hr, hsv, -⟩
      · apply List.count_pos_iff.mp
        change 0 < result.unassignedCount order.orderId
        omega
      · exact absurd ⟨route, hr, hsv.visits⟩ hv

/-- The validator accepts a feasible result exactly when it is a feasible routing up to
empty routes. -/
theorem validate_eq_nil (result : SolverResult) (hs : result.status = .feasible) :
    validate input result = [] ↔ RoutingUpToEmptyRoutes input result := by
  simp only [validate, hs, ne_eq, not_true_eq_false, if_false, List.append_eq_nil_iff,
    checkRoutes_eq_nil, checkFrozen_eq_nil, issueIf_eq_nil, bne_eq_false_iff_eq,
    Bool.not_eq_false']
  constructor
  · rintro ⟨⟨⟨⟨⟨⟨hr, hn, hd⟩, hu⟩, hm⟩, hz⟩, hdist⟩, hdur⟩
    have hfits : ∀ route ∈ result.routes, RouteFits input route := fun r hrm ↦ (hr r hrm).1
    have hassigned (orderId : UUID) := by
      simpa using mem_checkRoutes_assigned [] [] hfits orderId
    obtain ⟨hk, hacc⟩ := (accounted_iff hfits hn hassigned).mp ⟨hd, hu, hm⟩
    refine ⟨fun r hrm ↦ (hfits r hrm).drivable, hn, ?_, hk, hacc, hz, hdist, hdur⟩
    intro r hrm stop hst
    obtain ⟨order, ho, he, -⟩ := (hfits r hrm).served stop hst
    exact ⟨order, ho, he⟩
  · intro h
    have hfits : ∀ route ∈ result.routes, RouteFits input route := by
      intro route hrm
      refine ⟨h.drivable route hrm, ?_⟩
      intro stop hst
      obtain ⟨order, ho, he, hsv, -⟩ := h.stop_cases hrm hst
      exact ⟨order, ho, he, hsv⟩
    have hassigned (orderId : UUID) := by
      simpa using mem_checkRoutes_assigned [] [] hfits orderId
    obtain ⟨hd, hu, hm⟩ := (accounted_iff hfits h.vehicles hassigned).mpr
      ⟨h.knownUnassigned, h.accounted⟩
    refine ⟨⟨⟨⟨⟨⟨?_, h.vehicles, hd⟩, hu⟩, hm⟩, h.frozen⟩, h.totalDistance⟩, h.totalDuration⟩
    intro route hrm
    exact ⟨hfits route hrm, List.not_mem_nil, fun _ _ ↦ List.not_mem_nil⟩

/-! ### How far the validator decides feasibility -/

/-- The validator's verdict is the feasibility of the result exactly when no route is empty
or the result is infeasible for another reason. -/
theorem validate_decides_feasible_iff (input : SolverInput) (result : SolverResult)
    (hs : result.status = .feasible) :
    (validate input result = [] ↔ FeasibleRouting input result) ↔
      result.NoEmptyRoute ∨ ¬ RoutingUpToEmptyRoutes input result := by
  rw [validate_eq_nil result hs, feasibleRouting_iff]
  constructor
  · intro h
    by_cases hr : RoutingUpToEmptyRoutes input result
    · exact .inl (h.mp hr).2
    · exact .inr hr
  · rintro (hn | hr)
    · exact ⟨fun h ↦ ⟨h, hn⟩, fun h ↦ h.1⟩
    · exact ⟨fun h ↦ absurd h hr, fun h ↦ h.1⟩

/-- One order and two vehicles at the store of location 1, deliveries at location 2. -/
def twoVehicleInput : SolverInput where
  businessDate := 738000
  currentTime := 0
  orders := [⟨⟨10, some 1, none, 2, 0, 0, 900, 30, 0, 30, 1, none⟩, rfl⟩]
  vehicles := [⟨⟨20, 5, 1, 0, 3600, 0⟩, rfl⟩, ⟨⟨21, 5, 1, 0, 3600, 0⟩, rfl⟩]
  frozenTasks := []
  recoveryScope := none
  locationIds := [1, 2]
  distanceMatrixMeters := [[0, 100], [100, 0]]
  durationMatrixSeconds := [[0, 60], [60, 0]]
  checked := rfl

/-- A stop that comes behind some others and leaves after its service. -/
def servedStop (orderId locationId : UUID) (stopType : SolverStopType)
    (previous arrival service : Nat) (load : Int) : SolverStop :=
  ⟨orderId, locationId, stopType, previous + 1, arrival, arrival + service, service, load,
    previous.succ_pos, Nat.le_add_right arrival service⟩

/-- The order's pickup and delivery, on the first vehicle. -/
def servingRoute : SolverRoute where
  vehicleId := 20
  stops := [servedStop 10 1 .pickup 0 0 30 1,
    servedStop 10 2 .delivery 1 90 30 (-1)]
  distanceMeters := 100
  durationSeconds := 120

/-- The order is served by the first vehicle; the second has a route without stops that
declares 500 meters. -/
def emptyRouteResult : SolverResult where
  status := .feasible
  routes := [servingRoute, ⟨21, [], 500, 0⟩]
  unassignedOrders := []
  totalDistanceMeters := 600
  totalDurationSeconds := 120
  diagnostic := none

/-- The validator accepts a route without stops and the distance it declares. -/
theorem validate_accepts_emptyRoute :
    emptyRouteResult.status = .feasible ∧ validate twoVehicleInput emptyRouteResult = [] ∧
      ¬ FeasibleRouting twoVehicleInput emptyRouteResult := by
  refine ⟨rfl, by decide, ?_⟩
  intro h
  exact h.nonempty ⟨21, [], 500, 0⟩ (by simp [emptyRouteResult]) rfl

/-- On the same input without the empty route the verdict is exact. -/
theorem validate_decides_servingRoute :
    let result := { emptyRouteResult with routes := [servingRoute], totalDistanceMeters := 100 }
    validate twoVehicleInput result = [] ∧ FeasibleRouting twoVehicleInput result := by
  intro result
  have hn : result.NoEmptyRoute := by
    intro route hr
    rw [List.mem_singleton.mp hr]
    decide
  have hv : validate twoVehicleInput result = [] := by decide
  exact ⟨hv, ((validate_decides_feasible_iff twoVehicleInput result rfl).mpr (.inl hn)).mp hv⟩

end PenroseRoute.Optimization
