import PenroseRoute.Operations.AlertLifecycle
import PenroseRoute.Operations.Queries

/-!
# Four verdicts on one delivery

The flag that `recalculate_route` stores, the flag of an alert evaluation, the risk of an order
view and the orders at risk of a route view are computed from different rows. For an order with one
delivery that is COMPLETED exactly when the order is, they are the same verdict.
-/

namespace PenroseRoute.Operations

open PenroseRoute.Db PenroseRoute.Lib RiskService AlertService OperationsQueryService

/-- The delivery of an assigned order of a plan: the only one in the plan, on the route that the
membership names, and COMPLETED exactly when the order is. -/
structure DeliveredAs (db : Database) (plan : DeliveryPlan) (membership : DeliveryPlanOrder)
    (route : VehicleRoute) (delivery : RouteStop) (order : Order) : Prop where
  found : db.order? membership.orderId = some order
  assigned : membership.assignmentStatus = .assigned
  onPlan : route ∈ plan.routes
  named : membership.vehicleRouteId = some route.id
  onRoute : delivery ∈ route.stops
  orderId : delivery.orderId = membership.orderId
  stopType : delivery.stopType = .delivery
  only : ∀ other ∈ plan.routes, ∀ stop ∈ other.stops, stop.orderId = membership.orderId →
    stop.stopType = .delivery → other = route ∧ stop = delivery
  completed : delivery.status = .completed ↔ order.executionStatus = .completed

/-- The verdict on a delivery at a time. -/
def verdict (thresholdSeconds : Int) (now : Instant) (route : VehicleRoute) (delivery : RouteStop)
    (order : Order) : OrderRiskStatus :=
  if delivery.status == .completed then .normal
  else statusForEta thresholdSeconds
    (delivery.plannedArrivalAt + timedelta (routeDelaySeconds route.stops now))
    (delivery.timeWindowEndAt.getD order.deliveryWindowEndAt)

/-- The verdict of every computation on the order of a membership at a time: the flag after
`recalculate_route` on its route, the flag after an evaluation that no earlier one has overtaken,
the risk in its views, and whether a route counts it as at risk. -/
structure Verdict (thresholdSeconds : Int) (db : Database) (plan : DeliveryPlan) (now : Instant)
    (membership : DeliveryPlanOrder) (status : OrderRiskStatus) : Prop where
  recalculated : ∃ route ∈ plan.routes, membership.vehicleRouteId = some route.id ∧
    ((recalculateRoute thresholdSeconds route.stops now db.orders).find?
      (·.id == membership.orderId)).map (·.riskStatus) = some status
  evaluated : ∀ tables, Sound tables →
    (∀ latest ∈ AlertRepository.latestEvaluationAt tables plan.businessDate, latest ≤ now) →
    ∀ result db' tables',
      evaluateLocked thresholdSeconds db tables plan.businessDate now = .ok (result, db', tables') →
        (db'.order? membership.orderId).map (·.riskStatus) = some status
  viewed : (∃ view ∈ orderViews thresholdSeconds db plan now, view.orderId = membership.orderId) ∧
    ∀ view ∈ orderViews thresholdSeconds db plan now, view.orderId = membership.orderId →
      view.riskStatus = status
  counted : ∀ route ∈ plan.routes,
    membership.orderId ∈ atRiskOrders thresholdSeconds db route now ↔
      status = .atRisk ∧ membership.vehicleRouteId = some route.id

variable {thresholdSeconds : Int} {db : Database} {plan : DeliveryPlan} {now : Instant}
  {membership : DeliveryPlanOrder} {route : VehicleRoute} {delivery : RouteStop} {order : Order}

namespace DeliveredAs

private theorem passes (h : DeliveredAs db plan membership route delivery order)
    {stop : RouteStop} (hs : stop ∈ route.stops) (hne : stop ≠ delivery) :
    stop.orderId ≠ membership.orderId ∨ stop.stopType ≠ .delivery := by
  by_cases hid : stop.orderId = membership.orderId
  · exact .inr fun hd ↦ hne (h.only route h.onPlan stop hs hid hd).2
  · exact .inl hid

/-! ### The stored flag -/

/-- `recalculate_route` stores the verdict. -/
theorem recalculated (h : DeliveredAs db plan membership route delivery order) :
    ((recalculateRoute thresholdSeconds route.stops now db.orders).find?
      (·.id == membership.orderId)).map (·.riskStatus) =
        some (verdict thresholdSeconds now route delivery order) := by
  have hfind : ∀ (orders : List Order) (stop : RouteStop) (delay : Int),
      (updateWhere orders (·.id == stop.orderId) (recalculateOrder thresholdSeconds delay
        stop)).find? (·.id == membership.orderId) =
      (orders.find? (·.id == membership.orderId)).map fun row ↦
        if row.id == stop.orderId then recalculateOrder thresholdSeconds delay stop row
        else row := by
    intro orders stop delay
    refine find?_updateWhere fun row ↦ ?_
    rw [recalculateOrder]
    split
    · rfl
    · split <;> rfl
  have hid : ∀ {orders : List Order} {row : Order},
      orders.find? (·.id == membership.orderId) = some row → row.id = membership.orderId :=
    fun hrow ↦ eq_of_beq (List.find?_some hrow :)
  -- The order keeps its window, and only its delivery writes its flag.
  refine foldl_settles (a := delivery)
    (I := fun orders : List Order ↦ (orders.find? (·.id == membership.orderId)).map
      (·.deliveryWindowEndAt) = some order.deliveryWindowEndAt)
    (Q := fun orders : List Order ↦ (orders.find? (·.id == membership.orderId)).map
      (·.riskStatus) = some (verdict thresholdSeconds now route delivery order))
    (fun orders stop _ hwindow ↦ ?_) (fun orders hwindow ↦ ?_)
    (fun orders stop hs hne _ hflag ↦ ?_) ?_ (.inl h.onRoute)
  · obtain ⟨row, hrow, hw⟩ := Option.map_eq_some_iff.mp hwindow
    rw [hfind, hrow, Option.map_some, Option.map_some, ← hw, recalculateOrder]
    split
    · split
      · rfl
      · split <;> rfl
    · rfl
  · obtain ⟨row, hrow, hw⟩ := Option.map_eq_some_iff.mp hwindow
    rw [hfind, hrow, Option.map_some, Option.map_some, hid hrow, h.orderId,
      if_pos (beq_self_eq_true _), recalculateOrder, h.stopType, if_neg (by decide), verdict]
    split
    · rfl
    · rw [hw]
  · obtain ⟨row, hrow, hw⟩ := Option.map_eq_some_iff.mp hflag
    rw [hfind, hrow, Option.map_some, Option.map_some, hid hrow]
    rcases h.passes hs hne with hother | hkind
    · rw [if_neg (by simpa using Ne.symm hother), hw]
    · rw [recalculateOrder, if_pos (bne_iff_ne.mpr hkind), ite_self, hw]
  · have hfound := h.found
    rw [Database.order?] at hfound
    rw [hfound, Option.map_some]

/-! ### Alerts -/

/-- An evaluation finds the delivery. -/
theorem deliveryOf (h : DeliveredAs db plan membership route delivery order)
    (hids : (plan.routes.map (·.id)).Nodup) :
    AlertService.deliveryOf plan membership = some (route, delivery) := by
  have hkeys : ((AlertService.routes plan).map (·.1)).Nodup := by
    rw [AlertService.routes, List.map_map]
    exact hids
  have hroute : lastWrite (AlertService.routes plan) route.id = some route :=
    (lastWrite_eq_some_iff hkeys _ _).mpr (List.mem_map_of_mem h.onPlan)
  have hentry : ∀ stop, ((route.id, membership.orderId), stop) ∈ deliveries plan →
      stop = delivery := by
    intro stop hs
    rw [deliveries, dictEntries_of_nodup hkeys] at hs
    obtain ⟨entry, he, hs⟩ := List.mem_flatMap.mp hs
    obtain ⟨other, hother, rfl⟩ := List.mem_map.mp he
    obtain ⟨row, hrow, hsame⟩ := List.mem_map.mp hs
    obtain ⟨hmem, hd⟩ := List.mem_filter.mp hrow
    rw [Prod.mk.injEq, Prod.mk.injEq] at hsame
    rw [← hsame.2]
    exact (h.only other hother row hmem hsame.1.2 (eq_of_beq hd)).2
  have hdelivery : lastWrite (deliveries plan) (route.id, membership.orderId) = some delivery := by
    have hwritten : ((route.id, membership.orderId), delivery) ∈ deliveries plan := by
      rw [deliveries, dictEntries_of_nodup hkeys]
      refine List.mem_flatMap.mpr ⟨(route.id, route), List.mem_map_of_mem h.onPlan, ?_⟩
      refine List.mem_map.mpr ⟨delivery, List.mem_filter.mpr ⟨h.onRoute, ?_⟩, ?_⟩
      · exact beq_iff_eq.mpr h.stopType
      · rw [h.orderId]
    obtain ⟨stop, hs⟩ := Option.isSome_iff_exists.mp
      ((isSome_lastWrite_iff _ _).mpr ⟨delivery, hwritten⟩)
    rw [hs, hentry stop (mem_of_lastWrite hs)]
  rw [AlertService.deliveryOf, h.assigned, if_pos (by decide), h.named]
  simp only [Option.bind_eq_bind, Option.bind_some, hroute, hdelivery, Option.pure_def]

/-- The evidence of an evaluation is there when the verdict is that the order is at risk. -/
theorem flagOf_assess (h : DeliveredAs db plan membership route delivery order)
    (hids : (plan.routes.map (·.id)).Nodup) :
    flagOf (assess thresholdSeconds plan now order membership) =
      verdict thresholdSeconds now route delivery order := by
  rw [assess, h.deliveryOf hids, verdict]
  dsimp only
  by_cases hdone : delivery.status = .completed
  · have horder := h.completed.mp hdone
    rw [hdone, horder]
    rfl
  · have horder : order.executionStatus ≠ .completed := fun hc ↦ hdone (h.completed.mpr hc)
    rw [beq_false_of_ne hdone, beq_false_of_ne horder, Bool.or_self, if_neg Bool.false_ne_true,
      if_neg Bool.false_ne_true]
    split
    · next hnormal => exact (eq_of_beq hnormal).symm
    · next hrisk =>
      rw [statusForEta] at hrisk ⊢
      split
      · rfl
      · next hlate =>
        rw [if_neg hlate] at hrisk
        exact absurd rfl hrisk

/-- An evaluation flags the order with the verdict. -/
theorem evaluated (h : DeliveredAs db plan membership route delivery order)
    (hids : (plan.routes.map (·.id)).Nodup) (honce : (plan.planOrders.map (·.orderId)).Nodup)
    (hmem : membership ∈ plan.planOrders) (hplan : db.currentPlan? plan.businessDate = some plan)
    {tables tables' : AlertTables} (hsound : Sound tables)
    (hlatest : ∀ latest ∈ AlertRepository.latestEvaluationAt tables plan.businessDate,
      latest ≤ now) {result : AlertEvaluationResult} {db' : Database}
    (hok : evaluateLocked thresholdSeconds db tables plan.businessDate now =
      .ok (result, db', tables')) :
    (db'.order? membership.orderId).map (·.riskStatus) =
      some (verdict thresholdSeconds now route delivery order) := by
  have htime : evaluationTime tables plan.businessDate now = now := by
    rw [evaluationTime]
    split
    · rfl
    · next latest heq => exact max_eq_left (hlatest latest heq)
  have hsettled := evaluateLocked_settled hsound hok
  rw [htime] at hsettled
  have hitem : (membership.orderId, membership) ∈ sortedMemberships plan := by
    refine mem_sortedMemberships.mpr ((lastWrite_eq_some_iff ?_ _ _).mpr ?_)
    · rw [memberships, List.map_map]
      exact honce
    · exact List.mem_map_of_mem hmem
  have hflag := hsettled.flagged plan hplan _ hitem
  rw [evidenceOf, h.found, Option.bind_some, h.flagOf_assess hids] at hflag
  have hfound := hsettled.facts.order? membership.orderId
  rw [h.found] at hfound
  obtain ⟨order', ho, -⟩ := Option.map_eq_some_iff.mp hfound
  rw [ho, Option.map_some, hflag order' (List.mem_of_find?_eq_some ho)
    (eq_of_beq (List.find?_some ho :))]

/-! ### Views -/

/-- The view of the order shows the verdict. -/
theorem viewed (h : DeliveredAs db plan membership route delivery order)
    (hids : (plan.routes.map (·.id)).Nodup) :
    (orderView thresholdSeconds plan now (membership, order)).riskStatus =
      verdict thresholdSeconds now route delivery order := by
  have hkeys : ((AlertService.routes plan).map (·.1)).Nodup := by
    rw [AlertService.routes, List.map_map]
    exact hids
  have hroute : lastWrite (AlertService.routes plan) route.id = some route :=
    (lastWrite_eq_some_iff hkeys _ _).mpr (List.mem_map_of_mem h.onPlan)
  have hid : order.id = membership.orderId := eq_of_beq (List.find?_some h.found :)
  have hcompleted : (order.executionStatus == .completed) = (delivery.status == .completed) := by
    rw [Bool.eq_iff_iff, beq_iff_eq, beq_iff_eq]
    exact h.completed.symm
  rw [orderView]
  dsimp only
  rw [h.assigned, if_pos (by decide), h.named, Option.bind_some, hroute, Option.elim_some,
    Option.elim_some]
  refine foldl_settles (a := delivery) (I := fun _ ↦ True)
    (Q := fun seen : OrderEta ↦ seen.riskStatus =
      verdict thresholdSeconds now route delivery order)
    (fun _ _ _ _ ↦ trivial) (fun seen _ ↦ ?_) (fun seen stop hs hne _ hseen ↦ ?_) trivial
    (.inl h.onRoute)
  · rw [visitStop, h.orderId, hid, bne_self_eq_false, if_neg Bool.false_ne_true]
    dsimp only
    rw [h.stopType, hcompleted]
    rfl
  · rw [visitStop]
    split
    · exact hseen
    · next hsame =>
      rw [hid, bne_iff_ne, not_not] at hsame
      have hkind := (h.passes hs hne).resolve_left (not_not.mpr hsame)
      dsimp only
      cases ht : stop.stopType with
      | delivery => exact absurd ht hkind
      | pickup => exact hseen
      | handover => exact hseen

/-- A route counts the order as at risk when it delivers it and the verdict says so. -/
theorem counted (h : DeliveredAs db plan membership route delivery order)
    {other : VehicleRoute} (hother : other ∈ plan.routes) :
    membership.orderId ∈ atRiskOrders thresholdSeconds db other now ↔
      other = route ∧ verdict thresholdSeconds now route delivery order = .atRisk := by
  have hstatus : ∀ stop : RouteStop, stop.orderId = membership.orderId →
      ((db.order? stop.orderId).any fun order ↦ statusForEta thresholdSeconds
        (stop.plannedArrivalAt + timedelta (routeDelaySeconds other.stops now))
        (stop.timeWindowEndAt.getD order.deliveryWindowEndAt) == .atRisk) =
      (statusForEta thresholdSeconds
        (stop.plannedArrivalAt + timedelta (routeDelaySeconds other.stops now))
        (stop.timeWindowEndAt.getD order.deliveryWindowEndAt) == .atRisk) := by
    intro stop hid
    rw [hid, h.found, Option.any_some]
  rw [atRiskOrders, List.mem_dedup, List.mem_map]
  constructor
  · rintro ⟨stop, hs, hid⟩
    rw [List.mem_filter, Bool.and_eq_true, Bool.and_eq_true, hstatus stop hid, beq_iff_eq,
      bne_iff_ne, beq_iff_eq] at hs
    obtain ⟨rfl, rfl⟩ := h.only other hother stop hs.1 hid hs.2.1.1
    refine ⟨rfl, ?_⟩
    rw [verdict, if_neg (by simpa using hs.2.1.2)]
    exact hs.2.2
  · rintro ⟨rfl, hrisk⟩
    refine ⟨delivery, ?_, h.orderId⟩
    rw [verdict] at hrisk
    split at hrisk
    · cases hrisk
    · next hopen =>
      rw [List.mem_filter, Bool.and_eq_true, Bool.and_eq_true, hstatus delivery h.orderId,
        beq_iff_eq, beq_iff_eq]
      exact ⟨h.onRoute, ⟨h.stopType, by simpa using hopen⟩, hrisk⟩

/-- The four computations have one verdict. -/
theorem agrees (h : DeliveredAs db plan membership route delivery order)
    (hids : (plan.routes.map (·.id)).Nodup) (honce : (plan.planOrders.map (·.orderId)).Nodup)
    (hmem : membership ∈ plan.planOrders) (hplan : db.currentPlan? plan.businessDate = some plan)
    (thresholdSeconds : Int) (now : Instant) :
    Verdict thresholdSeconds db plan now membership
      (verdict thresholdSeconds now route delivery order) := by
  have hid : order.id = membership.orderId := eq_of_beq (List.find?_some h.found :)
  refine ⟨⟨route, h.onPlan, h.named, h.recalculated⟩, fun tables hsound hlatest result db' tables'
    hok ↦ h.evaluated hids honce hmem hplan hsound hlatest hok, ⟨?_, ?_⟩, fun other hother ↦ ?_⟩
  · have hitem : (membership, order) ∈ sortedOrders db plan := by
      rw [sortedOrders, List.mem_insertionSort, List.mem_filterMap]
      exact ⟨membership, hmem, by rw [h.found, Option.map_some]⟩
    exact ⟨orderView thresholdSeconds plan now (membership, order), List.mem_map_of_mem hitem, hid⟩
  · intro view hv heq
    obtain ⟨item, hitem, rfl⟩ := List.mem_map.mp hv
    rw [sortedOrders, List.mem_insertionSort, List.mem_filterMap] at hitem
    obtain ⟨row, hrow, hfound⟩ := hitem
    obtain ⟨found, ho, rfl⟩ := Option.map_eq_some_iff.mp hfound
    have hfid : found.id = row.orderId := eq_of_beq (List.find?_some ho :)
    have hsame : row = membership := eq_of_key_eq honce hrow hmem (hfid.symm.trans heq)
    subst hsame
    rw [h.found, Option.some.injEq] at ho
    subst ho
    exact h.viewed hids
  · rw [h.counted hother, h.named, Option.some.injEq, and_comm]
    refine and_congr_right fun _ ↦ ⟨fun he ↦ by rw [he], fun he ↦ ?_⟩
    exact eq_of_key_eq hids hother h.onPlan he.symm

end DeliveredAs

end PenroseRoute.Operations
