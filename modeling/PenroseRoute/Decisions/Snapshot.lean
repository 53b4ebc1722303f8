import PenroseRoute.Db.Database

/-!
# The snapshot check of a candidate

Models the comparison of a candidate with its base plan in `_lock_reviewable` of
`backend/app/modules/decisions/service.py`, and says what a candidate whose memberships agree
with its stops is. A candidate always has a `validation_summary`.
-/

namespace PenroseRoute.Db

/-- A route stops for an order. -/
def VehicleRoute.holds (route : VehicleRoute) (orderId : UUID) : Bool :=
  (route.stops.map (·.orderId)).contains orderId

/-- A route delivers an order. -/
def VehicleRoute.delivers (route : VehicleRoute) (orderId : UUID) : Bool :=
  route.stops.any fun stop ↦ stop.orderId == orderId && stop.stopType == .delivery

end PenroseRoute.Db

namespace PenroseRoute.Decisions

open PenroseRoute.Db

/-- The memberships with a status. -/
def membershipsWith (plan : DeliveryPlan) (status : PlanOrderAssignmentStatus) :
    List DeliveryPlanOrder :=
  plan.planOrders.filter (·.assignmentStatus == status)

/-- `set(xs) == set(ys)`. -/
def sameElements (xs ys : List UUID) : Bool := xs.all ys.contains && ys.all xs.contains

/-- The snapshot check of `_lock_reviewable`, `service.py:325`. -/
def snapshotConsistent (base candidate : DeliveryPlan) : Bool :=
  (membershipsWith candidate .assigned).length == candidate.assignedOrderCount &&
    (membershipsWith candidate .unassigned).length == candidate.unassignedOrderCount &&
    sameElements (candidate.planOrders.map (·.orderId)) (base.planOrders.map (·.orderId)) &&
    candidate.routes.length == candidate.vehicleCount &&
    candidate.totalDistanceMeters == (candidate.routes.map (·.distanceMeters)).sum &&
    candidate.totalDurationSeconds == (candidate.routes.map (·.durationSeconds)).sum &&
    (membershipsWith candidate .assigned).all fun membership ↦
      (membership.vehicleRouteId.bind fun routeId ↦
        candidate.routes.find? (·.id == routeId)).any (·.delivers membership.orderId)

/-- An assigned membership names the one route of its plan that delivers the order. -/
def NamesDeliveringRoute (plan : DeliveryPlan) (membership : DeliveryPlanOrder) : Prop :=
  ∃ route ∈ plan.routes, membership.vehicleRouteId = some route.id ∧
    route.delivers membership.orderId = true ∧
      ∀ other ∈ plan.routes, other.delivers membership.orderId = true → other = route

/-- A plan with one membership per order, each assigned one naming the route that delivers
the order. -/
structure Consistent (plan : DeliveryPlan) : Prop where
  onePerOrder : (plan.planOrders.map (·.orderId)).Nodup
  memberships : ∀ membership ∈ plan.planOrders, membership.assignmentStatus = .assigned →
    NamesDeliveringRoute plan membership

/-- A candidate whose memberships, counts and totals agree with its routes and stops and
which has the orders of its base plan. -/
structure Agrees (base candidate : DeliveryPlan) : Prop where
  onePerOrder : (candidate.planOrders.map (·.orderId)).Nodup
  sameOrders : ∀ orderId, orderId ∈ candidate.planOrders.map (·.orderId) ↔
    orderId ∈ base.planOrders.map (·.orderId)
  memberships : ∀ membership ∈ candidate.planOrders, membership.assignmentStatus = .assigned →
    NamesDeliveringRoute candidate membership
  assignedCount : candidate.assignedOrderCount = (membershipsWith candidate .assigned).length
  unassignedCount :
    candidate.unassignedOrderCount = (membershipsWith candidate .unassigned).length
  routeCount : candidate.vehicleCount = candidate.routes.length
  distance : candidate.totalDistanceMeters = (candidate.routes.map (·.distanceMeters)).sum
  duration : candidate.totalDurationSeconds = (candidate.routes.map (·.durationSeconds)).sum

/-- An agreeing candidate passes the snapshot check. -/
theorem Agrees.snapshotConsistent {base candidate : DeliveryPlan} (h : Agrees base candidate)
    (hids : (candidate.routes.map (·.id)).Nodup) :
    snapshotConsistent base candidate = true := by
  have hsame : sameElements (candidate.planOrders.map (·.orderId))
      (base.planOrders.map (·.orderId)) = true := by
    simp only [sameElements, Bool.and_eq_true, List.all_eq_true, List.contains_iff_mem]
    exact ⟨fun o ho ↦ (h.sameOrders o).mp ho, fun o ho ↦ (h.sameOrders o).mpr ho⟩
  have hroutes : (membershipsWith candidate .assigned).all (fun membership ↦
      (membership.vehicleRouteId.bind fun routeId ↦
        candidate.routes.find? (·.id == routeId)).any (·.delivers membership.orderId)) = true := by
    rw [List.all_eq_true]
    intro m hm
    rw [membershipsWith, List.mem_filter] at hm
    obtain ⟨route, hr, he, hd, -⟩ := h.memberships m hm.1 (by simpa using hm.2)
    have hfind := (Lib.find?_key_eq_some_iff (k := route.id) hids).mpr ⟨hr, rfl⟩
    simp [he, hfind, hd]
  simp [Decisions.snapshotConsistent, hsame, hroutes, ← h.assignedCount, ← h.unassignedCount,
    ← h.routeCount, ← h.distance, ← h.duration]

end PenroseRoute.Decisions
