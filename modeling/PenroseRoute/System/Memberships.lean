import PenroseRoute.Planning.FinalizerCorrect
import PenroseRoute.Recovery.CandidateDeliveries
import PenroseRoute.System.RouteSources
import PenroseRoute.System.StopRules

/-!
# Memberships over runs

The stops of every plan are of its members, whose orders are of the date of the plan, and an order
that a plan does not assign has no stop on it.
-/

namespace PenroseRoute.System

open PenroseRoute.Db PenroseRoute.Lib PenroseRoute.Operations PenroseRoute.Recovery
open PenroseRoute.Incidents PenroseRoute.Lifecycle PenroseRoute.Optimization
open StopExecutionService

/-- A plan with one membership for each of its orders, which are of its date and have all stops
of the plan; an order that is not assigned has none. -/
structure Membered (db : Database) (plan : DeliveryPlan) : Prop where
  onePerOrder : (plan.planOrders.map (·.orderId)).Nodup
  dated : ∀ membership ∈ plan.planOrders, ∃ order, db.order? membership.orderId = some order ∧
    order.businessDate = plan.businessDate
  stops : ∀ route ∈ plan.routes, ∀ stop ∈ route.stops, ∃ membership ∈ plan.planOrders,
    membership.orderId = stop.orderId ∧ membership.assignmentStatus = .assigned

/-- A draft whose memberships fit the stops as the planner leaves them, with PLANNED orders of the
date. -/
structure Fitted (s : SysState) : Prop where
  drafted : Drafted s
  orders : ∀ plan ∈ s.db.plans, ∀ membership ∈ plan.planOrders, ∃ order,
    s.db.order? membership.orderId = some order ∧ order.businessDate = plan.businessDate ∧
      order.executionStatus = .planned
  members : ∀ plan ∈ s.db.plans, ∀ route ∈ plan.routes, ∀ stop ∈ route.stops,
    stop.orderId ∈ plan.planOrders.map (·.orderId)
  fits : ∀ plan ∈ s.db.plans, ∀ membership ∈ plan.planOrders, Planning.Fits plan.routes membership

variable {settings : Settings} {s : SysState} {action : Action} {db db' : Database}
  {plan plan' : DeliveryPlan}

/-! ### What keeps memberships -/

/-- The routes of plans with the same layout have the same stops but for times and progress. -/
theorem exists_of_layout (h : plan'.layout = plan.layout) {route' : VehicleRoute}
    (hr : route' ∈ plan'.routes) : ∃ route ∈ plan.routes, route.id = route'.id ∧
      route.vehicleId = route'.vehicleId ∧
        route.stops.map (·.fixed) = route'.stops.map (·.fixed) := by
  have hmem : (route'.id, route'.vehicleId, route'.stops.map (·.fixed)) ∈ plan.layout := by
    rw [← h]
    exact List.mem_map.mpr ⟨route', hr, rfl⟩
  obtain ⟨route, hroute, he⟩ := List.mem_map.mp hmem
  rw [Prod.mk.injEq, Prod.mk.injEq] at he
  exact ⟨route, hroute, he.1, he.2.1, he.2.2⟩

/-- The orders and kinds of fixed stops. -/
theorem keys_of_fixed {route route' : VehicleRoute}
    (h : route.stops.map (·.fixed) = route'.stops.map (·.fixed)) :
    (route.stops.map fun stop ↦ (stop.orderId, stop.stopType)) =
      route'.stops.map fun stop ↦ (stop.orderId, stop.stopType) := by
  have hmap := congrArg (List.map fun stop : RouteStop ↦ (stop.orderId, stop.stopType)) h
  rw [List.map_map, List.map_map] at hmap
  exact hmap

/-- A plan with the layout, the memberships and the date of another one is membered as that is. -/
theorem Membered.of_layout (h : Membered db plan) (grows : Grows db db')
    (hlayout : plan'.layout = plan.layout) (horders : plan'.planOrders = plan.planOrders)
    (hdate : plan'.businessDate = plan.businessDate) : Membered db' plan' := by
  refine ⟨by rw [horders]; exact h.onePerOrder, fun membership hm ↦ ?_, fun route' hr stop' hs ↦ ?_⟩
  · rw [horders] at hm
    obtain ⟨order, ho, hd⟩ := h.dated membership hm
    have hsame := grows.order? (f := (·.businessDate)) (fun _ ↦ rfl) membership.orderId
    rw [ho, Option.map_some] at hsame
    obtain ⟨order', ho', hd'⟩ := Option.map_eq_some_iff.mp hsame
    exact ⟨order', ho', by rw [hd', hd, hdate]⟩
  · obtain ⟨route, hroute, -, -, hfixed⟩ := exists_of_layout hlayout hr
    have hmem : stop'.fixed ∈ route.stops.map (·.fixed) := by
      rw [hfixed]
      exact List.mem_map_of_mem hs
    obtain ⟨stop, hstop, he⟩ := List.mem_map.mp hmem
    obtain ⟨membership, hm, hid, hassigned⟩ := h.stops route hroute stop hstop
    refine ⟨membership, horders ▸ hm, hid.trans ?_, hassigned⟩
    exact (congrArg RouteStop.orderId he :)

/-- A candidate that a run has made has the members of its base plan. -/
theorem membered_of_made {incidentId : UUID} {context : RecoveryContext} {result : SolverResult}
    {candidate : DeliveryPlan} (h : Made db incidentId context result candidate)
    (hplans : ∀ plan ∈ db.plans, Membered db plan) (grows : Grows db db') :
    Membered db' candidate := by
  obtain ⟨incident, base, -, hb, hread⟩ := materializeRecoveryContext_ok h.read
  obtain ⟨db₀, hcreated, -, -, -⟩ := h.created
  have hbase := hplans base (plan?_mem hb).1
  have hids : candidate.planOrders.map (·.orderId) = context.planOrders.map (·.orderId) :=
    hcreated.planOrders_orderId
  have hmember : ∀ orderId, orderId ∈ candidate.planOrders.map (·.orderId) ↔
      ∃ membership ∈ base.planOrders, membership.orderId = orderId := by
    intro orderId
    rw [hids, List.mem_map]
    simp only [hread.mem_planOrders]
  refine ⟨hcreated.planOrders_nodup, fun membership hm ↦ ?_, fun route hr stop hs ↦ ?_⟩
  · obtain ⟨own, hown, hid⟩ := (hmember _).mp (List.mem_map_of_mem hm)
    obtain ⟨order, ho, hd⟩ := hbase.dated own hown
    have hsame := grows.order? (f := (·.businessDate)) (fun _ ↦ rfl) own.orderId
    rw [ho, Option.map_some] at hsame
    obtain ⟨order', ho', hd'⟩ := Option.map_eq_some_iff.mp hsame
    refine ⟨order', hid ▸ ho', ?_⟩
    rw [hd', hd, hcreated.row]
    exact hread.businessDate.symm
  · -- A kept stop is of a member of the base plan, and so is a target order.
    have hin : stop.orderId ∈ candidate.planOrders.map (·.orderId) := by
      rw [hmember]
      obtain ⟨task, ht, hbuilt⟩ := exists_of_forall₂_right hcreated.routes hr
      obtain ⟨copies, solved, hstops, hcopies, hsolved⟩ := hbuilt.stops.parts
      rw [hstops, List.mem_append] at hs
      rcases hs with hs | hs
      · obtain ⟨snapshot, hsnapshot, hof⟩ := exists_of_forall₂_right hcopies hs
        rw [hof.field (·.orderId) fun _ _ _ _ ↦ rfl]
        cases task with
        | extra solver => cases hsnapshot
        | base own solver =>
          have hown : own ∈ context.routes := by
            rcases List.mem_append.mp ht with hm | hm
            · obtain ⟨row, hrow, he⟩ := List.mem_filterMap.mp hm
              dsimp only at he
              split at he
              · cases he
              · cases he
                exact hrow
            · obtain ⟨entry, -, he⟩ := List.mem_map.mp hm
              cases he
          obtain ⟨old, hold, rfl⟩ := (hread.mem_routes own).mp hown
          obtain ⟨membership, hm, hid, -⟩ := hbase.stops old hold snapshot
            (mem_routeSnapshot_stops.mp (mem_preservedStops.mp hsnapshot).1)
          exact ⟨membership, hm, hid⟩
      · obtain ⟨solverStop, -, fact, hfact, he⟩ := exists_of_forall₂_right hsolved hs
        obtain ⟨hmem, hid⟩ := targetOrder?_mem hfact
        obtain ⟨target, -, hrow⟩ := exists_of_forall₂_right hread.targetOrders hmem
        obtain ⟨membership, order, hfind, horder, hof⟩ := orderFact_ok hrow
        refine ⟨membership, List.mem_of_find?_eq_some hfind, ?_⟩
        have hmid : membership.orderId = target := eq_of_beq (List.find?_some hfind :)
        have hoid : order.id = target := eq_of_beq (List.find?_some horder :)
        rw [he, hmid, ← hoid, ← hof.orderId, hid]
        rfl
    obtain ⟨membership, hm, hid⟩ := List.mem_map.mp hin
    refine ⟨membership, hm, hid, ?_⟩
    obtain ⟨snapshot, -, hrow⟩ := exists_of_forall₂_right hcreated.planOrders hm
    obtain ⟨hsid, ⟨hassigned, -⟩ | ⟨-, -, hnone⟩⟩ := candidateMembership_ok hrow
    · exact hassigned
    · rw [List.find?_eq_none] at hnone
      refine absurd ?_ (hnone route (List.mem_reverse.mpr hr))
      rw [VehicleRoute.holds, List.contains_iff_mem, ← hsid, hid]
      exact List.mem_map_of_mem hs

/-! ### Runs -/

/-- A plan of a fitted draft is membered. -/
theorem Fitted.membered (h : Fitted s) (hp : plan ∈ s.db.plans) : Membered s.db plan := by
  refine ⟨?_, fun membership hm ↦ ?_, fun route hr stop hs ↦ ?_⟩
  · exact ((Created.constraints_iff s.db plan).mp (h.drafted.constraints plan hp)).2.2.2.1
  · obtain ⟨order, ho, hd, -⟩ := h.orders plan hp membership hm
    exact ⟨order, ho, hd⟩
  · obtain ⟨membership, hm, hid⟩ := List.mem_map.mp (h.members plan hp route hr stop hs)
    refine ⟨membership, hm, hid, ?_⟩
    rcases h.fits plan hp membership hm with ⟨hassigned, -⟩ | ⟨-, -, -, hnone⟩
    · exact hassigned
    · have hholds : route.holds membership.orderId = true :=
        List.contains_iff_mem.mpr (List.mem_map.mpr ⟨stop, hs, hid.symm⟩)
      rw [hnone route hr] at hholds
      cases hholds

/-- Every transaction leaves membered plans. -/
theorem membered_effect (h : ∀ plan ∈ db.plans, Membered db plan)
    (he : Effect settings db action db') : ∀ plan ∈ db'.plans, Membered db' plan := by
  have grows := he.grows
  have hsame : db'.plans = db.plans → ∀ plan ∈ db'.plans, Membered db' plan := by
    intro hplans plan hp
    rw [hplans] at hp
    exact (h plan hp).of_layout grows rfl rfl rfl
  have hbare : ∀ {added : List DeliveryPlan}, Plans db db' added →
      (∀ candidate ∈ added, Membered db' candidate) → ∀ plan ∈ db'.plans, Membered db' plan := by
    intro added plans hadded plan' hp
    have hmem : plan'.bare ∈ (db.plans ++ added).map (·.bare) := by
      rw [← plans.plans]
      exact List.mem_map_of_mem hp
    obtain ⟨old, hold, he⟩ := List.mem_map.mp hmem
    have hlayout : plan'.layout = old.layout := (congrArg DeliveryPlan.layout he.symm :)
    have horders : plan'.planOrders = old.planOrders :=
      (congrArg DeliveryPlan.planOrders he.symm :)
    have hdate : plan'.businessDate = old.businessDate :=
      (congrArg DeliveryPlan.businessDate he.symm :)
    rcases List.mem_append.mp hold with hold | hnew
    · exact (h old hold).of_layout grows hlayout horders hdate
    · exact (hadded old hnew).of_layout (.refl db') hlayout horders hdate
  cases he with
  | idle => exact h
  | moved hcall hc =>
    intro plan' hp
    rw [plans_applyTransition] at hp
    obtain ⟨plan, hplan, rfl⟩ := List.mem_map.mp hp
    refine (h plan hplan).of_layout grows layout_movedPlan ?_ ?_ <;>
      · rw [movedPlan]
        split <;> rfl
  | advanced ha =>
    refine hsame ?_
    obtain rfl | ⟨order, -, -, rfl⟩ := Resources.advanceExecution_ok ha <;> rfl
  | flagged riskOf => exact hsame rfl
  | reported hr =>
    obtain ⟨context, locationId, -, -, -, -, rfl⟩ := VehicleIncidentWorkflow.reportUnavailable_ok hr
    exact hsame rfl
  | delayed hd =>
    rcases MerchantDelayWorkflow.assessDelay_ok hd with
      rfl | ⟨context, incident, -, -, -, -, -, rfl | rfl⟩
    · exact h
    · exact hsame rfl
    · intro plan' hp
      obtain ⟨plan, hplan, ⟨-, rfl⟩ | ⟨-, rfl⟩⟩ := mem_updateWhere.mp hp
      · refine (h plan hplan).of_layout grows ?_ rfl rfl
        exact MerchantDelayWorkflow.map_routes_shiftPlan (f := (·.fixed))
          (g := fun route stops ↦ (route.id, route.vehicleId, stops)) (fun _ _ _ ↦ rfl)
          (fun _ _ _ ↦ rfl) _ _ plan
      · exact (h _ hplan).of_layout grows rfl rfl rfl
  | planned _ plans made _ =>
    refine hbare plans fun candidate hc ↦ ?_
    obtain ⟨incidentId, context, result, hmade⟩ := made candidate hc
    exact membered_of_made hmade h grows
  | approved _ _ _ => exact hbare (applyApproval_plans _ _) fun _ hc ↦ by cases hc

end PenroseRoute.System
