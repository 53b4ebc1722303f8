import PenroseRoute.Operations.StopMachine
import PenroseRoute.Recovery.WorkInProgress

/-!
# The execution that a candidate inherits

A candidate keeps stops of its base plan as execution has left them and puts PLANNED stops
behind them, so it goes on in order where the base plan was. A plan is therefore executed in
order from its generation on, over any number of recoveries.
-/

namespace PenroseRoute.Db

/-- A plan as the planner leaves it: no stop of it has been reached. -/
structure DeliveryPlan.Untouched (plan : DeliveryPlan) : Prop where
  routeIds : (plan.routes.map (·.id)).Nodup
  stopIds : ∀ route ∈ plan.routes, (route.stops.map (·.id)).Nodup
  sorted : ∀ route ∈ plan.routes, route.stops.Pairwise fun a b ↦ a.sequenceNo < b.sequenceNo
  planned : ∀ route ∈ plan.routes, ∀ stop ∈ route.stops, stop.status = .planned ∧
    stop.actualArrivalAt = none ∧ stop.actualDepartureAt = none

/-- A stop apart from its planned times. -/
def RouteStop.unscheduled (stop : RouteStop) : RouteStop :=
  { stop with
    plannedArrivalAt := 0
    plannedDepartureAt := 0 }

/-- The routes of a plan with their stops, apart from planned times. -/
def DeliveryPlan.work (plan : DeliveryPlan) : List (UUID × List RouteStop) :=
  plan.routes.map fun route ↦ (route.id, route.stops.map (·.unscheduled))

end PenroseRoute.Db

namespace PenroseRoute.Recovery

open PenroseRoute.Db PenroseRoute.Lib PenroseRoute.Operations PenroseRoute.Optimization

/-! ### Executed plans -/

/-- A plan starts in order. -/
theorem executed_of_untouched {plan : DeliveryPlan} (h : plan.Untouched) (db : Database) :
    plan.Executed db := by
  refine ⟨h.routeIds, fun route hr ↦ ⟨h.stopIds route hr, h.sorted route hr, .waiting ?_⟩, ?_⟩
  · exact fun stop hs ↦ stage_eq_waiting.mpr (h.planned route hr stop hs)
  · intro route hr stop hs _ hdone
    rw [(h.planned route hr stop hs).1] at hdone
    cases hdone

/-- A route whose stops differ in their planned times only is executed as well. -/
theorem executed_of_unscheduled {route route' : VehicleRoute} (h : route.Executed)
    (he : route'.stops.map (·.unscheduled) = route.stops.map (·.unscheduled)) :
    route'.Executed := by
  have hmap : ∀ {α : Type} (f : RouteStop → α), (∀ stop, f stop.unscheduled = f stop) →
      route'.stops.map f = route.stops.map f := by
    intro α f hf
    have hcomp := congrArg (List.map f) he
    rw [List.map_map, List.map_map] at hcomp
    have hsame : f ∘ (·.unscheduled) = f := funext hf
    rwa [hsame] at hcomp
  refine ⟨?_, ?_, ?_⟩
  · rw [hmap (·.id) fun _ ↦ rfl]
    exact h.stopIds
  · have hpairs : (route.stops.map (·.sequenceNo)).Pairwise (· < ·) :=
      List.pairwise_map.mpr h.sorted
    rw [← hmap (·.sequenceNo) fun _ ↦ rfl] at hpairs
    exact List.pairwise_map.mp hpairs
  · exact h.inOrder.congr (hmap RouteStop.stage fun _ ↦ rfl)

/-- A plan with the same work is executed as well, once orders have moved forwards only. -/
theorem executed_of_work {db db' : Database} {plan plan' : DeliveryPlan} (h : plan.Executed db)
    (he : plan'.work = plan.work) (hf : OrdersForward db db') : plan'.Executed db' := by
  have hids : plan'.routes.map (·.id) = plan.routes.map (·.id) := by
    have hfst := congrArg (List.map Prod.fst) he
    rwa [DeliveryPlan.work, DeliveryPlan.work, List.map_map, List.map_map] at hfst
  have hroute : ∀ route' ∈ plan'.routes, ∃ route ∈ plan.routes,
      route'.stops.map (·.unscheduled) = route.stops.map (·.unscheduled) := by
    intro route' hr
    have hmem : (route'.id, route'.stops.map (·.unscheduled)) ∈ plan'.work :=
      List.mem_map_of_mem (f := fun route : VehicleRoute ↦
        (route.id, route.stops.map (·.unscheduled))) hr
    rw [he] at hmem
    obtain ⟨route, hroute, hpair⟩ := List.mem_map.mp hmem
    rw [Prod.mk.injEq] at hpair
    exact ⟨route, hroute, hpair.2.symm⟩
  refine ⟨by rw [hids]; exact h.routeIds, fun route' hr ↦ ?_, fun route' hr stop' hs hd hdone ↦ ?_⟩
  · obtain ⟨route, hroute, hstops⟩ := hroute route' hr
    exact executed_of_unscheduled (h.routes route hroute) hstops
  · obtain ⟨route, hroute, hstops⟩ := hroute route' hr
    have hmem := List.mem_map_of_mem (f := (·.unscheduled)) hs
    rw [hstops] at hmem
    obtain ⟨stop, hstop, hsame⟩ := List.mem_map.mp hmem
    have hfield : ∀ {α : Type} (f : RouteStop → α), (∀ other, f other.unscheduled = f other) →
        f stop = f stop' := by
      intro α f hf
      rw [← hf stop, ← hf stop', hsame]
    have horder := hfield (·.orderId) fun _ ↦ rfl
    rw [← horder]
    refine hf.delivered (h.delivered route hroute stop hstop ?_ ?_)
    · exact (hfield (·.stopType) fun _ ↦ rfl).trans hd
    · exact (hfield (·.status) fun _ ↦ rfl).trans hdone

/-! ### Candidates -/

/-- A pass over a base route is one over a route of the context. -/
theorem base_of_task {context : RecoveryContext} {result : SolverResult} {base : VehicleRoute}
    {solver : Option SolverRoute} (h : RouteTask.base base solver ∈ routeTasks context result) :
    base ∈ context.routes := by
  rw [routeTasks, List.mem_append, List.mem_filterMap, List.mem_map] at h
  rcases h with ⟨route, hr, htask⟩ | ⟨entry, -, htask⟩
  · dsimp only at htask
    split at htask
    · cases htask
    · cases htask
      exact hr
  · cases htask

/-- What a pass keeps are the kept stops of a base route, or nothing. -/
theorem kept_of_task {context : RecoveryContext} {result : SolverResult} {task : RouteTask}
    (ht : task ∈ routeTasks context result) :
    task.kept context = [] ∨ ∃ base ∈ context.routes,
      task.kept context = preservedStops context base := by
  rw [routeTasks, List.mem_append, List.mem_filterMap, List.mem_map] at ht
  rcases ht with ⟨base, hbase, htask⟩ | ⟨entry, -, rfl⟩
  · dsimp only at htask
    split at htask
    · cases htask
    · cases htask
      exact .inr ⟨base, hbase, rfl⟩
  · exact .inl rfl

/-- In a route whose stops are in sequence the snapshot changes nothing. -/
theorem routeSnapshot_of_executed {route : VehicleRoute} (h : route.Executed) :
    routeSnapshot route = route := by
  have hle : route.stops.Pairwise fun a b ↦ a.sequenceNo ≤ b.sequenceNo :=
    h.sorted.imp fun hlt ↦ Nat.le_of_lt hlt
  rw [routeSnapshot, hle.insertionSort_eq]

/-- The kept stops of an executed route are in order. -/
theorem inOrder_preservedStops {context : RecoveryContext} {route : VehicleRoute}
    (h : route.Executed) : InOrder RouteStop.stage none (preservedStops context route) := by
  rw [preservedStops]
  split
  · exact h.inOrder.filter _
  · exact h.inOrder

/-- A new stop waits. -/
theorem stage_of_solvedAs {context : RecoveryContext} {solverStop : SolverStop} {stop : RouteStop}
    (h : SolvedAs context solverStop stop) : stop.stage = some .waiting := by
  obtain ⟨order, -, he⟩ := h
  rw [he]
  rfl

/-- A candidate of an executed plan is executed, once orders have moved forwards only. -/
theorem Created.executed {db db₀ db' : Database} {incident : Incident} {base plan : DeliveryPlan}
    {scope : ReplanningScope} {operationalTime : Instant} {context : RecoveryContext}
    {result : SolverResult} (h : Created db₀ context result plan)
    (hr : ReadFrom db incident base scope operationalTime context) (hb : base.Executed db)
    (hf : OrdersForward db db') : plan.Executed db' := by
  have hbase : ∀ route ∈ context.routes, route ∈ base.routes ∧ route.Executed := by
    intro route hroute
    obtain ⟨own, hown, rfl⟩ := (hr.mem_routes route).mp hroute
    rw [routeSnapshot_of_executed (hb.routes own hown)]
    exact ⟨hown, hb.routes own hown⟩
  refine ⟨h.routeIds_nodup, fun route hroute ↦ ?_, fun route hroute stop hs hd hdone ↦ ?_⟩
  · obtain ⟨task, ht, hbuilt⟩ := exists_of_forall₂_right h.routes hroute
    refine ⟨?_, ?_, ?_⟩
    · rw [hbuilt.stopIds]
      exact List.nodup_range'
    · have hpairs : (route.stops.map (·.sequenceNo)).Pairwise (· < ·) := by
        rw [hbuilt.stops.sequence]
        exact List.pairwise_lt_range'
      exact List.pairwise_map.mp hpairs
    · obtain ⟨hkept, hnew⟩ := hbuilt.kept_new
      rw [← route.keptStops_append_newStops]
      refine InOrder.append ?_ fun stop hs ↦ ?_
      · have hcopies := map_copyOf RouteStop.stage (fun _ _ _ _ ↦ rfl) hkept
        rcases kept_of_task ht with hnil | ⟨own, hown, he⟩
        · rw [hnil, List.map_nil, List.map_eq_nil_iff] at hcopies
          rw [hcopies]
          exact .waiting fun stop hs ↦ (by cases hs)
        · rw [he] at hcopies
          exact (inOrder_preservedStops (hbase own hown).2).congr hcopies
      · obtain ⟨solverStop, -, hsolved⟩ := exists_of_forall₂_right hnew hs
        exact stage_of_solvedAs hsolved
  · obtain ⟨task, ht, hbuilt⟩ := exists_of_forall₂_right h.routes hroute
    rw [← route.keptStops_append_newStops, List.mem_append] at hs
    rcases hs with hs | hs
    · obtain ⟨snapshot, hsnapshot, hcopy⟩ := exists_of_forall₂_right hbuilt.kept_new.1 hs
      rcases kept_of_task ht with hnil | ⟨own, hown, he⟩
      · rw [hnil] at hsnapshot
        cases hsnapshot
      · rw [he] at hsnapshot
        have hmem := (mem_preservedStops.mp hsnapshot).1
        have htype : stop.stopType = snapshot.stopType := hcopy.field (·.stopType) fun _ _ _ _ ↦ rfl
        have hstatus : stop.status = snapshot.status := hcopy.field (·.status) fun _ _ _ _ ↦ rfl
        have horder : stop.orderId = snapshot.orderId := hcopy.field (·.orderId) fun _ _ _ _ ↦ rfl
        rw [horder]
        exact hf.delivered (hb.delivered own (hbase own hown).1 snapshot hmem
          (htype.symm.trans hd) (hstatus.symm.trans hdone))
    · obtain ⟨solverStop, -, hsolved⟩ := exists_of_forall₂_right hbuilt.kept_new.2 hs
      have hplanned := (stage_eq_waiting.mp (stage_of_solvedAs hsolved)).1
      rw [hplanned] at hdone
      cases hdone

end PenroseRoute.Recovery
