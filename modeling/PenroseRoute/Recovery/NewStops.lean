import PenroseRoute.Recovery.CandidateFeasible

/-!
# The new stops of a candidate

Behind the stops that it keeps, a candidate route has exactly the stops of the solver route of
its vehicle, so what holds of every solver stop holds of every new stop and the other way
round.
-/

namespace PenroseRoute.Db

/-- The stops of a candidate route that were planned by its recovery. -/
def VehicleRoute.newStops (route : VehicleRoute) : List RouteStop :=
  route.stops.drop route.preservedStopCount

/-- The stops of a candidate route that were kept by its recovery. -/
def VehicleRoute.keptStops (route : VehicleRoute) : List RouteStop :=
  route.stops.take route.preservedStopCount

/-- Kept stops come first and new ones behind them. -/
theorem VehicleRoute.keptStops_append_newStops (route : VehicleRoute) :
    route.keptStops ++ route.newStops = route.stops :=
  List.take_append_drop _ _

end PenroseRoute.Db

namespace PenroseRoute.Recovery

open PenroseRoute.Db PenroseRoute.Lib PenroseRoute.Optimization

variable {context : RecoveryContext} {result : SolverResult} {task : RouteTask}
  {route : VehicleRoute}

/-! ### One route -/

/-- The kept stops of a route copy those of its pass, and its new stops are the solver's. -/
theorem BuiltFrom.kept_new (h : BuiltFrom context task route) :
    List.Forall₂ CopyOf (task.kept context) route.keptStops ∧
      List.Forall₂ (SolvedAs context) task.solved route.newStops := by
  obtain ⟨copies, solved, he, hc, hs⟩ := h.stops.parts
  have hcount : route.preservedStopCount = copies.length := by
    rw [VehicleRoute.preservedStopCount, h.preservedCount, hc.length_eq]
    rfl
  rw [VehicleRoute.keptStops, VehicleRoute.newStops, hcount, he, List.take_left, List.drop_left]
  exact ⟨hc, hs⟩

/-- A new stop is made for the order of its solver stop, which is a target. -/
theorem SolvedAs.targetOrder? {solverStop : SolverStop} {stop : RouteStop}
    (h : SolvedAs context solverStop stop) : ∃ order,
      context.targetOrder? stop.orderId = some order ∧
        stop = newStop context order solverStop stop.id stop.sequenceNo stop.precedenceStopId := by
  obtain ⟨order, ho, he⟩ := h
  refine ⟨order, ?_, he⟩
  rw [he]
  exact ho

/-! ### The solver route of a vehicle -/

/-- A pass without solver stops, or with those of the solver route of its vehicle. -/
theorem solved_eq (hv : (result.routes.map (·.vehicleId)).Nodup)
    (ht : task ∈ routeTasks context result) : task.solved = [] ∨
      ∃ solver ∈ result.routes, solver.vehicleId = task.vehicleId ∧
        task.solved = solver.stops := by
  rcases (mem_routeTasks hv task).mp ht with ⟨base, -, hbase⟩ | ⟨solver, hmem, rfl⟩
  · rw [baseTask] at hbase
    split at hbase
    · cases hbase
    · cases hbase
      cases hp : popped result base with
      | none => exact .inl rfl
      | some solver =>
        obtain ⟨hr, hid⟩ := (lastWrite_solverRouteWrites hv _ _).mp hp
        exact .inr ⟨solver, hr, hid, rfl⟩
  · exact .inr ⟨solver, (List.mem_filter.mp hmem).1, rfl, rfl⟩

/-- The solver stops of a pass are those of a route of the result. -/
theorem solved_mem (hv : (result.routes.map (·.vehicleId)).Nodup)
    (ht : task ∈ routeTasks context result) {solverStop : SolverStop}
    (hs : solverStop ∈ task.solved) : ∃ solver ∈ result.routes,
      solver.vehicleId = task.vehicleId ∧ solverStop ∈ solver.stops := by
  rcases solved_eq hv ht with hnil | ⟨solver, hmem, hid, he⟩
  · rw [hnil] at hs
    cases hs
  · exact ⟨solver, hmem, hid, he ▸ hs⟩

/-- Every route of the result is the solver route of a pass. -/
theorem exists_task_of_solver (hv : (result.routes.map (·.vehicleId)).Nodup)
    {solver : SolverRoute} (hs : solver ∈ result.routes) :
    ∃ task ∈ routeTasks context result, task.vehicleId = solver.vehicleId ∧
      task.solved = solver.stops := by
  by_cases hb : solver.vehicleId ∈ context.routes.map (·.vehicleId)
  · obtain ⟨base, hbase, hid⟩ := List.mem_map.mp hb
    have hp : popped result base = some solver :=
      (lastWrite_solverRouteWrites hv _ _).mpr ⟨hs, hid.symm⟩
    refine ⟨.base base (some solver), (mem_routeTasks hv _).mpr (.inl ⟨base, hbase, ?_⟩), hid, rfl⟩
    rw [baseTask, hp, if_neg]
    exact fun h ↦ (by cases h.2)
  · refine ⟨.extra solver, (mem_routeTasks hv _).mpr (.inr ⟨solver, ?_, rfl⟩), rfl, rfl⟩
    rw [leftOver, List.mem_filter]
    refine ⟨hs, ?_⟩
    rw [Bool.not_eq_true', Bool.eq_false_iff]
    exact fun hc ↦ hb (List.contains_iff_mem.mp hc)

namespace Created

variable {db : Database} {plan : DeliveryPlan}

/-- A new stop is made from a stop of the solver route of its vehicle. -/
theorem solver_of_newStop (h : Created db context result plan)
    (hv : (result.routes.map (·.vehicleId)).Nodup) (hr : route ∈ plan.routes) {stop : RouteStop}
    (hs : stop ∈ route.newStops) : ∃ solver ∈ result.routes,
      solver.vehicleId = route.vehicleId ∧ ∃ solverStop ∈ solver.stops,
        SolvedAs context solverStop stop := by
  obtain ⟨task, ht, hb⟩ := exists_of_forall₂_right h.routes hr
  obtain ⟨solverStop, hm, hsolved⟩ := exists_of_forall₂_right hb.kept_new.2 hs
  obtain ⟨solver, hmem, hid, hstop⟩ := solved_mem hv ht hm
  exact ⟨solver, hmem, hid.trans hb.vehicleId.symm, solverStop, hstop, hsolved⟩

/-- The candidate has a route for every route of the result, with its stops as new stops. -/
theorem route_of_solver (h : Created db context result plan)
    (hv : (result.routes.map (·.vehicleId)).Nodup) {solver : SolverRoute}
    (hs : solver ∈ result.routes) : ∃ route ∈ plan.routes,
      route.vehicleId = solver.vehicleId ∧
        List.Forall₂ (SolvedAs context) solver.stops route.newStops := by
  obtain ⟨task, ht, hid, hsolved⟩ := @exists_task_of_solver context result hv solver hs
  obtain ⟨route, hr, hb⟩ := exists_of_forall₂_left h.routes ht
  refine ⟨route, hr, hb.vehicleId.trans hid, ?_⟩
  rw [← hsolved]
  exact hb.kept_new.2

/-- What new stops have in common is what the solver's stops have in common. -/
theorem forall_newStops_iff (h : Created db context result plan)
    (hv : (result.routes.map (·.vehicleId)).Nodup)
    {P : RecoveryOrderFact → RouteStop → Prop} {Q : RecoveryOrderFact → SolverStop → Prop}
    (hPQ : ∀ solver ∈ result.routes, ∀ solverStop ∈ solver.stops, ∀ order,
      context.targetOrder? solverStop.orderId = some order → ∀ id sequence precedence,
        P order (newStop context order solverStop id sequence precedence) ↔
          Q order solverStop) :
    (∀ route ∈ plan.routes, ∀ stop ∈ route.newStops, ∀ order,
      context.targetOrder? stop.orderId = some order → P order stop) ↔
    ∀ solver ∈ result.routes, ∀ solverStop ∈ solver.stops, ∀ order,
      context.targetOrder? solverStop.orderId = some order → Q order solverStop := by
  constructor
  · intro hall solver hs solverStop hstop order ho
    obtain ⟨route, hr, -, hnew⟩ := h.route_of_solver hv hs
    obtain ⟨stop, hm, order', ho', he⟩ := exists_of_forall₂_left hnew hstop
    rw [ho, Option.some.injEq] at ho'
    subst ho'
    have hp := hall route hr stop hm order (by rw [he]; exact ho)
    rw [he] at hp
    exact (hPQ solver hs solverStop hstop order ho _ _ _).mp hp
  · intro hall route hr stop hstop order ho
    obtain ⟨solver, hs, -, solverStop, hm, hsolved⟩ := h.solver_of_newStop hv hr hstop
    obtain ⟨order', ho', he⟩ := hsolved.targetOrder?
    rw [ho, Option.some.injEq] at ho'
    subst ho'
    have hid : stop.orderId = solverStop.orderId := congrArg RouteStop.orderId he
    rw [hid] at ho
    rw [he]
    exact (hPQ solver hs solverStop hm order ho _ _ _).mpr (hall solver hs solverStop hm order ho)

end Created

end PenroseRoute.Recovery
