import PenroseRoute.Operations.Progress
import PenroseRoute.Recovery.CandidateTimes

/-!
# Work in progress

A stop that has been reached and not left is kept by a candidate unless its route is rebuilt
and its order planned again: the planner then takes the stop back and plans it afresh.
-/

namespace PenroseRoute.Recovery

open PenroseRoute.Db PenroseRoute.Lib PenroseRoute.Optimization

/-- The plan has the stop on the route of the vehicle, with what execution has recorded. -/
def KeptOn (plan : DeliveryPlan) (vehicleId : UUID) (stop : RouteStop) : Prop :=
  ∃ route ∈ plan.routes, route.vehicleId = vehicleId ∧ ∃ kept ∈ route.stops,
    kept.orderId = stop.orderId ∧ kept.stopType = stop.stopType ∧
      kept.sourceIncidentId = stop.sourceIncidentId ∧ kept.status = stop.status ∧
      kept.actualArrivalAt = stop.actualArrivalAt

/-- The route is rebuilt and the order of the stop is planned again. -/
def TakenBack (context : RecoveryContext) (route : VehicleRoute) (stop : RouteStop) : Prop :=
  route.id ∈ context.rebuiltRouteIds ∧ stop.orderId ∈ context.targetOrderIds

/-! ### One stop -/

/-- A stop is kept unless it is taken back before it is COMPLETED. -/
theorem mem_preservedStops {context : RecoveryContext} {route : VehicleRoute}
    {stop : RouteStop} : stop ∈ preservedStops context route ↔
      stop ∈ route.stops ∧ (TakenBack context route stop → stop.status = .completed) := by
  rw [preservedStops]
  split
  · next h =>
    have hrebuilt : route.id ∈ context.rebuiltRouteIds := List.contains_iff_mem.mp h
    rw [List.mem_filter, Bool.or_eq_true, Bool.not_eq_true', beq_iff_eq]
    by_cases ht : stop.orderId ∈ context.targetOrderIds
    · simp [TakenBack, hrebuilt, ht]
    · simp [TakenBack, ht]
  · next h =>
    have hrebuilt : route.id ∉ context.rebuiltRouteIds := fun hm ↦
      h (List.contains_iff_mem.mpr hm)
    simp [TakenBack, hrebuilt]

/-- A snapshot has the stops of its route. -/
theorem mem_routeSnapshot_stops {route : VehicleRoute} {stop : RouteStop} :
    stop ∈ (routeSnapshot route).stops ↔ stop ∈ route.stops :=
  List.mem_insertionSort _

/-- A base route with a kept stop is the start of a pass. -/
theorem exists_task_of_preserved {context : RecoveryContext} {result : SolverResult}
    (hv : (result.routes.map (·.vehicleId)).Nodup) {base : VehicleRoute}
    (hbase : base ∈ context.routes) {stop : RouteStop}
    (hs : stop ∈ preservedStops context base) :
    ∃ solver, RouteTask.base base solver ∈ routeTasks context result := by
  refine ⟨popped result base, (mem_routeTasks hv _).mpr (.inl ⟨base, hbase, ?_⟩)⟩
  rw [baseTask, if_neg]
  intro h
  rw [h.1] at hs
  cases hs

namespace Created

variable {db : Database} {context : RecoveryContext} {result : SolverResult}
  {plan : DeliveryPlan} {base : VehicleRoute}

/-- A kept stop has its copy on the route of its vehicle. -/
theorem copy_of_preserved (h : Created db context result plan)
    (hv : (result.routes.map (·.vehicleId)).Nodup) (hbase : base ∈ context.routes)
    {stop : RouteStop} (hs : stop ∈ preservedStops context base) :
    ∃ route ∈ plan.routes, route.vehicleId = base.vehicleId ∧
      ∃ kept ∈ route.keptStops, CopyOf stop kept := by
  obtain ⟨solver, ht⟩ := exists_task_of_preserved hv hbase hs
  obtain ⟨route, hr, hb⟩ := exists_of_forall₂_left h.routes ht
  obtain ⟨kept, hm, hcopy⟩ := exists_of_forall₂_left hb.kept_new.1 hs
  exact ⟨route, hr, hb.vehicleId, kept, hm, hcopy⟩

/-- The stops on the route of a vehicle with a base route are copies of what that keeps, and
new ones. -/
theorem stop_on_base (h : Created db context result plan)
    (hv : (result.routes.map (·.vehicleId)).Nodup)
    (hveh : (context.routes.map (·.vehicleId)).Nodup) (hbase : base ∈ context.routes)
    {route : VehicleRoute} (hr : route ∈ plan.routes) (hid : route.vehicleId = base.vehicleId)
    {stop : RouteStop} (hs : stop ∈ route.stops) :
    (∃ snapshot ∈ preservedStops context base, CopyOf snapshot stop) ∨
      ∃ solverStop, SolvedAs context solverStop stop := by
  obtain ⟨task, ht, hb⟩ := exists_of_forall₂_right h.routes hr
  rw [← VehicleRoute.keptStops_append_newStops, List.mem_append] at hs
  rcases hs with hs | hs
  · obtain ⟨snapshot, hm, hcopy⟩ := exists_of_forall₂_right hb.kept_new.1 hs
    rcases (mem_routeTasks hv task).mp ht with ⟨own, hown, htask⟩ | ⟨solver, -, rfl⟩
    · rw [baseTask] at htask
      split at htask
      · cases htask
      · cases htask
        have he : own = base :=
          (List.inj_on_of_nodup_map hveh) hown hbase (hb.vehicleId.symm.trans hid)
        subst he
        exact .inl ⟨snapshot, hm, hcopy⟩
    · cases hm
  · obtain ⟨solverStop, -, hsolved⟩ := exists_of_forall₂_right hb.kept_new.2 hs
    exact .inr ⟨solverStop, hsolved⟩

/-- A stop in progress is on the route of its vehicle exactly when it is not taken back. -/
theorem keptOn_iff (h : Created db context result plan)
    (hv : (result.routes.map (·.vehicleId)).Nodup)
    (hveh : (context.routes.map (·.vehicleId)).Nodup) (hbase : base ∈ context.routes)
    {stop : RouteStop} (hs : stop ∈ base.stops) (hp : stop.InProgress) :
    KeptOn plan base.vehicleId stop ↔ ¬ TakenBack context base stop := by
  have hopen : stop.status ≠ .completed := by
    intro hc
    rcases hp with hp | hp
    · exact absurd (hp.symm.trans hc) (by decide)
    · exact absurd (hp.symm.trans hc) (by decide)
  constructor
  · rintro ⟨route, hr, hid, kept, hk, ho, -, -, hstatus, -⟩ ⟨hrebuilt, htarget⟩
    rcases h.stop_on_base hv hveh hbase hr hid hk with ⟨snapshot, hm, hcopy⟩ | ⟨solverStop, hnew⟩
    · have horder : snapshot.orderId = stop.orderId :=
        (hcopy.field (·.orderId) fun _ _ _ _ ↦ rfl).symm.trans ho
      have hdone := (mem_preservedStops.mp hm).2 ⟨hrebuilt, by rw [horder]; exact htarget⟩
      have hsame : kept.status = snapshot.status := hcopy.field (·.status) fun _ _ _ _ ↦ rfl
      exact hopen (hstatus.symm.trans (hsame.trans hdone))
    · obtain ⟨order, -, he⟩ := hnew
      have hplanned : kept.status = .planned := by
        rw [he]
        rfl
      rw [hplanned] at hstatus
      rcases hp with hp | hp
      · exact absurd (hstatus.trans hp) (by decide)
      · exact absurd (hstatus.trans hp) (by decide)
  · intro hfree
    have hm : stop ∈ preservedStops context base :=
      mem_preservedStops.mpr ⟨hs, fun ht ↦ absurd ht hfree⟩
    obtain ⟨route, hr, hid, kept, hk, hcopy⟩ := h.copy_of_preserved hv hbase hm
    refine ⟨route, hr, hid, kept, List.mem_of_mem_take hk, ?_⟩
    rw [hcopy]
    exact ⟨rfl, rfl, rfl, rfl, rfl⟩

end Created

/-- For a context read from the database and a result without any issue: the candidate keeps
every stop in progress of the vehicles that have not broken down exactly when none of these
stops is taken back. -/
theorem createCandidate_keptOn_iff {db db₁ db₂ : Database} {incidentId : UUID}
    {scope : ReplanningScope} {operationalTime : Instant} {context : RecoveryContext}
    {incident : Incident} {base : DeliveryPlan} {input : SolverInput} {result : SolverResult}
    {roads : RoadRoutes} {candidate : DeliveryPlan}
    (hread : materializeRecoveryContext db incidentId scope operationalTime = .ok context)
    (hincident : db.incident? incidentId = some incident)
    (hbase : db.plan? context.basePlanId = some base)
    (hveh : (base.routes.map (·.vehicleId)).Nodup)
    (hvalid : SolverResultValidator.validate input result = [])
    (hcreated : createCandidate db₁ context result roads = .ok (db₂, candidate)) :
    (∀ route ∈ base.routes, some route.vehicleId ≠ incident.vehicleId → ∀ stop ∈ route.stops,
      stop.InProgress → KeptOn candidate route.vehicleId stop) ↔
    ∀ route ∈ base.routes, some route.vehicleId ≠ incident.vehicleId → ∀ stop ∈ route.stops,
      stop.InProgress → ¬ TakenBack context route stop := by
  obtain ⟨incident', plan, hi, hp, hr⟩ := materializeRecoveryContext_ok hread
  rw [hincident, Option.some.injEq] at hi
  subst hi
  have hplan : plan = base := by
    have he : plan.id = incident.deliveryPlanId := by simpa using List.find?_some hp
    rw [hr.basePlanId, he, hp, Option.some.injEq] at hbase
    exact hbase
  subst hplan
  have hv := (routesDriven_of_validate hvalid).vehicles
  have hveh' : (context.routes.map (·.vehicleId)).Nodup :=
    (hr.routes_map (·.vehicleId) fun _ ↦ rfl).nodup_iff.mpr hveh
  have hone : ∀ route ∈ plan.routes, ∀ stop ∈ route.stops, stop.InProgress →
      (KeptOn candidate route.vehicleId stop ↔ ¬ TakenBack context route stop) := by
    intro route hroute stop hs hprogress
    have hsnapshot : routeSnapshot route ∈ context.routes :=
      (hr.mem_routes _).mpr ⟨route, hroute, rfl⟩
    exact (createCandidate_ok hcreated).1.keptOn_iff hv hveh' hsnapshot
      (mem_routeSnapshot_stops.mpr hs) hprogress
  constructor
  · intro h route hroute hn stop hs hprogress
    exact (hone route hroute stop hs hprogress).mp (h route hroute hn stop hs hprogress)
  · intro h route hroute hn stop hs hprogress
    exact (hone route hroute stop hs hprogress).mpr (h route hroute hn stop hs hprogress)

/-! ### A driver who waits for late goods -/

/-- The vehicle has reached its first stop, for the given order. -/
def reachedDatabase (vehicleId orderId : UUID) : Database :=
  { (delayDatabase.updateOrder orderId fun order ↦
      { order with executionStatus := .pickupInProgress }).updateVehicle vehicleId fun vehicle ↦
      { vehicle with status := .active } with
    plans := delayDatabase.plans.map fun plan ↦ { plan with
      routes := plan.routes.map fun route ↦
        if route.vehicleId = vehicleId then { route with
          status := .active
          actualStartAt := some 100000000
          stops := route.stops.modifyHead fun stop ↦ { stop with
            status := .arrived
            actualArrivalAt := some 100000000 } }
        else route } }

/-- Merchant 7 reports a delay while the vehicle waits. -/
def arrivedDatabase (vehicleId orderId : UUID) : Database :=
  match Incidents.MerchantDelayWorkflow.assessDelay 600 (reachedDatabase vehicleId orderId) 738000
    7 900000000 110000000 true with
  | .ok (db, _) => db
  | .error _ => reachedDatabase vehicleId orderId

/-- The incident of that delay. -/
def arrivedIncident : Incident := ((arrivedDatabase 20 31).incident? 100).get rfl

/-- The base plan of that delay. -/
def arrivedBase : DeliveryPlan := ((arrivedDatabase 20 31).plan? 40).get rfl

/-- The context when vehicle 20 waits for the late order. -/
def arrivedContext : RecoveryContext :=
  (materializeRecoveryContext (arrivedDatabase 20 31) 100 .affectedRoute
    120000000).toOption.get rfl

/-- The solver input of that context. -/
def arrivedInput : SolverInput :=
  (buildRecoverySolverInput arrivedContext
    (uniformMatrix arrivedContext.locations)).toOption.get rfl

/-- The database and the candidate that `_create_candidate` makes of it. -/
def arrivedCandidate : Database × DeliveryPlan :=
  (createCandidate (arrivedDatabase 20 31) arrivedContext (delayResult 31 20 2)
    none).toOption.get rfl

/-- The ARRIVED pickup of the late order is dropped and planned again as a PLANNED one. -/
theorem arrived_pickup_taken_back :
    (arrivedDatabase 20 31).incident? 100 = some arrivedIncident ∧
      materializeRecoveryContext (arrivedDatabase 20 31) 100 .affectedRoute 120000000 =
        .ok arrivedContext ∧
      (arrivedDatabase 20 31).plan? arrivedContext.basePlanId = some arrivedBase ∧
      buildRecoverySolverInput arrivedContext (uniformMatrix arrivedContext.locations) =
        .ok arrivedInput ∧
      Accepted arrivedInput (delayResult 31 20 2) ∧ (delayResult 31 20 2).NoEmptyRoute ∧
      createCandidate (arrivedDatabase 20 31) arrivedContext (delayResult 31 20 2) none =
        .ok arrivedCandidate ∧
      ∃ route ∈ arrivedBase.routes, some route.vehicleId ≠ arrivedIncident.vehicleId ∧
        ∃ stop ∈ route.stops, stop.InProgress ∧
          ¬ KeptOn arrivedCandidate.2 route.vehicleId stop ∧
          ∃ planned ∈ arrivedCandidate.2.routes.flatMap (·.newStops),
            planned.orderId = stop.orderId ∧ planned.stopType = stop.stopType ∧
              planned.status = .planned := by
  refine ⟨rfl, rfl, rfl, rfl, ⟨rfl, rfl, by decide +kernel⟩, ?_, rfl, ?_⟩
  · intro route hr
    rw [List.mem_singleton.mp hr]
    decide
  · simp only [RouteStop.InProgress, KeptOn]
    decide +kernel

/-- The context when it is vehicle 10 that waits, for an order of another merchant. -/
def otherArrivedContext : RecoveryContext :=
  (materializeRecoveryContext (arrivedDatabase 10 32) 100 .affectedRoute
    120000000).toOption.get rfl

/-- The solver input of that context. -/
def otherArrivedInput : SolverInput :=
  (buildRecoverySolverInput otherArrivedContext
    (uniformMatrix otherArrivedContext.locations)).toOption.get rfl

/-- The database and the candidate that `_create_candidate` makes of it. -/
def otherArrivedCandidate : Database × DeliveryPlan :=
  (createCandidate (arrivedDatabase 10 32) otherArrivedContext (delayResult 31 20 2)
    none).toOption.get rfl

/-- The ARRIVED pickup of the other order stays where it is. -/
theorem arrived_pickup_kept :
    (∀ route ∈ ((arrivedDatabase 10 32).plan? 40 |>.get rfl).routes,
      some route.vehicleId ≠ ((arrivedDatabase 10 32).incident? 100 |>.get rfl).vehicleId →
        ∀ stop ∈ route.stops, stop.InProgress →
          KeptOn otherArrivedCandidate.2 route.vehicleId stop) ∧
    otherArrivedCandidate.2.routes.map (fun route ↦ route.stops.map (·.status)) =
      [[.arrived, .planned], [.planned, .planned]] := by
  have hread : materializeRecoveryContext (arrivedDatabase 10 32) 100 .affectedRoute 120000000 =
      .ok otherArrivedContext := rfl
  have hvalid : SolverResultValidator.validate otherArrivedInput (delayResult 31 20 2) = [] := by
    decide +kernel
  have hcreated : createCandidate (arrivedDatabase 10 32) otherArrivedContext
      (delayResult 31 20 2) none = .ok (otherArrivedCandidate.1, otherArrivedCandidate.2) := rfl
  refine ⟨(createCandidate_keptOn_iff hread rfl rfl (by decide +kernel) hvalid hcreated).mpr ?_,
    by decide +kernel⟩
  simp only [RouteStop.InProgress, TakenBack]
  decide +kernel

end PenroseRoute.Recovery
