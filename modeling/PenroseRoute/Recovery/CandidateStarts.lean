import PenroseRoute.Operations.Execution
import PenroseRoute.Recovery.CandidateTimes

/-!
# When a candidate route can be started

A candidate route takes its status, its driver and its assignment from the base route of its
vehicle when there is one, and from the context's vehicle otherwise. This module says when a
route with new stops passes the guards of `_activate_route`.
-/

namespace PenroseRoute.Recovery

open PenroseRoute.Db PenroseRoute.Lib PenroseRoute.Optimization
open PenroseRoute.Operations.StopExecutionService (activationGuards)

/-- The route is PLANNED or ACTIVE. -/
def Runnable (route : VehicleRoute) : Prop := route.status = .planned ∨ route.status = .active

/-- The vehicle, driver and assignment of a route are those of a vehicle of the context. -/
def StaffedFrom (context : RecoveryContext) (route : VehicleRoute) : Prop :=
  ∃ fact ∈ context.vehicles, fact.vehicleId = route.vehicleId ∧
    fact.driverId = route.driverId ∧ fact.assignmentId = route.assignmentId

/-- A route that can be started: PLANNED or ACTIVE, with the vehicle, the driver and the
assignment of one of the context's vehicles, and so let through by `_activate_route` as long
as their rows are as the context has read them. -/
structure Startable (db : Database) (context : RecoveryContext) (route : VehicleRoute) :
    Prop where
  runnable : Runnable route
  staffed : StaffedFrom context route
  activates : ∀ vehicle driver assignment, db.vehicle? route.vehicleId = some vehicle →
    db.driver? route.driverId = some driver → db.assignment? route.assignmentId = some assignment →
      (assignment.status = .planned ∨ assignment.status = .active) ∧
        raiseFirst (activationGuards route vehicle driver assignment) = .ok ()

/-! ### The vehicles of a context -/

/-- The guards refuse nothing else. -/
theorem activationGuards_ok {route : VehicleRoute} {vehicle : Vehicle} {driver : Driver}
    {assignment : VehicleDriverAssignment} (hr : Runnable route)
    (hv : vehicle.status ≠ .unavailable) (hd : driver.status ≠ .unavailable)
    (ha : assignment.status = .planned ∨ assignment.status = .active) :
    raiseFirst (activationGuards route vehicle driver assignment) = .ok () := by
  rw [activationGuards]
  simp only [raiseFirst_cons_eq_ok, beq_eq_false_iff_ne, Bool.or_eq_false_iff, raiseFirst_nil,
    and_true]
  refine ⟨?_, ?_, hv, hd, ?_, ?_⟩
  · rcases hr with h | h <;> rw [h] <;> decide
  · rcases hr with h | h <;> rw [h] <;> decide
  · rcases ha with h | h <;> rw [h] <;> decide
  · rcases ha with h | h <;> rw [h] <;> decide

/-- A vehicle of a context has an open assignment, and neither it nor its driver is
UNAVAILABLE. -/
theorem ReadFrom.vehicle_rows {db : Database} {incident : Incident} {plan : DeliveryPlan}
    {scope : ReplanningScope} {operationalTime : Instant} {context : RecoveryContext}
    (h : ReadFrom db incident plan scope operationalTime context) {fact : RecoveryVehicleFact}
    (hf : fact ∈ context.vehicles) : ∃ assignment ∈ db.assignments, ∃ vehicle driver,
      assignment.id = fact.assignmentId ∧
      (assignment.status = .planned ∨ assignment.status = .active) ∧
      db.vehicle? fact.vehicleId = some vehicle ∧ vehicle.status ≠ .unavailable ∧
      db.driver? fact.driverId = some driver ∧ driver.status ≠ .unavailable := by
  obtain ⟨planningEnd, hvehicles⟩ := h.vehicles
  rw [hvehicles, vehicleFacts, List.mem_map] at hf
  obtain ⟨⟨assignment, vehicle, driver⟩, hpair, rfl⟩ := hf
  obtain ⟨husable, -⟩ := List.mem_filter.mp hpair
  obtain ⟨hwindow, havailable⟩ := List.mem_filter.mp husable
  rw [vehicleDriverPairsForWindow, List.mem_insertionSort, List.mem_filterMap] at hwindow
  obtain ⟨row, hrow, hpair⟩ := hwindow
  simp only [Bool.and_eq_true, bne_iff_ne, ne_eq] at havailable
  split at hpair
  · next hopen =>
    split at hpair
    · next v d hv hd =>
      cases hpair
      exact ⟨assignment, hrow, vehicle, driver, rfl, hopen.1, hv, havailable.1.1, hd,
        havailable.1.2⟩
    · cases hpair
  · cases hpair

/-- A PLANNED or ACTIVE route that is staffed from the context can be started. -/
theorem ReadFrom.startable {db : Database} {incident : Incident} {plan : DeliveryPlan}
    {scope : ReplanningScope} {operationalTime : Instant} {context : RecoveryContext}
    (h : ReadFrom db incident plan scope operationalTime context)
    (hids : (db.assignments.map (·.id)).Nodup) {route : VehicleRoute} (hr : Runnable route)
    (hs : StaffedFrom context route) : Startable db context route := by
  refine ⟨hr, hs, ?_⟩
  obtain ⟨fact, hf, hvid, hdid, haid⟩ := hs
  obtain ⟨row, hrow, vehicle, driver, hid, hopen, hv, hvs, hd, hds⟩ := h.vehicle_rows hf
  intro vehicle' driver' assignment hv' hd' ha
  rw [← hvid, hv, Option.some.injEq] at hv'
  rw [← hdid, hd, Option.some.injEq] at hd'
  have hfound : db.assignment? route.assignmentId = some row :=
    (find?_key_eq_some_iff hids).mpr ⟨hrow, hid.trans haid⟩
  rw [hfound, Option.some.injEq] at ha
  subst hv' hd' ha
  exact ⟨hopen, activationGuards_ok hr hvs hds hopen⟩

/-! ### The routes of a candidate -/

/-- With stops of the solver a base route keeps its status, its driver and its assignment. -/
theorem BuiltFrom.inherits {context : RecoveryContext} {base route : VehicleRoute}
    {solver : SolverRoute} (h : BuiltFrom context (.base base (some solver)) route) :
    (Runnable route ↔ Runnable base) ∧ (StaffedFrom context route ↔ StaffedFrom context base) := by
  obtain ⟨road, endLocationId, he⟩ := h.row
  rw [he]
  exact ⟨Iff.rfl, Iff.rfl⟩

/-- A vehicle without a base route gets a PLANNED route with its own assignment. -/
theorem BuiltFrom.extra_startable {context : RecoveryContext} {route : VehicleRoute}
    {solver : SolverRoute} (h : BuiltFrom context (.extra solver) route) :
    Runnable route ∧ StaffedFrom context route := by
  obtain ⟨road, pair, last, hp, -, he⟩ := h.row
  rw [he]
  exact ⟨.inl rfl, pair, (vehicleFact?_vehicleId hp).1, rfl, rfl, rfl⟩

/-- For a context read from the database and a result without any issue: every candidate route
with new stops can be started exactly when the base routes of the vehicles that get stops are
PLANNED or ACTIVE and still staffed as the context is. -/
theorem createCandidate_startable_iff {db db₁ db₂ : Database} {incidentId : UUID}
    {scope : ReplanningScope} {operationalTime : Instant} {context : RecoveryContext}
    {input : SolverInput} {result : SolverResult} {roads : RoadRoutes} {candidate : DeliveryPlan}
    (hids : (db.assignments.map (·.id)).Nodup)
    (hread : materializeRecoveryContext db incidentId scope operationalTime = .ok context)
    (hvalid : SolverResultValidator.validate input result = []) (hne : result.NoEmptyRoute)
    (hcreated : createCandidate db₁ context result roads = .ok (db₂, candidate)) :
    (∀ route ∈ candidate.routes, route.newStops ≠ [] → Startable db context route) ↔
      ∀ solver ∈ result.routes, ∀ base ∈ context.routes, base.vehicleId = solver.vehicleId →
        Runnable base ∧ StaffedFrom context base := by
  obtain ⟨incident, plan, -, -, hr⟩ := materializeRecoveryContext_ok hread
  have hv := (routesDriven_of_validate hvalid).vehicles
  have hbuilt := (createCandidate_ok hcreated).1.routes
  constructor
  · intro h solver hs base hbase hid
    have hp : popped result base = some solver :=
      (lastWrite_solverRouteWrites hv _ _).mpr ⟨hs, hid.symm⟩
    have htask : RouteTask.base base (some solver) ∈ routeTasks context result := by
      refine (mem_routeTasks hv _).mpr (.inl ⟨base, hbase, ?_⟩)
      rw [baseTask, hp, if_neg]
      exact fun h ↦ (by cases h.2)
    obtain ⟨route, hroute, hb⟩ := exists_of_forall₂_left hbuilt htask
    have hnew : route.newStops ≠ [] := by
      intro hnil
      have hlength := hb.kept_new.2.length_eq
      rw [hnil, List.length_nil, List.length_eq_zero_iff] at hlength
      exact hne solver hs hlength
    have hstart := h route hroute hnew
    exact ⟨hb.inherits.1.mp hstart.runnable, hb.inherits.2.mp hstart.staffed⟩
  · intro h route hroute hnew
    obtain ⟨task, ht, hb⟩ := exists_of_forall₂_right hbuilt hroute
    rcases (mem_routeTasks hv task).mp ht with ⟨base, hbase, htask⟩ | ⟨solver, hs, rfl⟩
    · rw [baseTask] at htask
      split at htask
      · cases htask
      · cases htask
        cases hp : popped result base with
        | none =>
          rw [hp] at hb
          have hlength := hb.kept_new.2.length_eq
          exact absurd (List.length_eq_zero_iff.mp hlength.symm) hnew
        | some solver =>
          rw [hp] at hb
          obtain ⟨hs, hid⟩ := (lastWrite_solverRouteWrites hv _ _).mp hp
          obtain ⟨hrun, hstaff⟩ := h solver hs base hbase hid.symm
          exact hr.startable hids (hb.inherits.1.mpr hrun) (hb.inherits.2.mpr hstaff)
    · exact hr.startable hids hb.extra_startable.1 hb.extra_startable.2

/-! ### A route that an earlier recovery has finished -/

/-- Vehicle 10 has delivered order 32; an earlier recovery has taken its other work away and
marked its route COMPLETED, while its vehicle, driver and assignment are still ACTIVE. -/
def finishedBase : DeliveryPlan :=
  { handoverBase 1 2 with
    versionNo := 2
    routes := [
      scenarioRoute 41 1 10 3 .completed [scenarioStop 51 32 1 1 .pickup none true,
        scenarioStop 52 32 3 2 .delivery (some 51) true],
      scenarioRoute 42 2 20 2 .active [scenarioStop 53 31 1 1 .pickup none true,
        scenarioStop 54 31 2 2 .delivery (some 53) false]] }

/-- The database after vehicle 20 has broken down on that plan. -/
def finishedDatabase : Database :=
  { handoverDatabase 1 2 with
    orders := [scenarioOrder 31 2 .pickedUp, scenarioOrder 32 3 .completed]
    plans := [finishedBase] }

/-- Vehicle 10 takes order 31 over at the breakdown and delivers it. -/
def takeoverResult : SolverResult where
  status := .feasible
  routes := [{
    vehicleId := 10
    stops := [servedStop 31 4 .handover 0 60 60 1,
      servedStop 31 2 .delivery 1 180 60 (-1)]
    distanceMeters := 200
    durationSeconds := 240 }]
  unassignedOrders := []
  totalDistanceMeters := 200
  totalDurationSeconds := 240
  diagnostic := none

/-- The context of that breakdown. -/
def finishedContext : RecoveryContext :=
  (materializeRecoveryContext finishedDatabase 60 .crossRoute 300000000).toOption.get rfl

/-- The solver input of that context. -/
def finishedInput : SolverInput :=
  (buildRecoverySolverInput finishedContext (uniformMatrix finishedContext.locations)).toOption.get
    rfl

/-- The database and the candidate that `_create_candidate` makes of it. -/
def finishedCandidate : Database × DeliveryPlan :=
  (createCandidate finishedDatabase finishedContext takeoverResult none).toOption.get rfl

/-- The candidate route of vehicle 10 has new stops and stays COMPLETED, so `_activate_route`
refuses them although vehicle, driver and assignment are ACTIVE. -/
theorem finished_route_not_startable :
    materializeRecoveryContext finishedDatabase 60 .crossRoute 300000000 = .ok finishedContext ∧
      buildRecoverySolverInput finishedContext (uniformMatrix finishedContext.locations) =
        .ok finishedInput ∧
      Accepted finishedInput takeoverResult ∧ takeoverResult.NoEmptyRoute ∧
      createCandidate finishedDatabase finishedContext takeoverResult none =
        .ok finishedCandidate ∧
      ∃ route ∈ finishedCandidate.2.routes, route.newStops ≠ [] ∧ ¬ Runnable route ∧
        raiseFirst (activationGuards route ⟨10, "V10", 5, .active, 1, 0⟩ ⟨11, .active⟩
          ⟨12, 10, 11, .active, 0, none, some 100000000, none⟩) =
        .error (.conflict "INVALID_STOP_STATE_TRANSITION") := by
  refine ⟨rfl, rfl, ⟨rfl, rfl, by decide +kernel⟩, ?_, rfl, ?_⟩
  · intro route hr
    rw [List.mem_singleton.mp hr]
    decide
  · refine ⟨finishedCandidate.2.routes.head (by decide +kernel), List.head_mem _,
      by decide +kernel, ?_, rfl⟩
    rw [Runnable]
    decide +kernel

/-- The same takeover by a route that is still ACTIVE. -/
theorem takeover_startable :
    (∀ route ∈ laterCandidate.2.routes, route.newStops ≠ [] →
      Startable (handoverDatabase 2 1) laterContext route) ∧
    laterCandidate.2.routes.map (fun route ↦ (route.status, route.newStops.length)) =
      [(.completed, 0), (.active, 3)] := by
  have hread : materializeRecoveryContext (handoverDatabase 2 1) 60 .crossRoute 300000000 =
      .ok laterContext := rfl
  have hcreated : createCandidate (handoverDatabase 2 1) laterContext handoverResult none =
      .ok (laterCandidate.1, laterCandidate.2) := rfl
  have hvalid : SolverResultValidator.validate laterInput handoverResult = [] := by
    decide +kernel
  have hne : handoverResult.NoEmptyRoute := by
    intro route hr
    rw [List.mem_singleton.mp hr]
    decide
  refine ⟨(createCandidate_startable_iff (by decide) hread hvalid hne hcreated).mpr ?_,
    by decide +kernel⟩
  have hbases : ∀ base ∈ laterContext.routes, base.vehicleId = 10 →
      Runnable base ∧ StaffedFrom laterContext base := by
    simp only [Runnable, StaffedFrom]
    decide +kernel
  intro solver hs base hbase hid
  rw [List.mem_singleton.mp hs] at hid
  exact hbases base hbase hid

end PenroseRoute.Recovery
