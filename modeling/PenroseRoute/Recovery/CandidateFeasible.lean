import PenroseRoute.Recovery.CandidateAgrees

/-!
# When a candidate route is feasible as a whole

The solver and the validator see the target orders and the usable vehicles only. This module
says exactly when the routes that `_persist_candidate_routes` makes of kept stops and solver
stops can be driven as a whole.
-/

namespace PenroseRoute.Db

/-- What a stop does to the load of its vehicle. -/
def RouteStop.loadChange (stop : RouteStop) : Int :=
  if stop.stopType = .delivery then -stop.demandLoadUnitsSnapshot
  else stop.demandLoadUnitsSnapshot

/-- `(route.route_metrics or {}).get("preserved_stop_count", 0)`. -/
def VehicleRoute.preservedStopCount (route : VehicleRoute) : Nat :=
  (route.routeMetrics.map (·.preservedStopCount)).getD 0

/-- A candidate route that can be driven as a whole, read in sequence. -/
structure VehicleRoute.FeasibleAsWhole (route : VehicleRoute) : Prop where
  /-- A new stop is not planned to be reached before the stop ahead of it is left. -/
  inTime : ∀ before stop after, route.stops = before ++ stop :: after →
    route.preservedStopCount ≤ before.length →
      ∀ previous, before.reverse.find? (·.status != .completed) = some previous →
        previous.plannedDepartureAt ≤ stop.plannedArrivalAt
  /-- The goods aboard fit. -/
  load : Lib.RunningWithin 0 route.capacityLoadUnits 0 (route.stops.map (·.loadChange))
  /-- New stops follow completed stops only. -/
  seen : route.stops.drop route.preservedStopCount ≠ [] →
    ∀ stop ∈ route.stops.take route.preservedStopCount, stop.status = .completed

end PenroseRoute.Db

namespace PenroseRoute.Recovery

open PenroseRoute.Db PenroseRoute.Lib PenroseRoute.Operations PenroseRoute.Optimization

/-- The capacity that a candidate records for the vehicle of a base route. -/
def recordedCapacity (context : RecoveryContext) (route : VehicleRoute) : Nat :=
  ((context.vehicleFact? route.vehicleId).map (·.capacityLoadUnits)).getD route.capacityLoadUnits

/-- The net load of the stops that a base route keeps. -/
def keptLoad (context : RecoveryContext) (route : VehicleRoute) : Int :=
  ((preservedStops context route).map (·.loadChange)).sum

/-- The kept stops of a base route go together with its solver route: they are completed,
they fit, and the goods they leave aboard leave room for those that the solver moves. -/
structure KeptStopsFit (context : RecoveryContext) (result : SolverResult)
    (route : VehicleRoute) : Prop where
  seen : ∀ solver, popped result route = some solver → solver.stops ≠ [] →
    ∀ stop ∈ preservedStops context route, stop.status = .completed
  kept : RunningWithin 0 (recordedCapacity context route) 0
    ((preservedStops context route).map (·.loadChange))
  room : ∀ solver, popped result route = some solver →
    RunningWithin 0 (recordedCapacity context route) (keptLoad context route)
      (solver.stops.map (·.loadChangeLoadUnits))

/-! ### Solver routes and stops -/

/-- What the validator makes sure of on the routes of a result, whatever its status. -/
structure RoutesDriven (input : SolverInput) (result : SolverResult) : Prop where
  drivable : ∀ route ∈ result.routes, ∃ vehicle ∈ input.vehicles,
    vehicle.vehicleId = route.vehicleId ∧ Drivable input vehicle route
  vehicles : (result.routes.map (·.vehicleId)).Nodup
  stops : ∀ route ∈ result.routes, ∀ stop ∈ route.stops, ∃ order ∈ input.orders,
    order.orderId = stop.orderId ∧ (OriginStop order stop ∨ DeliveryStop order stop)

/-- A result without any issue has no route, or feasible ones. -/
theorem routesDriven_of_validate {input : SolverInput} {result : SolverResult}
    (hvalid : SolverResultValidator.validate input result = []) : RoutesDriven input result := by
  by_cases hf : result.status = .feasible
  · have h := (validate_eq_nil result hf).mp hvalid
    refine ⟨?_, h.vehicles, ?_⟩
    · intro route hr
      obtain ⟨vehicle, hv, hid, hdrive, -⟩ := h.drivable route hr
      exact ⟨vehicle, hv, hid, hdrive⟩
    · intro route hr stop hs
      obtain ⟨order, ho, hid, -, hcase⟩ := h.stop_cases hr hs
      exact ⟨order, ho, hid, hcase⟩
  · have hnone : result.routes = [] := by
      rw [SolverResultValidator.validate, if_pos hf] at hvalid
      cases hroutes : result.routes with
      | nil => rfl
      | cons route routes =>
        rw [hroutes] at hvalid
        cases hvalid
    refine ⟨?_, ?_, ?_⟩
    all_goals simp [hnone]

/-- Stops that are reached in turn are reached after all stops before them are left. -/
theorem reaches_pairwise {input : SolverInput} {location : UUID} {departure : Nat}
    {stops : List SolverStop} (h : Reaches input location departure stops) :
    (∀ stop ∈ stops, departure ≤ stop.arrivalTimeSeconds) ∧
      stops.Pairwise fun a b ↦ a.departureTimeSeconds ≤ b.arrivalTimeSeconds := by
  induction stops generalizing location departure with
  | nil => exact ⟨fun _ hs ↦ (by cases hs), .nil⟩
  | cons stop rest ih =>
    obtain ⟨hlater, hpair⟩ := ih h.2
    have hfirst : departure ≤ stop.arrivalTimeSeconds := by
      have := h.1
      omega
    refine ⟨?_, .cons hlater hpair⟩
    intro other ho
    cases ho with
    | head => exact hfirst
    | tail _ ho =>
      have h₁ := hlater other ho
      have h₂ := stop.arrival_le
      omega

/-- Such stops are left before the last of them is. -/
theorem reaches_left_by_last {input : SolverInput} {location : UUID} {departure : Nat}
    {stops : List SolverStop} (h : Reaches input location departure stops) {stop last : SolverStop}
    (hs : stop ∈ stops) (hlast : stops.getLast? = some last) :
    stop.departureTimeSeconds ≤ last.departureTimeSeconds := by
  obtain ⟨-, hpairs⟩ := reaches_pairwise h
  obtain ⟨init, hinit⟩ := List.getLast?_eq_some_iff.mp hlast
  rw [hinit] at hs hpairs
  rcases List.mem_append.mp hs with hs | hs
  · have hbefore := (List.pairwise_append.mp hpairs).2.2 stop hs last (by simp)
    exact hbefore.trans last.arrival_le
  · rw [List.mem_singleton.mp hs]

/-- Planned times are the solver's seconds from now. -/
theorem newStop_inTime {context : RecoveryContext} {solverStop solverStop' : SolverStop}
    {stop stop' : RouteStop} (hs : SolvedAs context solverStop stop)
    (hs' : SolvedAs context solverStop' stop')
    (hle : solverStop.departureTimeSeconds ≤ solverStop'.arrivalTimeSeconds) :
    stop.plannedDepartureAt ≤ stop'.plannedArrivalAt := by
  obtain ⟨order, -, he⟩ := hs
  obtain ⟨order', -, he'⟩ := hs'
  have hint : (solverStop.departureTimeSeconds : Int) ≤ solverStop'.arrivalTimeSeconds := by
    omega
  rw [he, he']
  exact Int.add_le_add_left (Int.mul_le_mul_of_nonneg_right hint (by decide)) _

/-- An order of the solver input is made of the target order with its id. -/
theorem targetOrder?_fields {context : RecoveryContext} {matrix : RoutingMatrix}
    {input : SolverInput} (hinput : buildRecoverySolverInput context matrix = .ok input)
    {orderId : UUID} {fact : RecoveryOrderFact} (hf : context.targetOrder? orderId = some fact)
    {order : SolverOrder} (ho : order ∈ input.orders) (hid : order.orderId = orderId) :
    order.toSolverOrderFields = solverOrderFields context.currentTime fact := by
  have hfields := (buildRecoverySolverInput_ok hinput).1
  have hmem : order.toSolverOrderFields ∈
      context.targetOrders.map (solverOrderFields context.currentTime) := by
    rw [← hfields]
    exact List.mem_map.mpr ⟨order, ho, rfl⟩
  obtain ⟨fact', hfm, hfe⟩ := List.mem_map.mp hmem
  have hnodup : (context.targetOrders.map (·.orderId)).Nodup := by
    have hids : input.orders.map (·.orderId) = context.targetOrders.map (·.orderId) := by
      have := congrArg (List.map SolverOrderFields.orderId) hfields
      rw [List.map_map, List.map_map] at this
      exact this
    rw [← hids]
    exact input.orders_nodup
  have hid' : fact'.orderId = orderId := by
    have := congrArg SolverOrderFields.orderId hfe
    exact this.trans hid
  have hsame : context.targetOrder? orderId = some fact' :=
    (find?_key_eq_some_iff hnodup).mpr ⟨hfm, hid'⟩
  rw [hf, Option.some.injEq] at hsame
  rw [hsame, hfe]

/-- A new stop changes the load as the solver's stop does. -/
theorem SolvedAs.loadChange {context : RecoveryContext} {matrix : RoutingMatrix}
    {input : SolverInput} {result : SolverResult}
    (hinput : buildRecoverySolverInput context matrix = .ok input)
    (hdriven : RoutesDriven input result) {route : SolverRoute} (hr : route ∈ result.routes)
    {solverStop : SolverStop} (hs : solverStop ∈ route.stops) {stop : RouteStop}
    (h : SolvedAs context solverStop stop) :
    stop.loadChange = solverStop.loadChangeLoadUnits := by
  obtain ⟨fact, hf, he⟩ := h
  obtain ⟨order, ho, hid, hcase⟩ := hdriven.stops route hr solverStop hs
  have hdemand := congrArg SolverOrderFields.demandLoadUnits
    (targetOrder?_fields hinput hf ho hid)
  rw [he]
  rcases hcase with hO | hD
  · rw [RouteStop.loadChange, hO.load, if_neg]
    · exact congrArg Nat.cast hdemand.symm
    · exact hO.ne_delivery
  · rw [RouteStop.loadChange, hD.load, if_pos]
    · exact congrArg (fun n : Nat ↦ -(n : Int)) hdemand.symm
    · exact hD.kind

/-! ### One route -/

private theorem BuiltFrom.parts {context : RecoveryContext} {matrix : RoutingMatrix}
    {input : SolverInput} {result : SolverResult}
    (hinput : buildRecoverySolverInput context matrix = .ok input)
    (hdriven : RoutesDriven input result) {task : RouteTask} {route : VehicleRoute}
    (h : BuiltFrom context task route)
    (htask : task.solved = [] ∨ ∃ solver ∈ result.routes, task.solved = solver.stops) :
    ∃ copies solved, route.stops = copies ++ solved ∧
      route.preservedStopCount = copies.length ∧
      copies.map (·.status) = (task.kept context).map (·.status) ∧
      copies.map (·.loadChange) = (task.kept context).map (·.loadChange) ∧
      solved.map (·.loadChange) = task.solved.map (·.loadChangeLoadUnits) ∧
      (∀ stop ∈ solved, stop.status = .planned) ∧
      (solved = [] ↔ task.solved = []) ∧
      solved.Pairwise fun a b ↦ a.plannedDepartureAt ≤ b.plannedArrivalAt := by
  obtain ⟨copies, solved, he, hc, hs⟩ := h.stops.parts
  have hcount : route.preservedStopCount = copies.length := by
    rw [VehicleRoute.preservedStopCount, h.preservedCount, hc.length_eq]
    rfl
  have hplanned : ∀ stop ∈ solved, stop.status = .planned := by
    intro stop hm
    obtain ⟨solverStop, -, order, -, heq⟩ := exists_of_forall₂_right hs hm
    rw [heq]
    rfl
  have hnil : solved = [] ↔ task.solved = [] := by
    rw [← List.length_eq_zero_iff, ← List.length_eq_zero_iff, hs.length_eq]
  refine ⟨copies, solved, he, hcount, map_copyOf (·.status) (fun _ _ _ _ ↦ rfl) hc,
    map_copyOf (·.loadChange) (fun _ _ _ _ ↦ rfl) hc, ?_, hplanned, hnil, ?_⟩
  · rcases htask with hn | ⟨solver, hr, hsolver⟩
    · rw [hnil.mpr hn, hn]
      rfl
    · rw [hsolver] at hs ⊢
      have hload : ∀ solverStop stop,
          solverStop ∈ solver.stops ∧ stop ∈ solved ∧ SolvedAs context solverStop stop →
            solverStop.loadChangeLoadUnits = stop.loadChange :=
        fun _ _ hm ↦ (hm.2.2.loadChange hinput hdriven hr hm.1).symm
      exact (map_eq_map_of_forall₂ hload (forall₂_and_mem hs)).symm
  · rcases htask with hn | ⟨solver, hr, hsolver⟩
    · rw [hnil.mpr hn]
      exact .nil
    · obtain ⟨vehicle, -, -, hdrive⟩ := hdriven.drivable solver hr
      rw [hsolver] at hs
      have htime : ∀ a b a' b', SolvedAs context a b → SolvedAs context a' b' →
          a.departureTimeSeconds ≤ a'.arrivalTimeSeconds →
            b.plannedDepartureAt ≤ b'.plannedArrivalAt :=
        fun _ _ _ _ ha hb hle ↦ newStop_inTime ha hb hle
      exact pairwise_of_forall₂ htime hs (reaches_pairwise hdrive.reaches).2

private theorem inTime_of_pairwise {copies solved : List RouteStop}
    (hdone : ∀ stop ∈ copies, stop.status = .completed)
    (hpair : solved.Pairwise fun a b ↦ a.plannedDepartureAt ≤ b.plannedArrivalAt)
    {before after : List RouteStop} {stop : RouteStop}
    (he : copies ++ solved = before ++ stop :: after) (hle : copies.length ≤ before.length)
    {previous : RouteStop}
    (hprev : before.reverse.find? (·.status != .completed) = some previous) :
    previous.plannedDepartureAt ≤ stop.plannedArrivalAt := by
  have hsplit : ∃ ahead, before = copies ++ ahead ∧ solved = ahead ++ stop :: after := by
    rcases List.append_eq_append_iff.mp he with ⟨ahead, hb, hs⟩ | ⟨rest, hc, hs⟩
    · exact ⟨ahead, hb, hs⟩
    · have hlen := congrArg List.length hc
      rw [List.length_append] at hlen
      have hnil : rest = [] := List.eq_nil_of_length_eq_zero (by omega)
      subst hnil
      exact ⟨[], by simpa using hc.symm, hs.symm⟩
  obtain ⟨ahead, hb, hs⟩ := hsplit
  have hopen : previous.status ≠ .completed := by simpa using List.find?_some hprev
  have hmem : previous ∈ before := List.mem_reverse.mp (List.mem_of_find?_eq_some hprev)
  rw [hb, List.mem_append] at hmem
  rw [hs, List.pairwise_append] at hpair
  rcases hmem with hmem | hmem
  · exact absurd (hdone previous hmem) hopen
  · exact hpair.2.2 previous hmem stop List.mem_cons_self

-- A candidate route can be driven as a whole exactly when the stops it keeps are completed
-- if the solver adds some, fit, and leave room for those that the solver adds.
private theorem BuiltFrom.feasible_iff {context : RecoveryContext} {matrix : RoutingMatrix}
    {input : SolverInput} {result : SolverResult}
    (hinput : buildRecoverySolverInput context matrix = .ok input)
    (hdriven : RoutesDriven input result) {task : RouteTask} {route : VehicleRoute}
    (h : BuiltFrom context task route)
    (htask : task.solved = [] ∨ ∃ solver ∈ result.routes, task.solved = solver.stops) :
    route.FeasibleAsWhole ↔
      (task.solved ≠ [] → ∀ stop ∈ task.kept context, stop.status = .completed) ∧
      RunningWithin 0 (task.capacity context) 0 ((task.kept context).map (·.loadChange)) ∧
      RunningWithin 0 (task.capacity context) ((task.kept context).map (·.loadChange)).sum
        (task.solved.map (·.loadChangeLoadUnits)) := by
  obtain ⟨copies, solved, he, hcount, hstatus, hcopied, hsolved, -, hnil, hpair⟩ :=
    h.parts hinput hdriven htask
  have hloads : route.stops.map (·.loadChange) =
      (task.kept context).map (·.loadChange) ++ task.solved.map (·.loadChangeLoadUnits) := by
    rw [he, List.map_append, hcopied, hsolved]
  have hall : ∀ stops : List RouteStop, (∀ stop ∈ stops, stop.status = .completed) ↔
      ∀ status ∈ stops.map (·.status), status = .completed := fun stops ↦ by simp
  have hdone : (∀ stop ∈ copies, stop.status = .completed) ↔
      ∀ stop ∈ task.kept context, stop.status = .completed := by
    rw [hall, hstatus, ← hall]
  constructor
  · intro hf
    have hload := hf.load
    rw [hloads, h.capacity, runningWithin_append, Int.zero_add] at hload
    refine ⟨?_, hload⟩
    intro hne
    have hseen := hf.seen
    rw [hcount, he, List.drop_left, List.take_left] at hseen
    exact hdone.mp (hseen (mt hnil.mp hne))
  · rintro ⟨hseen, hkept, hroom⟩
    refine ⟨?_, ?_, ?_⟩
    · intro before stop after hsplit hle previous hprev
      rw [hcount] at hle
      rw [he] at hsplit
      by_cases hne : task.solved = []
      · have hlen := congrArg List.length hsplit
        rw [hnil.mpr hne, List.append_nil, List.length_append, List.length_cons] at hlen
        omega
      · exact inTime_of_pairwise (hdone.mpr (hseen hne)) hpair hsplit hle hprev
    · rw [hloads, h.capacity, runningWithin_append, Int.zero_add]
      exact ⟨hkept, hroom⟩
    · rw [hcount, he, List.drop_left, List.take_left]
      intro hne
      exact hdone.mpr (hseen (mt hnil.mpr hne))

/-! ### Loads -/

/-- The vehicle of a solver route has a fact, from which the solver's vehicle was made. -/
theorem solver_vehicle_fact {context : RecoveryContext} {matrix : RoutingMatrix}
    {input : SolverInput} {result : SolverResult}
    (hinput : buildRecoverySolverInput context matrix = .ok input)
    (hdriven : RoutesDriven input result) {solver : SolverRoute} (hs : solver ∈ result.routes) :
    ∃ fact vehicle, context.vehicleFact? solver.vehicleId = some fact ∧
      vehicle ∈ input.vehicles ∧
      vehicle.toSolverVehicleFields = solverVehicleFields context.currentTime fact ∧
      Drivable input vehicle solver := by
  obtain ⟨vehicle, hv, hid, hdrive⟩ := hdriven.drivable solver hs
  have hfields := (buildRecoverySolverInput_ok hinput).2.1
  have hmem : vehicle.toSolverVehicleFields ∈
      context.vehicles.map (solverVehicleFields context.currentTime) := by
    rw [← hfields]
    exact List.mem_map.mpr ⟨vehicle, hv, rfl⟩
  obtain ⟨fact, hf, he⟩ := List.mem_map.mp hmem
  have hnodup : ((context.vehicles.map fun fact ↦ (fact.vehicleId, fact)).map (·.1)).Nodup := by
    have hids := congrArg (List.map SolverVehicleFields.vehicleId) hfields
    rw [List.map_map, List.map_map] at hids
    have hnodup := input.vehicles_nodup
    rw [List.map_map]
    exact hids ▸ hnodup
  have hvehicle : fact.vehicleId = solver.vehicleId :=
    (congrArg SolverVehicleFields.vehicleId he).trans hid
  refine ⟨fact, vehicle, ?_, hv, he.symm, hdrive⟩
  rw [RecoveryContext.vehicleFact?, lastWrite_eq_some_iff hnodup]
  exact List.mem_map.mpr ⟨fact, hf, by rw [hvehicle]⟩

/-- The vehicle of a solver route has a fact with the capacity and the load that the solver
was given. -/
theorem drivable_fact {context : RecoveryContext} {matrix : RoutingMatrix}
    {input : SolverInput} {result : SolverResult}
    (hinput : buildRecoverySolverInput context matrix = .ok input)
    (hdriven : RoutesDriven input result) {solver : SolverRoute} (hs : solver ∈ result.routes) :
    ∃ fact, context.vehicleFact? solver.vehicleId = some fact ∧
      RunningWithin 0 fact.capacityLoadUnits fact.initialLoadLoadUnits
        (solver.stops.map (·.loadChangeLoadUnits)) := by
  obtain ⟨fact, vehicle, hfact, -, he, hdrive⟩ := solver_vehicle_fact hinput hdriven hs
  refine ⟨fact, hfact, ?_⟩
  have hload := hdrive.load
  have hcap := congrArg SolverVehicleFields.capacityLoadUnits he
  have hinit := congrArg SolverVehicleFields.initialLoadLoadUnits he
  change vehicle.capacityLoadUnits = fact.capacityLoadUnits at hcap
  change vehicle.initialLoadLoadUnits = fact.initialLoadLoadUnits at hinit
  rw [← hcap, ← hinit]
  exact hload

/-- A vehicle without a base route starts empty: only goods on base routes are aboard. -/
theorem ReadFrom.initialLoad_eq_zero {db : Database} {incident : Incident} {plan : DeliveryPlan}
    {scope : ReplanningScope} {operationalTime : Instant} {context : RecoveryContext}
    (h : ReadFrom db incident plan scope operationalTime context) {fact : RecoveryVehicleFact}
    (hf : fact ∈ context.vehicles)
    (hnot : ∀ route ∈ context.routes, route.vehicleId ≠ fact.vehicleId) :
    fact.initialLoadLoadUnits = 0 := by
  obtain ⟨planningEnd, hvehicles⟩ := h.vehicles
  rw [hvehicles] at hf
  obtain ⟨⟨assignment, vehicle, driver⟩, -, rfl⟩ := List.mem_map.mp hf
  have hnone : context.targetOrders.filter (fun order ↦
      order.deliveryOnly && order.requiredVehicleId == some assignment.vehicleId) = [] := by
    rw [List.filter_eq_nil_iff]
    intro order ho haboard
    obtain ⟨orderId, -, hfact⟩ := exists_of_forall₂_right h.targetOrders ho
    obtain ⟨honly, hrequired⟩ : order.deliveryOnly = true ∧
        order.requiredVehicleId = some assignment.vehicleId := by simpa using haboard
    obtain ⟨membership, row, -, -, hof⟩ := orderFact_ok hfact
    obtain ⟨route, hnamed, hvehicle⟩ := hof.requiredVehicleId honly
    have hsnapshot := (h.mem_routes _).mpr ⟨route, (namedRoute?_mem hnamed).1, rfl⟩
    refine hnot (routeSnapshot route) hsnapshot ?_
    rw [hrequired, Option.some.injEq] at hvehicle
    exact hvehicle.symm
  change onboardLoad context.targetOrders assignment.vehicleId = 0
  rw [onboardLoad, hnone]
  rfl

/-- A solver route that no base route pops fits its vehicle. -/
theorem ReadFrom.leftOver_fits {db : Database} {incident : Incident} {plan : DeliveryPlan}
    {scope : ReplanningScope} {operationalTime : Instant} {context : RecoveryContext}
    (h : ReadFrom db incident plan scope operationalTime context) {matrix : RoutingMatrix}
    {input : SolverInput} {result : SolverResult}
    (hinput : buildRecoverySolverInput context matrix = .ok input)
    (hdriven : RoutesDriven input result) {solver : SolverRoute}
    (hs : solver ∈ leftOver context result) :
    RunningWithin 0 ((RouteTask.extra solver).capacity context) 0
      (solver.stops.map (·.loadChangeLoadUnits)) := by
  obtain ⟨hmem, hnew⟩ := List.mem_filter.mp hs
  obtain ⟨fact, hfact, hruns⟩ := drivable_fact hinput hdriven hmem
  obtain ⟨hf, hid⟩ := vehicleFact?_vehicleId hfact
  have hempty : fact.initialLoadLoadUnits = 0 := by
    apply h.initialLoad_eq_zero hf
    intro route hr he
    have hcontained : solver.vehicleId ∈ context.routes.map (·.vehicleId) :=
      List.mem_map.mpr ⟨route, hr, he.trans hid⟩
    simp [hcontained] at hnew
  rw [hempty] at hruns
  rw [RouteTask.capacity, hfact]
  exact hruns

/-! ### The candidate -/

/-- For a context read from the database and a result without any issue: every route of the
candidate can be driven as a whole exactly when the stops that each base route keeps go
together with what the solver gives its vehicle. -/
theorem createCandidate_feasible_iff {db db₁ db₂ : Database} {incidentId : UUID}
    {scope : ReplanningScope} {operationalTime : Instant} {context : RecoveryContext}
    {matrix : RoutingMatrix} {input : SolverInput} {result : SolverResult} {roads : RoadRoutes}
    {candidate : DeliveryPlan}
    (hread : materializeRecoveryContext db incidentId scope operationalTime = .ok context)
    (hinput : buildRecoverySolverInput context matrix = .ok input)
    (hvalid : SolverResultValidator.validate input result = [])
    (hcreated : createCandidate db₁ context result roads = .ok (db₂, candidate)) :
    (∀ route ∈ candidate.routes, route.FeasibleAsWhole) ↔
      ∀ route ∈ context.routes, KeptStopsFit context result route := by
  obtain ⟨incident, plan, -, -, hr⟩ := materializeRecoveryContext_ok hread
  have hdriven := routesDriven_of_validate hvalid
  have hbuilt := (createCandidate_ok hcreated).1.routes
  have hmem := @mem_routeTasks context result hdriven.vehicles
  have hsolver : ∀ route solver, popped result route = some solver → solver ∈ result.routes :=
    fun route solver hp ↦ ((lastWrite_solverRouteWrites hdriven.vehicles _ _).mp hp).1
  have htask : ∀ route, (RouteTask.base route (popped result route)).solved = [] ∨
      ∃ solver ∈ result.routes, (RouteTask.base route (popped result route)).solved =
        solver.stops := by
    intro route
    cases hp : popped result route with
    | none => exact .inl rfl
    | some solver => exact .inr ⟨solver, hsolver route solver hp, rfl⟩
  constructor
  · intro hfeasible route hroute
    by_cases hskip : preservedStops context route = [] ∧ popped result route = none
    · refine ⟨?_, ?_, ?_⟩ <;> simp [hskip]
    · have hpass : RouteTask.base route (popped result route) ∈ routeTasks context result :=
        (hmem _).mpr (.inl ⟨route, hroute, by rw [baseTask, if_neg hskip]⟩)
      obtain ⟨made, hmade, hb⟩ := exists_of_forall₂_left hbuilt hpass
      obtain ⟨hseen, hkept, hroom⟩ :=
        (hb.feasible_iff hinput hdriven (htask route)).mp (hfeasible made hmade)
      refine ⟨?_, hkept, ?_⟩
      · intro solver hp hne
        rw [hp] at hseen
        exact hseen hne
      · intro solver hp
        rw [hp] at hroom
        exact hroom
  · intro hfit route hroute
    obtain ⟨task, hpass, hb⟩ := exists_of_forall₂_right hbuilt hroute
    rcases (hmem task).mp hpass with ⟨base, hbase, htaskeq⟩ | ⟨solver, hs, rfl⟩
    · rw [baseTask] at htaskeq
      split at htaskeq
      · cases htaskeq
      · cases htaskeq
        obtain ⟨hseen, hkept, hroom⟩ := hfit base hbase
        rw [hb.feasible_iff hinput hdriven (htask base)]
        refine ⟨?_, hkept, ?_⟩
        · intro hne
          cases hp : popped result base with
          | none => exact absurd (by rw [hp]; rfl) hne
          | some solver =>
            rw [hp] at hne
            exact hseen solver hp hne
        · cases hp : popped result base with
          | none => exact runningWithin_nil _ _ _
          | some solver => exact hroom solver hp
    · rw [hb.feasible_iff hinput hdriven (.inr ⟨solver, (List.mem_filter.mp hs).1, rfl⟩)]
      refine ⟨fun _ stop hm ↦ (by cases hm), trivial, ?_⟩
      exact hr.leftOver_fits hinput hdriven hs

/-- After a handover the vehicle drives completed stops and then those of the solver. -/
theorem handover_route_feasible :
    laterCandidate.2.routes ≠ [] ∧
      ∀ route ∈ laterCandidate.2.routes, route.FeasibleAsWhole := by
  have hread : materializeRecoveryContext (handoverDatabase 2 1) 60 .crossRoute 300000000 =
      .ok laterContext := rfl
  have hinput : buildRecoverySolverInput laterContext handoverMatrix = .ok laterInput := rfl
  have hvalid : SolverResultValidator.validate laterInput handoverResult = [] := by
    decide +kernel
  have hcreated : createCandidate (handoverDatabase 2 1) laterContext handoverResult none =
      .ok (laterCandidate.1, laterCandidate.2) := rfl
  refine ⟨by decide +kernel, (createCandidate_feasible_iff hread hinput hvalid hcreated).mpr ?_⟩
  have hfit : ∀ route ∈ laterContext.routes,
      (∀ stop ∈ preservedStops laterContext route, stop.status = .completed) ∧
      RunningWithin 0 (recordedCapacity laterContext route) 0
        ((preservedStops laterContext route).map (·.loadChange)) ∧
      ∀ solver ∈ handoverResult.routes,
        RunningWithin 0 (recordedCapacity laterContext route) (keptLoad laterContext route)
          (solver.stops.map (·.loadChangeLoadUnits)) := by
    decide +kernel
  intro route hr
  obtain ⟨hseen, hkept, hroom⟩ := hfit route hr
  refine ⟨fun _ _ _ ↦ hseen, hkept, ?_⟩
  intro solver hp
  have hmem := mem_of_lastWrite hp
  simp only [solverRouteWrites, List.mem_map, Prod.mk.injEq] at hmem
  obtain ⟨solver', hs, -, rfl⟩ := hmem
  exact hroom solver' hs

/-! ### A vehicle that has not started -/

/-- A planned stop of a route that starts later. -/
def waitingStop (id locationId sequenceNo : Nat) (stopType : StopType)
    (precedence : Option UUID) : RouteStop :=
  { scenarioStop id 32 locationId sequenceNo stopType precedence false with
    plannedArrivalAt := sequenceNo * 1000000000
    plannedDepartureAt := sequenceNo * 1000000000 + 60000000 }

/-- Vehicle 10 has not started its route for order 32, vehicle 20 has picked up order 31. -/
def waitingBase : DeliveryPlan :=
  { handoverBase 2 1 with
    routes := [
      scenarioRoute 41 2 10 3 .planned
        [waitingStop 51 1 1 .pickup none, waitingStop 52 3 2 .delivery (some 51)],
      scenarioRoute 42 1 20 2 .active [scenarioStop 53 31 1 1 .pickup none true,
        scenarioStop 54 31 2 2 .delivery (some 53) false]] }

/-- The database after the breakdown of vehicle 20. -/
def waitingDatabase : Database :=
  { handoverDatabase 2 1 with
    orders := [scenarioOrder 31 2 .pickedUp, scenarioOrder 32 3 .planned]
    vehicles := [⟨10, "V10", 5, .available, 1, 0⟩, ⟨20, "V20", 5, .unavailable, 4, 200000000⟩]
    drivers := [⟨11, .available⟩, ⟨21, .active⟩]
    assignments := [⟨12, 10, 11, .planned, 0, none, none, none⟩,
      ⟨22, 20, 21, .active, 0, none, some 100000000, none⟩]
    plans := [waitingBase] }

/-- Vehicle 10 takes order 31 over at the breakdown and delivers it. -/
def waitingResult : SolverResult where
  status := .feasible
  routes := [{
    vehicleId := 10
    stops := [servedStop 31 4 .handover 0 60 60 1,
      servedStop 31 2 .delivery 1 180 60 (-1)]
    distanceMeters := 200
    durationSeconds := 240 }]
  unassignedOrders := []
  totalDistanceMeters := 200
  totalDurationSeconds := 240
  diagnostic := none

/-- The context of the scenario: order 32 is no target, since vehicle 10 is not ACTIVE. -/
def waitingContext : RecoveryContext :=
  (materializeRecoveryContext waitingDatabase 60 .crossRoute 300000000).toOption.get rfl

/-- The database and the candidate that `_create_candidate` makes of it. -/
def waitingCandidate : Database × DeliveryPlan :=
  (createCandidate waitingDatabase waitingContext waitingResult none).toOption.get rfl

/-- A vehicle that is available but has not started keeps its planned stops, and the solver,
which never saw them, takes it too: its new stops stand behind the kept ones and are planned
before them. -/
theorem waiting_route_not_feasible :
    materializeRecoveryContext waitingDatabase 60 .crossRoute 300000000 = .ok waitingContext ∧
      (∃ input, buildRecoverySolverInput waitingContext handoverMatrix = .ok input ∧
        Accepted input waitingResult) ∧ waitingResult.NoEmptyRoute ∧
      createCandidate waitingDatabase waitingContext waitingResult none =
        .ok waitingCandidate ∧
      (∃ route ∈ waitingCandidate.2.routes, ∃ before stop after previous,
        route.stops = before ++ stop :: after ∧ route.preservedStopCount ≤ before.length ∧
        before.reverse.find? (·.status != .completed) = some previous ∧
        stop.plannedArrivalAt < previous.plannedDepartureAt) ∧
      ¬ ∀ route ∈ waitingCandidate.2.routes, route.FeasibleAsWhole := by
  have hbad : ∃ route ∈ waitingCandidate.2.routes, ∃ before stop after previous,
      route.stops = before ++ stop :: after ∧ route.preservedStopCount ≤ before.length ∧
      before.reverse.find? (·.status != .completed) = some previous ∧
      stop.plannedArrivalAt < previous.plannedDepartureAt := by
    refine ⟨waitingCandidate.2.routes[1], List.getElem_mem _,
      waitingCandidate.2.routes[1].stops.take 2, waitingCandidate.2.routes[1].stops[2],
      waitingCandidate.2.routes[1].stops.drop 3, waitingCandidate.2.routes[1].stops[1], ?_⟩
    decide +kernel
  refine ⟨rfl, ⟨_, rfl, rfl, rfl, by decide +kernel⟩, ?_, rfl, hbad, ?_⟩
  · intro route hr
    rw [List.mem_singleton.mp hr]
    decide
  · intro hall
    obtain ⟨route, hr, before, stop, after, previous, he, hle, hp, hlt⟩ := hbad
    exact absurd ((hall route hr).inTime before stop after he hle previous hp)
      (Int.not_le.mpr hlt)

end PenroseRoute.Recovery
