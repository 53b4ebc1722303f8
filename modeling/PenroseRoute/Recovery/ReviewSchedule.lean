import PenroseRoute.Recovery.NewStops
import PenroseRoute.Recovery.Options

/-!
# The review deadline

`review_deadline` of `backend/app/modules/recovery/review_schedule.py` works on the persisted
candidate and on a context, not on the result of the solver. For a candidate of an accepted
result it finds everything that it looks up, and it looks at the first stop of each solver
route.
-/

namespace PenroseRoute.Recovery

open PenroseRoute.Db PenroseRoute.Lib PenroseRoute.Operations PenroseRoute.Optimization

variable {context : RecoveryContext} {matrix : RoutingMatrix} {input : SolverInput}
  {result : SolverResult} {task : RouteTask} {route : VehicleRoute}

/-! ### Which stops are considered -/

/-- Stops that are numbered one after the other are in sequence. -/
theorem insertionSort_sequence {stops : List RouteStop} {n : Nat}
    (h : stops.map (·.sequenceNo) = List.range' n stops.length) :
    stops.insertionSort (fun a b ↦ a.sequenceNo ≤ b.sequenceNo) = stops := by
  apply List.Pairwise.insertionSort_eq
  have hle : (stops.map (·.sequenceNo)).Pairwise (· ≤ ·) := by
    rw [h]
    exact List.pairwise_le_range'
  exact List.pairwise_map.mp hle

/-- Kept stops are numbered up to their count, and new ones behind it. -/
theorem BuiltFrom.numbers (h : BuiltFrom context task route) :
    (∀ stop ∈ route.keptStops, stop.sequenceNo ≤ route.preservedStopCount) ∧
      route.newStops.map (·.sequenceNo) =
        List.range' (1 + route.preservedStopCount) route.newStops.length := by
  have hseq := h.stops.sequence
  have hnew : route.newStops.map (·.sequenceNo) =
      List.range' (1 + route.preservedStopCount) route.newStops.length := by
    rw [VehicleRoute.newStops, List.map_drop, hseq, List.drop_range', Nat.mul_one,
      List.length_drop]
  refine ⟨fun stop hs ↦ ?_, hnew⟩
  have hlen : route.keptStops.length ≤ route.preservedStopCount := List.length_take_le _ _
  rw [← route.keptStops_append_newStops, List.map_append, List.length_append,
    ← List.range'_append_1] at hseq
  obtain ⟨hkept, -⟩ := List.append_inj hseq (by simp)
  have hm : stop.sequenceNo ∈ route.keptStops.map (·.sequenceNo) := List.mem_map.mpr ⟨stop, hs, rfl⟩
  rw [hkept, List.mem_range'_1] at hm
  omega

/-- New stops are PLANNED. -/
theorem BuiltFrom.newStops_planned (h : BuiltFrom context task route) {stop : RouteStop}
    (hs : stop ∈ route.newStops) : stop.status = .planned := by
  obtain ⟨solverStop, -, order, -, he⟩ := exists_of_forall₂_right h.kept_new.2 hs
  rw [he]
  rfl

/-- On a candidate route exactly the new stops are considered: none is preserved. -/
theorem BuiltFrom.openNewStops_eq (h : BuiltFrom context task route) :
    openNewStops route = route.newStops := by
  obtain ⟨hkept, hnew⟩ := h.numbers
  have hfilter : (route.stops.filter fun stop ↦ stop.status != .completed &&
      stop.sequenceNo > route.preservedStopCount) = route.newStops := by
    rw [← route.keptStops_append_newStops, List.filter_append,
      List.filter_eq_nil_iff.mpr, List.nil_append, List.filter_eq_self.mpr]
    · intro stop hs
      have hm : stop.sequenceNo ∈ route.newStops.map (·.sequenceNo) :=
        List.mem_map.mpr ⟨stop, hs, rfl⟩
      rw [hnew, List.mem_range'_1] at hm
      rw [h.newStops_planned hs, Bool.and_eq_true, decide_eq_true_eq]
      exact ⟨rfl, by omega⟩
    · intro stop hs
      have hle := hkept stop hs
      rw [Bool.and_eq_true, decide_eq_true_eq]
      omega
  rw [openNewStops]
  change List.insertionSort _ (route.stops.filter fun stop ↦ stop.status != .completed &&
      stop.sequenceNo > route.preservedStopCount) = _
  rw [hfilter, insertionSort_sequence hnew]

/-! ### Lookups -/

/-- The matrices of an input are those of the routing provider. -/
theorem buildRecoverySolverInput_matrix (h : buildRecoverySolverInput context matrix = .ok input) :
    input.locationIds = matrix.locationIds ∧
      input.durationMatrixSeconds = matrix.durationMatrixSeconds := by
  obtain ⟨orders, -, h⟩ := bind_eq_ok.mp h
  obtain ⟨vehicles, -, h⟩ := bind_eq_ok.mp h
  have hfields := SolverInput.make_ok ((valueError_eq_ok _ _).mp h)
  rw [hfields]
  exact ⟨rfl, rfl⟩

/-- Between two locations of an input no lookup fails. -/
theorem duration_lookup {source destination : UUID} (hs : source ∈ input.locationIds)
    (hd : destination ∈ input.locationIds) :
    (input.durationMatrixSeconds[input.locationIds.idxOf source]?).bind
      (·[input.locationIds.idxOf destination]?) = some (input.duration source destination) := by
  have hsquare := ((SolverInput.checked_iff _).mp input.checked).2.1
  rw [SolverInputFields.isSquare, Bool.and_eq_true, List.all_eq_true, beq_iff_eq] at hsquare
  have hrow : input.locationIds.idxOf source < input.durationMatrixSeconds.length := by
    rw [hsquare.1]
    exact List.idxOf_lt_length_of_mem hs
  have hcolumn : input.locationIds.idxOf destination <
      (input.durationMatrixSeconds[input.locationIds.idxOf source]).length := by
    rw [beq_iff_eq.mp (hsquare.2 _ (List.getElem_mem hrow))]
    exact List.idxOf_lt_length_of_mem hd
  rw [SolverInput.duration, SolverInput.entry, List.getElem?_eq_getElem hrow, Option.bind_some,
    List.getElem?_eq_getElem hcolumn, Option.getD_some]

/-- Every stop of an accepted result is at a location of the input. -/
theorem RoutesDriven.location_mem (h : RoutesDriven input result) {solver : SolverRoute}
    (hs : solver ∈ result.routes) {stop : SolverStop} (hstop : stop ∈ solver.stops) :
    stop.locationId ∈ input.locationIds := by
  obtain ⟨order, ho, -, horigin | hdelivery⟩ := h.stops solver hs stop hstop
  · exact input.origin_mem ho horigin.location
  · rw [hdelivery.location]
    exact input.delivery_mem ho

/-! ### One route -/

/-- The stop that the deadline of a candidate route is taken from: the first one of the solver,
with the vehicle of the context that has to reach it. -/
structure FirstStop (context : RecoveryContext) (input : SolverInput) (result : SolverResult)
    (route : VehicleRoute) (fact : RecoveryVehicleFact) (first : RouteStop) : Prop where
  considered : (openNewStops route).head? = some first
  notPreserved : route.newStops.head? = some first
  solved : ∃ solver ∈ result.routes, solver.vehicleId = route.vehicleId ∧
    ∃ solverStop, solver.stops.head? = some solverStop ∧ SolvedAs context solverStop first
  vehicle : context.vehicleFact? route.vehicleId = some fact
  inTime : context.currentTime + timedelta (input.duration fact.startLocationId first.locationId) ≤
    first.plannedArrivalAt
  earliest : ∀ stop ∈ route.newStops, first.plannedArrivalAt ≤ stop.plannedArrivalAt

/-- The latest departure that reaches a stop in time. -/
def latestDeparture (input : SolverInput) (fact : RecoveryVehicleFact) (first : RouteStop) :
    Instant :=
  first.plannedArrivalAt - timedelta (input.duration fact.startLocationId first.locationId)

/-- The first stop that is reached is the first one to be reached. -/
theorem arrival_le_of_reaches {location : UUID} {departure : Nat} {first stop : SolverStop}
    {rest : List SolverStop} (h : Reaches input location departure (first :: rest))
    (hs : stop ∈ first :: rest) : first.arrivalTimeSeconds ≤ stop.arrivalTimeSeconds := by
  rcases List.mem_cons.mp hs with rfl | hs
  · exact Nat.le_refl _
  · exact first.arrival_le.trans ((reaches_pairwise h.2).1 stop hs)

/-- The place and the arrival of a new stop are those of its solver stop. -/
theorem SolvedAs.locationId {solverStop : SolverStop} {stop : RouteStop}
    (h : SolvedAs context solverStop stop) : stop.locationId = solverStop.locationId := by
  obtain ⟨order, -, he⟩ := h
  rw [he]
  rfl

/-- The planned arrival of a solved stop is that of the solver. -/
theorem SolvedAs.plannedArrivalAt {solverStop : SolverStop} {stop : RouteStop}
    (h : SolvedAs context solverStop stop) :
    stop.plannedArrivalAt = context.currentTime + timedelta solverStop.arrivalTimeSeconds := by
  obtain ⟨order, -, he⟩ := h
  rw [he]
  rfl

/-- The deadline of a route where the lookups of `review_schedule.py:19` succeed. -/
theorem routeDeadline_cons (hinput : buildRecoverySolverInput context matrix = .ok input)
    {first : RouteStop} {rest : List RouteStop} {fact : RecoveryVehicleFact}
    (hopen : openNewStops route = first :: rest)
    (hfact : context.vehicleFact? route.vehicleId = some fact)
    (hsource : fact.startLocationId ∈ input.locationIds)
    (hdestination : first.locationId ∈ input.locationIds) :
    routeDeadline context matrix route = .ok (some (latestDeparture input fact first)) := by
  have hlookup := duration_lookup hsource hdestination
  obtain ⟨hids, hdurations⟩ := buildRecoverySolverInput_matrix hinput
  rw [hids] at hsource hdestination
  rw [hids, hdurations] at hlookup
  rw [routeDeadline, hopen]
  dsimp only
  rw [hfact]
  refine bind_eq_ok.mpr ⟨fact, rfl, unit_bind_eq_ok.mpr ⟨?_, ?_⟩⟩
  · rw [raiseFirst_cons_eq_ok, Bool.or_eq_false_iff, Bool.not_eq_false', Bool.not_eq_false',
      List.contains_iff_mem, List.contains_iff_mem]
    exact ⟨⟨hsource, hdestination⟩, raiseFirst_nil⟩
  · rw [hlookup]
    rfl

/-- A candidate route has no new stops and is passed over, or its deadline is the latest
departure to the first stop of the solver. -/
theorem Created.routeDeadline_ok {db : Database} {plan : DeliveryPlan}
    (h : Created db context result plan)
    (hinput : buildRecoverySolverInput context matrix = .ok input)
    (haccepted : Accepted input result) (hr : route ∈ plan.routes) :
    (route.newStops = [] ∧ openNewStops route = [] ∧
      routeDeadline context matrix route = .ok none) ∨
    ∃ fact first, FirstStop context input result route fact first ∧
      routeDeadline context matrix route = .ok (some (latestDeparture input fact first)) := by
  have hdriven := routesDriven_of_validate haccepted.valid
  obtain ⟨task, ht, hb⟩ := exists_of_forall₂_right h.routes hr
  have hopen := hb.openNewStops_eq
  cases hnew : route.newStops with
  | nil =>
    rw [hnew] at hopen
    refine .inl ⟨rfl, hopen, ?_⟩
    rw [routeDeadline, hopen]
  | cons first rest =>
    rw [hnew] at hopen
    have hstops := hb.kept_new.2
    rw [hnew] at hstops
    cases hsolved : task.solved with
    | nil =>
      rw [hsolved] at hstops
      cases hstops
    | cons solverStop solverRest =>
      rw [hsolved] at hstops
      obtain ⟨solver, hs, hid, he⟩ := (solved_eq hdriven.vehicles ht).resolve_left
        (by rw [hsolved]; exact List.cons_ne_nil _ _)
      obtain ⟨fact, vehicle, hfact, hv, hfields, hdrive⟩ :=
        solver_vehicle_fact hinput hdriven hs
      have hfirst : SolvedAs context solverStop first := (List.forall₂_cons.mp hstops).1
      have hhead : solver.stops = solverStop :: solverRest := he.symm.trans hsolved
      have hvehicleId : solver.vehicleId = route.vehicleId := hid.trans hb.vehicleId.symm
      rw [hvehicleId] at hfact
      have hstart : vehicle.startLocationId = fact.startLocationId :=
        congrArg SolverVehicleFields.startLocationId hfields
      have hlocation : first.locationId = solverStop.locationId := hfirst.locationId
      have hreaches := hdrive.reaches
      rw [hhead, hstart] at hreaches
      have hsource : fact.startLocationId ∈ input.locationIds := hstart ▸ input.start_mem hv
      have hdestination : first.locationId ∈ input.locationIds := by
        rw [hlocation]
        exact hdriven.location_mem hs (by rw [hhead]; exact List.mem_cons_self)
      refine .inr ⟨fact, first, ⟨?_, ?_, ⟨solver, hs, hvehicleId, solverStop, ?_, hfirst⟩, hfact,
        ?_, ?_⟩, ?_⟩
      · rw [hopen, List.head?_cons]
      · rw [hnew, List.head?_cons]
      · rw [hhead, List.head?_cons]
      · rw [hfirst.plannedArrivalAt, hlocation]
        have hle : input.duration fact.startLocationId solverStop.locationId ≤
            solverStop.arrivalTimeSeconds := by
          have := hreaches.1
          omega
        exact Int.add_le_add_left (Int.mul_le_mul_of_nonneg_right (Int.ofNat_le.mpr hle)
          (by decide)) _
      · intro stop hstop
        rw [hnew] at hstop
        obtain ⟨solved, hmem, hstop⟩ := exists_of_forall₂_right hstops hstop
        rw [hfirst.plannedArrivalAt, hstop.plannedArrivalAt]
        exact Int.add_le_add_left (Int.mul_le_mul_of_nonneg_right
          (Int.ofNat_le.mpr (arrival_le_of_reaches hreaches hmem)) (by decide)) _
      · exact routeDeadline_cons hinput hopen hfact hsource hdestination

/-! ### The whole candidate -/

/-- A deadline of a candidate: every vehicle with new stops can still leave for its first one,
and the deadline is the last moment at which all of them can. -/
structure IsReviewDeadline (context : RecoveryContext) (input : SolverInput)
    (result : SolverResult) (plan : DeliveryPlan) (deadline : Instant) : Prop where
  notPast : context.currentTime ≤ deadline
  considered : ∀ route ∈ plan.routes, openNewStops route = route.newStops
  inTime : ∀ now ≤ deadline, ∀ route ∈ plan.routes, route.newStops ≠ [] →
    ∃ fact first, FirstStop context input result route fact first ∧
      now + timedelta (input.duration fact.startLocationId first.locationId) ≤
        first.plannedArrivalAt
  latest : (∃ route ∈ plan.routes, route.newStops ≠ []) → ∃ route ∈ plan.routes, ∃ fact first,
    FirstStop context input result route fact first ∧
      deadline = latestDeparture input fact first

/-- The smallest of the latest departures is a review deadline; without any, the current time
is. -/
theorem isReviewDeadline_min {plan : DeliveryPlan} {deadlines : List Instant}
    (hof : ∀ value ∈ deadlines, ∃ route ∈ plan.routes, ∃ fact first,
      FirstStop context input result route fact first ∧ value = latestDeparture input fact first)
    (hhas : ∀ route ∈ plan.routes, route.newStops ≠ [] → ∃ fact first,
      FirstStop context input result route fact first ∧
        latestDeparture input fact first ∈ deadlines)
    (hconsidered : ∀ route ∈ plan.routes, openNewStops route = route.newStops) :
    IsReviewDeadline context input result plan (deadlines.min?.getD context.currentTime) := by
  cases hmin : deadlines.min? with
  | none =>
    have hnil := List.min?_eq_none_iff.mp hmin
    subst hnil
    refine ⟨Int.le_refl _, hconsidered, fun now _ route hr hnew ↦ ?_,
      fun ⟨route, hr, hnew⟩ ↦ ?_⟩
    · obtain ⟨_, _, -, hmem⟩ := hhas route hr hnew
      cases hmem
    · obtain ⟨_, _, -, hmem⟩ := hhas route hr hnew
      cases hmem
  | some deadline =>
    obtain ⟨hmem, hle⟩ := List.min?_eq_some_iff.mp hmin
    obtain ⟨route, hr, fact, first, hfirst, he⟩ := hof deadline hmem
    rw [Option.getD_some]
    refine ⟨?_, hconsidered, fun now hnow other ho hnew ↦ ?_,
      fun _ ↦ ⟨route, hr, fact, first, hfirst, he⟩⟩
    · rw [he]
      exact Int.le_sub_right_of_add_le hfirst.inTime
    · obtain ⟨fact', first', hfirst', hmem'⟩ := hhas other ho hnew
      exact ⟨fact', first', hfirst',
        Int.add_le_of_le_sub_right (Int.le_trans hnow (hle _ hmem'))⟩

/-- For a candidate of an accepted result the review deadline is defined and safe: no lookup
fails, each route is judged by the first stop of its solver route, an approval until the deadline
lets every vehicle leave its start and reach that stop in time, and the deadline is not before
the current time of the context. -/
theorem reviewDeadline_ok {services : Services} {db db' : Database} {roads : RoadRoutes}
    {candidate : DeliveryPlan}
    (hmatrix : services.buildDistanceTimeMatrix context.locations = .ok matrix)
    (hinput : buildRecoverySolverInput context matrix = .ok input)
    (haccepted : Accepted input result)
    (hcreated : createCandidate db context result roads = .ok (db', candidate)) :
    ∃ deadline, reviewDeadline services context candidate = .ok deadline ∧
      IsReviewDeadline context input result candidate deadline := by
  have hc := (createCandidate_ok hcreated).1
  obtain ⟨deadlines, hdeadlines⟩ := exists_mapM_iff.mpr
    (fun route (hr : route ∈ candidate.routes) ↦ by
      rcases hc.routeDeadline_ok hinput haccepted hr with ⟨-, -, h⟩ | ⟨_, _, -, h⟩
      · exact ⟨_, h⟩
      · exact ⟨_, h⟩)
  refine ⟨(deadlines.filterMap id).min?.getD context.currentTime,
    bind_eq_ok.mpr ⟨matrix, hmatrix, bind_eq_ok.mpr ⟨deadlines, hdeadlines, rfl⟩⟩, ?_⟩
  have hpairs := mapM_eq_ok_iff.mp hdeadlines
  apply isReviewDeadline_min
  · intro value hvalue
    obtain ⟨deadline, hd, hsome⟩ := List.mem_filterMap.mp hvalue
    obtain ⟨route, hr, hroute⟩ := exists_of_forall₂_right hpairs hd
    rcases hc.routeDeadline_ok hinput haccepted hr with ⟨-, -, h⟩ | ⟨fact, first, hfirst, h⟩
    · rw [h] at hroute
      cases hroute
      cases hsome
    · rw [h] at hroute
      cases hroute
      cases hsome
      exact ⟨route, hr, fact, first, hfirst, rfl⟩
  · intro route hr hnew
    obtain ⟨deadline, hd, hroute⟩ := exists_of_forall₂_left hpairs hr
    rcases hc.routeDeadline_ok hinput haccepted hr with ⟨hnil, -, -⟩ | ⟨fact, first, hfirst, h⟩
    · exact absurd hnil hnew
    · rw [h] at hroute
      cases hroute
      exact ⟨fact, first, hfirst, List.mem_filterMap.mpr ⟨_, hd, rfl⟩⟩
  · intro route hr
    obtain ⟨task, -, hb⟩ := exists_of_forall₂_right hc.routes hr
    exact hb.openNewStops_eq

end PenroseRoute.Recovery
