import PenroseRoute.Recovery.RoadWaypoints

/-!
# Roads of a candidate

Which road a persisted route gets: the one that was built for its own pass, as a vehicle has one
pass, or the stored one when an unchanged route keeps it. Where the waypoints fit, what is stored
for a candidate agrees with its routes if this held of the base plan.
-/

namespace PenroseRoute.Recovery

open PenroseRoute.Db PenroseRoute.Lib PenroseRoute.Operations PenroseRoute.Optimization
open PenroseRoute.Routing

variable {context : RecoveryContext} {result : SolverResult} {roads : RoadRoutes}
  {task : RouteTask} {route : VehicleRoute}

/-! ### The road of a pass -/

/-- A pass has a road for its vehicle or none. -/
theorem roadFor_ok {build : List UUID → Except AppError RoadRoute} {own : List (UUID × RoadRoute)}
    (h : roadFor context build task = .ok own) :
    (own = [] ∧ roadWaypoints context task = .ok none) ∨
      ∃ waypoints road, roadWaypoints context task = .ok (some (task.vehicleId, waypoints)) ∧
        build waypoints = .ok road ∧ own = [(task.vehicleId, road)] := by
  obtain ⟨entry, hentry, h⟩ := bind_eq_ok.mp h
  cases entry with
  | none =>
    cases h
    exact .inl ⟨rfl, hentry⟩
  | some pair =>
    obtain ⟨-, h⟩ := unit_bind_eq_ok.mp h
    obtain ⟨road, hroad, h⟩ := bind_eq_ok.mp h
    cases h
    have hvehicle : pair.1 = task.vehicleId := by
      cases task with
      | base base solver =>
        rcases roadWaypoints_base hentry with ⟨hnone, -⟩ | ⟨-, -, he⟩
        · cases hnone
        · exact congrArg Prod.fst (Option.some.inj he)
      | extra solver =>
        obtain ⟨_, -, he⟩ := bind_eq_ok.mp hentry
        cases he
        rfl
    refine .inr ⟨pair.2, road, ?_, hroad, ?_⟩
    · rw [hentry, ← hvehicle]
    · rw [hvehicle]

/-- Where vehicles have one pass each, the road of a vehicle is that of its pass. -/
theorem lastWrite_flatten_roads {build : List UUID → Except AppError RoadRoute}
    {tasks : List RouteTask} {pieces : List (List (UUID × RoadRoute))}
    (h : List.Forall₂ (fun task own ↦ roadFor context build task = .ok own) tasks pieces)
    (hvehicles : (tasks.map (·.vehicleId)).Nodup) (ht : task ∈ tasks) :
    ∃ own, roadFor context build task = .ok own ∧
      lastWrite pieces.flatten task.vehicleId = lastWrite own task.vehicleId := by
  have hkeys : ∀ {task : RouteTask} {own}, roadFor context build task = .ok own →
      ∀ write ∈ own, write.1 = task.vehicleId := by
    intro task own hown write hw
    rcases roadFor_ok hown with ⟨rfl, -⟩ | ⟨waypoints, road, -, -, rfl⟩
    · cases hw
    · rw [List.mem_singleton.mp hw]
  induction h with
  | nil => cases ht
  | @cons first own rest pieces hown hrest ih =>
    rw [List.map_cons, List.nodup_cons] at hvehicles
    rw [List.flatten_cons, lastWrite_append]
    rcases List.mem_cons.mp ht with rfl | ht
    · refine ⟨own, hown, ?_⟩
      have hnone : lastWrite pieces.flatten task.vehicleId = none := by
        rw [lastWrite_eq_none_iff]
        intro write hw he
        obtain ⟨piece, hpiece, hw⟩ := List.mem_flatten.mp hw
        obtain ⟨other, hother, hfor⟩ := exists_of_forall₂_right hrest hpiece
        refine hvehicles.1 (List.mem_map.mpr ⟨other, hother, ?_⟩)
        rw [← hkeys hfor write hw, he]
      rw [hnone, Option.none_or]
    · obtain ⟨found, hfound, he⟩ := ih hvehicles.2 ht
      refine ⟨found, hfound, ?_⟩
      have hnone : lastWrite own task.vehicleId = none := by
        rw [lastWrite_eq_none_iff]
        intro write hw hsame
        refine hvehicles.1 (List.mem_map.mpr ⟨task, ht, ?_⟩)
        rw [← hsame, hkeys hown write hw]
      rw [he, hnone, Option.or_none]

/-! ### What is persisted -/

/-- The places of the stops that a pass persists are the places of the pass. -/
theorem BuiltFrom.places (h : BuiltFrom context task route) :
    route.stops.map (·.locationId) = RouteTask.places context task := by
  obtain ⟨copies, solved, hstops, hcopies, hsolved⟩ := h.stops.parts
  rw [hstops, List.map_append, RouteTask.places,
    map_copyOf (·.locationId) (fun _ _ _ _ ↦ rfl) hcopies]
  congr 1
  refine (map_eq_map_of_forall₂ (fun x y (hxy : SolvedAs context x y) ↦ ?_) hsolved).symm
  obtain ⟨order, -, he⟩ := hxy
  rw [he]
  rfl

/-- The stops of a pass stand in sequence. -/
theorem BuiltFrom.sequence (h : BuiltFrom context task route) :
    (route.stops.map (·.sequenceNo)).Pairwise (· < ·) := by
  rw [h.stops.sequence]
  exact List.pairwise_lt_range'

/-- Which road is stored for a base route. -/
theorem persistRoute_base {base : VehicleRoute} {solver : Option SolverRoute} {id routeNo : Nat}
    (h : persistRoute context roads id routeNo (.base base solver) = .ok route) :
    endLocation? context base solver = some route.endLocationId ∧
      route.startLocationId = base.startLocationId ∧
      route.routeGeometry = ((roadOf roads base.vehicleId).map (·.geometry)).or
        (if unchanged context base solver then base.routeGeometry else none) ∧
      route.routeMetrics = some (candidateMetrics (preservedStops context base)
        (roadOf roads base.vehicleId)
        (if unchanged context base solver then base.routeMetrics else none)) := by
  obtain ⟨endLocationId, hend, h⟩ := bind_eq_ok.mp h
  obtain ⟨stops, hs, h⟩ := bind_eq_ok.mp h
  cases h
  rw [orRaise_eq_ok] at hend
  exact ⟨hend, rfl, rfl, rfl⟩

/-- Which road is stored for a solver route without a base route. -/
theorem persistRoute_extra {solver : SolverRoute} {id routeNo : Nat}
    (h : persistRoute context roads id routeNo (.extra solver) = .ok route) :
    (context.vehicleFact? solver.vehicleId).map (·.startLocationId) = some route.startLocationId ∧
      solver.stops.getLast?.map (·.locationId) = some route.endLocationId ∧
      route.routeGeometry = (roadOf roads solver.vehicleId).map (·.geometry) ∧
      route.routeMetrics = some (candidateMetrics [] (roadOf roads solver.vehicleId) none) := by
  obtain ⟨pair, hpair, h⟩ := bind_eq_ok.mp h
  obtain ⟨last, hlast, h⟩ := bind_eq_ok.mp h
  obtain ⟨stops, hs, h⟩ := bind_eq_ok.mp h
  cases h
  rw [orRaise_eq_ok] at hpair hlast
  refine ⟨?_, by rw [hlast]; rfl, rfl, rfl⟩
  rw [hpair, ← (vehicleFact?_vehicleId hpair).2]
  rfl

variable {column : JsonColumn} {place : UUID → Point}

/-- A route with a road that was built for its stops and at most one further place up to its end
agrees with it. -/
theorem stored_of_built {osrm : Osrm} {road : Road} {further : List UUID}
    (hbuilt : osrm.buildRoute (waypointsOf route further) = .ok road)
    (hone : further.length ≤ 1)
    (hend : (waypointsOf route further).getLast? = some route.endLocationId)
    (hgeometry : route.routeGeometry = some (road.row column).geometry)
    (hends : route.routeMetrics.bind (·.roadLegEndIndices) =
      some (road.row column).legEndIndices) :
    RoadStored column osrm road further route :=
  ⟨hbuilt, Osrm.buildRoute_along hbuilt, hone, hend, hgeometry, hends⟩

/-- A route without a road of its own agrees if it is an unchanged route that did. -/
theorem base_agrees_of_none {base : VehicleRoute} {solver : Option SolverRoute}
    {id routeNo : Nat} (h : persistRoute context roads id routeNo (.base base solver) = .ok route)
    (hbase : RoadAgrees column place base) (hnone : roadOf roads base.vehicleId = none) :
    RoadAgrees column place route := by
  obtain ⟨hend, hstart, hgeometry, hmetrics⟩ := persistRoute_base h
  have hbuilt := (persistRoute_ok h).1
  refine ⟨hbuilt.sequence, fun hprovider ↦ ?_⟩
  rw [hnone] at hgeometry hmetrics
  rw [hmetrics] at hprovider
  cases hunchanged : unchanged context base solver with
  | false =>
    rw [hunchanged] at hprovider
    cases hprovider
  | true =>
    rw [hunchanged, if_pos rfl] at hprovider hgeometry hmetrics
    obtain ⟨osrm, road, further, hplace, hstored⟩ := hbase.stored hprovider
    have hwaypoints : waypointsOf route further = waypointsOf base further := by
      rw [waypointsOf, waypointsOf, hstart, hbuilt.places, places_of_unchanged hunchanged]
    unfold endLocation? at hend
    rw [if_pos hunchanged, Option.some.injEq] at hend
    refine ⟨osrm, road, further, hplace, ?_, ?_, hstored.oneFurther, ?_, ?_, ?_⟩
    · rw [hwaypoints]
      exact hstored.built
    · rw [hwaypoints]
      exact hstored.along
    · rw [hwaypoints, ← hend]
      exact hstored.destination
    · rw [hgeometry]
      exact hstored.geometry
    · rw [hmetrics]
      exact hstored.ends

/-- A base route with a pass comes from the base plan and has stops or a solver route. -/
theorem mem_routeTasks_base {base : VehicleRoute} {solver : Option SolverRoute}
    (h : RouteTask.base base solver ∈ routeTasks context result) :
    base ∈ context.routes ∧ solver = lastWrite (solverRouteWrites result) base.vehicleId ∧
      ¬ (preservedStops context base = [] ∧ solver = none) := by
  rw [routeTasks, List.mem_append, List.mem_filterMap] at h
  rcases h with ⟨route, hroute, he⟩ | h
  · dsimp only at he
    split at he
    · cases he
    · next hne =>
      cases he
      exact ⟨hroute, rfl, hne⟩
  · obtain ⟨entry, -, he⟩ := List.mem_map.mp h
    cases he

/-- A base route whose road is built has stops. -/
theorem places_ne_nil {base : VehicleRoute} {solver : Option SolverRoute} {endLocationId : UUID}
    (hne : ¬ (preservedStops context base = [] ∧ solver = none))
    (hend : endLocation? context base solver = some endLocationId)
    (hraised : context.incidentType = .vehicleUnavailable →
      context.affectedRouteId = some base.id → context.incidentLocationId.isSome = true →
        RouteTask.places context (.base base solver) ≠ []) :
    RouteTask.places context (.base base solver) ≠ [] := by
  intro hnil
  cases hunchanged : unchanged context base solver with
  | true =>
    obtain ⟨hkept, hnone⟩ := preservedStops_of_unchanged hunchanged
    rw [places_of_unchanged hunchanged, List.map_eq_nil_iff] at hnil
    exact hne ⟨hkept.trans hnil, hnone⟩
  | false =>
    rcases endLocation?_cases hend hunchanged with
      ⟨-, he⟩ | ⟨-, ⟨htype, haffected, hplace⟩ | ⟨-, he⟩⟩
    · rw [hnil] at he
      cases he
    · exact hraised htype haffected (by rw [hplace]; rfl) hnil
    · rw [hnil] at he
      cases he

/-- A base route whose road is built agrees with it when it ends at the incident as it has to. -/
theorem base_agrees_of_built {osrm : Osrm} (hplace : osrm.place = place) {base : VehicleRoute}
    {solver : Option SolverRoute}
    {id routeNo : Nat} {waypoints : List UUID} {road : RoadRoute}
    (htask : RouteTask.base base solver ∈ routeTasks context result)
    (h : persistRoute context roads id routeNo (.base base solver) = .ok route)
    (hwaypoints : roadWaypoints context (.base base solver) =
      .ok (some (base.vehicleId, waypoints)))
    (hroad : osrm.provide column waypoints = .ok road)
    (hfound : roadOf roads base.vehicleId = some road)
    (hat : EndsAtIncidentOn context base solver) : RoadAgrees column place route := by
  obtain ⟨hend, hstart, hgeometry, hmetrics⟩ := persistRoute_base h
  have hbuilt := (persistRoute_ok h).1
  refine ⟨hbuilt.sequence, fun _ ↦ ?_⟩
  rcases roadWaypoints_base hwaypoints with ⟨hnone, -⟩ | ⟨hnew, hraised, he⟩
  · cases hnone
  obtain rfl := congrArg Prod.snd (Option.some.inj he)
  have hplaces := places_ne_nil (mem_routeTasks_base htask).2.2 hend hraised
  obtain ⟨hone, hlast⟩ := (waypoints_fit_iff hend hplaces hnew).mpr hat
  obtain ⟨found, hcall, rfl⟩ := Osrm.provide_ok hroad
  refine ⟨osrm, found, _, hplace, stored_of_built ?_ hone ?_ ?_ ?_⟩
  · rw [waypointsOf, hbuilt.places, hstart]
    exact hcall
  · rw [waypointsOf, hbuilt.places, List.getLast?_cons, hlast]
    rfl
  · rw [hgeometry, hfound]
    rfl
  · rw [hmetrics, hfound]
    rfl

/-- A solver route without a base route agrees with the road that was built for it. -/
theorem extra_agrees {solver : SolverRoute} {id routeNo : Nat}
    (h : persistRoute context roads id routeNo (.extra solver) = .ok route)
    (hroads : roadOf roads solver.vehicleId = none ∨ ∃ osrm : Osrm, ∃ waypoints road,
      osrm.place = place ∧
      roadWaypoints context (.extra solver) = .ok (some (solver.vehicleId, waypoints)) ∧
        osrm.provide column waypoints = .ok road ∧
          roadOf roads solver.vehicleId = some road) : RoadAgrees column place route := by
  obtain ⟨hstart, hend, hgeometry, hmetrics⟩ := persistRoute_extra h
  have hbuilt := (persistRoute_ok h).1
  refine ⟨hbuilt.sequence, fun hprovider ↦ ?_⟩
  rcases hroads with hnone | ⟨osrm, waypoints, road, hplace, hwaypoints, hroad, hfound⟩
  · rw [hmetrics, hnone] at hprovider
    cases hprovider
  · obtain ⟨pair, hpair, he⟩ := bind_eq_ok.mp hwaypoints
    cases he
    rw [orRaise_eq_ok] at hpair
    rw [hpair, Option.map_some, Option.some.injEq] at hstart
    have hplaces : RouteTask.places context (.extra solver) = solver.stops.map (·.locationId) :=
      List.nil_append _
    obtain ⟨found, hcall, rfl⟩ := Osrm.provide_ok hroad
    refine ⟨osrm, found, [], hplace, stored_of_built ?_ (Nat.zero_le 1) ?_ ?_ ?_⟩
    · rw [waypointsOf, hbuilt.places, hplaces, ← hstart, List.append_nil]
      exact hcall
    · rw [waypointsOf, hbuilt.places, hplaces, List.append_nil, List.getLast?_cons,
        List.getLast?_map, hend]
      rfl
    · rw [hgeometry, hfound]
      rfl
    · rw [hmetrics, hfound]
      rfl

/-- Every persisted route is made by the pass of its task. -/
theorem persistRoutes_passes {nextId routeNo : Nat} {tasks : List RouteTask}
    {routes : List VehicleRoute}
    (h : persistRoutes context roads nextId routeNo tasks = .ok routes) :
    List.Forall₂ (fun task route ↦ ∃ id no, persistRoute context roads id no task = .ok route)
      tasks routes := by
  induction tasks generalizing nextId routeNo routes with
  | nil =>
    cases h
    exact .nil
  | cons task rest ih =>
    obtain ⟨route, hr, h⟩ := bind_eq_ok.mp h
    obtain ⟨tail, ht, h⟩ := bind_eq_ok.mp h
    cases h
    exact .cons ⟨_, _, hr⟩ (ih ht)

/-- If the roads of the base plan agree with its routes, so do those of a candidate, which is
persisted without roads or with the roads of an OSRM server, where every affected route whose
road is built ends at the incident as it has to. -/
theorem persistCandidateRoutes_agrees {services : Services} {nextId : Nat}
    {routes : List VehicleRoute} (hbase : ∀ base ∈ context.routes, RoadAgrees column place base)
    (hprovider : ∀ build, services.buildRoute = some build →
      ∃ osrm : Osrm, osrm.place = place ∧ build = osrm.provide column)
    (hroads : roads = none ∨ buildCandidateRoadRoutes services context result = .ok roads ∧
      EndsAtIncident context result)
    (h : persistCandidateRoutes context result roads nextId = .ok routes)
    (hvehicles : (routes.map (·.vehicleId)).Nodup) :
    ∀ route ∈ routes, RoadAgrees column place route := by
  have hpasses := persistRoutes_passes h
  have hkeys : ((routeTasks context result).map (·.vehicleId)).Nodup := by
    have hsame := map_eq_map_of_forall₂
      (fun task route (hb : BuiltFrom context task route) ↦ hb.vehicleId.symm)
      (persistRoutes_ok h).1
    rw [hsame]
    exact hvehicles
  have hfound : ∀ task ∈ routeTasks context result, roadOf roads task.vehicleId = none ∨
      EndsAtIncident context result ∧ ∃ osrm : Osrm, ∃ waypoints road, osrm.place = place ∧
        roadWaypoints context task = .ok (some (task.vehicleId, waypoints)) ∧
        osrm.provide column waypoints = .ok road ∧ roadOf roads task.vehicleId = some road := by
    intro task ht
    rcases hroads with rfl | ⟨hbuild, hat⟩
    · exact .inl rfl
    unfold buildCandidateRoadRoutes at hbuild
    split at hbuild
    · cases hbuild
      exact .inl rfl
    · next build hservice =>
      obtain ⟨osrm, hplace, rfl⟩ := hprovider build hservice
      obtain ⟨pieces, hpieces, hbuild⟩ := bind_eq_ok.mp hbuild
      cases hbuild
      obtain ⟨own, hown, he⟩ := lastWrite_flatten_roads (mapM_eq_ok_iff.mp hpieces) hkeys ht
      rcases roadFor_ok hown with ⟨rfl, -⟩ | ⟨waypoints, road, hwaypoints, hroad, rfl⟩
      · exact .inl he
      · refine .inr ⟨hat, osrm, waypoints, road, hplace, hwaypoints, hroad, he.trans ?_⟩
        simp
  intro route hr
  obtain ⟨task, htask, id, no, hpass⟩ := exists_of_forall₂_right hpasses hr
  cases task with
  | base base solver =>
    obtain ⟨hbaseMem, hsolver, -⟩ := mem_routeTasks_base htask
    rcases hfound _ htask with
      hnone | ⟨hat, osrm, waypoints, road, hplace, hwaypoints, hroad, hroute⟩
    · exact base_agrees_of_none hpass (hbase base hbaseMem) hnone
    · have hon := hat base hbaseMem
      rw [← hsolver] at hon
      exact base_agrees_of_built hplace htask hpass hwaypoints hroad hroute hon
  | extra solver =>
    exact extra_agrees hpass ((hfound _ htask).imp_right And.right)

end PenroseRoute.Recovery
