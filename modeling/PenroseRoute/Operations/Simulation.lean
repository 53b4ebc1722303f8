import PenroseRoute.Routing.OsrmCorrect

/-!
# Stored roads

Models the `_road_data` of `backend/app/modules/operations/simulation.py`, which reads the road
geometry of a route before positions are interpolated along it, and says which stored roads it
accepts.
-/

namespace PenroseRoute.Operations

open PenroseRoute.Db PenroseRoute.Lib PenroseRoute.Routing

/-- Points and leg ends as `_road_data` wants them, `simulation.py:67`. -/
def roadIsValid (stopCount : Nat) (points : List Point) (ends : List Nat) : Bool :=
  2 ≤ points.length && points.all OsrmRoutingProvider.onGlobe && ends != [] &&
    (ends.length == stopCount || ends.length == stopCount + 1) &&
    ends.all (· < points.length) &&
    (ends.zip ends.tail).all (fun (left, right) ↦ left ≤ right) &&
    ends.getLast? == some (points.length - 1)

/-- `_road_data`, `simulation.py:58`. -/
def roadData (column : JsonColumn) (route : VehicleRoute) :
    Except AppError (Option (List Point × List Nat)) :=
  if route.routeMetrics.bind (·.geometryProvider) ≠ some "OSRM" then .ok none
  else
    match route.routeGeometry.bind column.read, route.routeMetrics.bind (·.roadLegEndIndices) with
    | some points, some ends =>
      if roadIsValid route.stops.length points ends then .ok (some (points, ends))
      else .error (.integration "ROAD_GEOMETRY_INVALID")
    | _, _ => .error (.integration "ROAD_GEOMETRY_INVALID")

/-- The start and the stops of a route in their order, and what comes behind them. -/
def waypointsOf (route : VehicleRoute) (further : List UUID) : List UUID :=
  route.startLocationId :: (route.stops.map (·.locationId) ++ further)

/-- A road that is stored for a route: it was built for the start and the stops of the route in
their order and at most one further place, it ends where the route does, and its legs end at the
stops. -/
structure RoadStored (column : JsonColumn) (osrm : Osrm) (road : Road) (further : List UUID)
    (route : VehicleRoute) : Prop where
  built : osrm.buildRoute (waypointsOf route further) = .ok road
  along : road.Along osrm (waypointsOf route further)
  oneFurther : further.length ≤ 1
  destination : (waypointsOf route further).getLast? = some route.endLocationId
  geometry : route.routeGeometry = some (column.write road.coordinates)
  ends : route.routeMetrics.bind (·.roadLegEndIndices) = some road.legEndIndices

/-- What is stored for a route agrees with what `_road_data` takes it for: its stops stand in
sequence, and its road geometry, if it has one, is that of a road along their places. -/
structure RoadAgrees (column : JsonColumn) (place : UUID → Point) (route : VehicleRoute) :
    Prop where
  sequence : (route.stops.map (·.sequenceNo)).Pairwise (· < ·)
  stored : route.routeMetrics.bind (·.geometryProvider) = some "OSRM" →
    ∃ osrm road further, osrm.place = place ∧ RoadStored column osrm road further route

variable {column : JsonColumn} {place : UUID → Point} {route : VehicleRoute}

private theorem zip_tail_le {ends : List Nat} (h : ends.Pairwise (· ≤ ·)) {pair : Nat × Nat}
    (hp : pair ∈ ends.zip ends.tail) : pair.1 ≤ pair.2 := by
  induction ends with
  | nil => cases hp
  | cons first rest ih =>
    cases rest with
    | nil => cases hp
    | cons second rest =>
      rw [List.tail_cons, List.zip_cons_cons] at hp
      rw [List.pairwise_cons] at h
      rcases List.mem_cons.mp hp with rfl | hp
      · exact h.1 second List.mem_cons_self
      · exact ih h.2 hp

/-- A stored road is accepted as it is. -/
theorem RoadStored.accepted {osrm : Osrm} {road : Road} {further : List UUID}
    (h : RoadStored column osrm road further route)
    (hprovider : route.routeMetrics.bind (·.geometryProvider) = some "OSRM") :
    roadData column route = .ok (some (road.coordinates, road.legEndIndices)) := by
  have hcount := h.along.ends.length_eq
  rw [waypointsOf, List.tail_cons, List.length_append, List.length_map] at hcount
  have hfurther := h.oneFurther
  have hlast := h.along.last
  have hvalid : roadIsValid route.stops.length road.coordinates road.legEndIndices = true := by
    simp only [roadIsValid, Bool.and_eq_true, decide_eq_true_eq, List.all_eq_true, bne_iff_ne,
      beq_iff_eq, Bool.or_eq_true]
    refine ⟨⟨⟨⟨⟨⟨h.along.points, h.along.onGlobe⟩, fun hnil ↦ ?_⟩, by omega⟩, h.along.inside⟩,
      fun pair hp ↦ ?_⟩, hlast⟩
    · rw [hnil] at hlast
      cases hlast
    · exact zip_tail_le h.along.sorted hp
  rw [roadData, if_neg (not_not.mpr hprovider), h.geometry, h.ends, Option.bind_some,
    column.read_write]
  dsimp only
  rw [if_pos hvalid]

/-- So `_road_data` never reports `ROAD_GEOMETRY_INVALID`. -/
theorem RoadAgrees.accepted (h : RoadAgrees column place route) :
    ∃ data, roadData column route = .ok data := by
  by_cases hprovider : route.routeMetrics.bind (·.geometryProvider) = some "OSRM"
  · obtain ⟨osrm, road, further, -, hstored⟩ := h.stored hprovider
    exact ⟨_, hstored.accepted hprovider⟩
  · exact ⟨none, if_pos hprovider⟩

end PenroseRoute.Operations
