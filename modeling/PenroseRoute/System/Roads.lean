import Mathlib.Data.Rat.Encodable
import Mathlib.Logic.Equiv.List
import PenroseRoute.Planning.RoadRoutes
import PenroseRoute.Recovery.CandidateRoads
import PenroseRoute.Recovery.Inheritance
import PenroseRoute.System.FleetStatus
import PenroseRoute.System.RouteSources

/-!
# Roads over runs

What is stored of roads agrees with the routes in every state of a run, as long as no recovery
gives a broken down vehicle new stops that end away from the place of the breakdown: the road of
such a route goes back there, and its end location is that of its last stop.
-/

namespace PenroseRoute.Db

/-- What of a route a stored road is about. -/
def VehicleRoute.way (route : VehicleRoute) :
    UUID × UUID × Option String × Option RouteMetrics × List (UUID × Nat) :=
  (route.startLocationId, route.endLocationId, route.routeGeometry, route.routeMetrics,
    route.stops.map fun stop ↦ (stop.locationId, stop.sequenceNo))

end PenroseRoute.Db

namespace PenroseRoute.System

open PenroseRoute.Db PenroseRoute.Lib PenroseRoute.Operations PenroseRoute.Recovery
open PenroseRoute.Incidents PenroseRoute.Lifecycle PenroseRoute.Optimization
open PenroseRoute.Planning PenroseRoute.Routing
open StopExecutionService MerchantDelayWorkflow

/-- Before any execution: every plan is one that `_generate` has written, with the roads of an
OSRM server or without any. -/
structure Mapped (column : JsonColumn) (place : UUID → Point) (s : SysState) : Prop where
  initial : s.Initial
  generated : ∀ plan ∈ s.db.plans, ∃ db facts result build roads activatedAt written,
    Writable facts result ∧
      (∀ buildRoute, build = some buildRoute →
        ∃ osrm : Osrm, osrm.place = place ∧ buildRoute = osrm.provide column) ∧
      roadRoutes build facts result = .ok roads ∧
      finalize db facts result activatedAt roads = .ok written ∧ plan.routes = written.routes

/-- The provider of a run is an OSRM server or one without roads. -/
def ProvidesRoads (column : JsonColumn) (place : UUID → Point) : FleetAction → Prop
  | .transact (.continueRun _ services _) => ∀ build, services.buildRoute = some build →
    ∃ osrm : Osrm, osrm.place = place ∧ build = osrm.provide column
  | _ => True

/-- The context that a run is about to solve. -/
def solvedNext? (run : Run) : Option RecoveryContext :=
  match run.point with
  | .attempting context => some context
  | _ => none

/-- Where a run builds roads, which it does for an accepted result, every affected route whose road
is built ends at the incident as it has to. -/
def RoadsFit (s : SysState) : FleetAction → Prop
  | .transact (.continueRun index services _) => services.buildRoute.isSome = true →
    ∀ context ∈ (s.runs[index]?).bind solvedNext?,
      ∀ outcome ∈ (RecoveryWorkflow.orchestrate services context).toOption,
        outcome.solverResult.status = .feasible → outcome.validationIssues = [] →
          EndsAtIncident context outcome.solverResult
  | _ => True

/-- The run that goes on is looked up. -/
instance decidableRoadsFit (s : SysState) (index : Nat) (services : WorkflowServices)
    (now : Instant) : Decidable (RoadsFit s (.transact (.continueRun index services now))) :=
  inferInstanceAs (Decidable (services.buildRoute.isSome = true →
    ∀ context ∈ (s.runs[index]?).bind solvedNext?,
      ∀ outcome ∈ (RecoveryWorkflow.orchestrate services context).toOption,
        outcome.solverResult.status = .feasible → outcome.validationIssues = [] →
          EndsAtIncident context outcome.solverResult))

variable {settings : Settings} {s : SysState} {column : JsonColumn} {place : UUID → Point}
  {plan : DeliveryPlan} {route route' : VehicleRoute}

/-! ### What keeps a road -/

/-- The way of a route says whether its road agrees. -/
theorem roadAgrees_of_way (h : RoadAgrees column place route) (he : route'.way = route.way) :
    RoadAgrees column place route' := by
  obtain ⟨hstart, he⟩ := Prod.mk.inj he
  obtain ⟨hend, he⟩ := Prod.mk.inj he
  obtain ⟨hgeometry, he⟩ := Prod.mk.inj he
  obtain ⟨hmetrics, hstops⟩ := Prod.mk.inj he
  have hplaces := congrArg (List.map Prod.fst) hstops
  have hnumbers := congrArg (List.map Prod.snd) hstops
  simp only [List.map_map, Function.comp_def] at hplaces hnumbers
  have hwaypoints : ∀ further, waypointsOf route' further = waypointsOf route further := by
    intro further
    rw [waypointsOf, waypointsOf, hstart, hplaces]
  refine ⟨?_, fun hprovider ↦ ?_⟩
  · rw [hnumbers]
    exact h.sequence
  · rw [hmetrics] at hprovider
    obtain ⟨osrm, road, further, hplace, hstored⟩ := h.stored hprovider
    refine ⟨osrm, road, further, hplace, ?_, ?_, hstored.oneFurther, ?_, ?_, ?_⟩
    · rw [hwaypoints]
      exact hstored.built
    · rw [hwaypoints]
      exact hstored.along
    · rw [hwaypoints, hend]
      exact hstored.destination
    · rw [hgeometry]
      exact hstored.geometry
    · rw [hmetrics]
      exact hstored.ends

/-- Plans with the same ways have roads alike. -/
theorem roadsAgree_of_ways {plan' : DeliveryPlan}
    (h : ∀ route ∈ plan.routes, RoadAgrees column place route)
    (he : plan'.routes.map (·.way) = plan.routes.map (·.way)) :
    ∀ route ∈ plan'.routes, RoadAgrees column place route := by
  intro route hr
  have hmem : route.way ∈ plan.routes.map (·.way) := by
    rw [← he]
    exact List.mem_map_of_mem hr
  obtain ⟨old, hold, hsame⟩ := List.mem_map.mp hmem
  exact roadAgrees_of_way (h old hold) hsame.symm

/-- A transition keeps the ways of every plan. -/
theorem ways_movedPlan {base : DeliveryPlan} {stop : RouteStop} {target : StopStatus}
    {eventTime : Instant} :
    (movedPlan base route stop target eventTime plan).routes.map (·.way) =
      plan.routes.map (·.way) :=
  map_routes_movedPlan (f := fun stop ↦ (stop.locationId, stop.sequenceNo))
    (g := fun route stops ↦ (route.startLocationId, route.endLocationId, route.routeGeometry,
      route.routeMetrics, stops)) (fun _ _ _ _ ↦ rfl) (fun _ _ _ _ _ _ ↦ rfl) target

/-- A shift keeps them as well. -/
theorem ways_shiftPlan (context : MerchantIncidentContext) (updatedReadyAt : Instant) :
    (shiftPlan context updatedReadyAt plan).routes.map (·.way) = plan.routes.map (·.way) :=
  map_routes_shiftPlan (f := fun stop ↦ (stop.locationId, stop.sequenceNo))
    (g := fun route stops ↦ (route.startLocationId, route.endLocationId, route.routeGeometry,
      route.routeMetrics, stops)) (fun _ _ _ ↦ rfl) (fun _ _ _ ↦ rfl) context updatedReadyAt plan

/-- The routes of a context have the roads of its base plan. -/
theorem roadsAgree_of_read {db : Database} {incident : Incident} {scope : ReplanningScope}
    {operationalTime : Instant} {context : RecoveryContext}
    (hread : ReadFrom db incident plan scope operationalTime context)
    (h : ∀ route ∈ plan.routes, RoadAgrees column place route) :
    ∀ route ∈ context.routes, RoadAgrees column place route := by
  intro route hr
  rw [hread.routes] at hr
  obtain ⟨old, hold, rfl⟩ := List.mem_map.mp hr
  rw [List.mem_insertionSort] at hold
  have hagrees := h old hold
  have hsame : routeSnapshot old = old := by
    have hsorted : old.stops.Pairwise fun a b ↦ a.sequenceNo ≤ b.sequenceNo :=
      (List.pairwise_map.mp hagrees.sequence).imp Nat.le_of_lt
    rw [routeSnapshot, hsorted.insertionSort_eq]
  rw [hsame]
  exact hagrees

/-! ### Runs -/

/-- What is stored for every plan agrees with its routes. -/
def RoadsAgree (column : JsonColumn) (place : UUID → Point) (s : SysState) : Prop :=
  ∀ plan ∈ s.db.plans, ∀ route ∈ plan.routes, RoadAgrees column place route

/-- Every transaction that provides roads and fits leaves roads that agree. -/
theorem RoadsAgree.apply {action : Action} (h : RoadsAgree column place s)
    (hprovides : ProvidesRoads column place (.transact action))
    (hfits : RoadsFit s (.transact action)) :
    RoadsAgree column place (s.apply settings action) := by
  intro plan hp
  cases apply_source settings s action hp with
  | kept hold hroutes =>
    rw [hroutes]
    exact h _ hold
  | moved hold hc => exact roadsAgree_of_ways (h _ hold) ways_movedPlan
  | shifted hold hresolved hpropagates hid =>
    exact roadsAgree_of_ways (h _ hold) (ways_shiftPlan _ _)
  | @persisted index services now run _ hrun hpersisted =>
    obtain ⟨context, result, roads, hp⟩ := hpersisted
    obtain ⟨incident, base, -, hb, hread⟩ := materializeRecoveryContext_ok hp.read
    obtain ⟨nextId, hroutes⟩ := hp.persisted
    refine persistCandidateRoutes_agrees (roadsAgree_of_read hread (h base (plan?_mem hb).1))
      hprovides ?_ hroutes hp.vehicles
    rcases hp.built with hnone | ⟨hpoint, outcome, houtcome, rfl, hstatus, hissues, hbuilt⟩
    · exact .inl hnone
    · cases hservice : services.buildRoute with
      | none =>
        rw [buildCandidateRoadRoutes, hservice] at hbuilt
        cases hbuilt
        exact .inl rfl
      | some build =>
        refine .inr ⟨hbuilt, hfits ?_ context ?_ outcome ?_ hstatus hissues⟩
        · rw [hservice]
          rfl
        · rw [hrun, Option.bind_some, solvedNext?, hpoint]
          rfl
        · rw [houtcome]
          rfl

/-- So does every transaction of the fleet. -/
theorem RoadsAgree.applyFleet {action : FleetAction} (h : RoadsAgree column place s)
    (hprovides : ProvidesRoads column place action) (hfits : RoadsFit s action) :
    RoadsAgree column place (applyFleet settings s action) := by
  cases action with
  | transact action => exact h.apply hprovides hfits
  | updateVehicleStatus vehicleId target =>
    refine SysState.commit_ind h fun db hu ↦ ?_
    intro plan hp
    rw [(updateVehicleStatus_ok hu).2] at hp
    exact h plan hp

/-- In every state of a run from written plans whose recoveries build roads with an OSRM server or
not at all, and give no broken down vehicle new stops that end away from the breakdown: the road
that is stored for a route of any plan is that of its start, its stops in sequence and at most
one further place, ends at its end location, and is accepted by `_road_data`. -/
theorem stored_roads_agree (h : Reachable (applyFleet settings) (Mapped column place)
      (fun s action ↦ ProvidesRoads column place action ∧ RoadsFit s action) s) :
    ∀ plan ∈ s.db.plans, ∀ route ∈ plan.routes,
      RoadAgrees column place route ∧ ∃ data, roadData column route = .ok data := by
  have hagree : RoadsAgree column place s := by
    refine Reachable.invariant (I := RoadsAgree column place) (fun s hs plan hp ↦ ?_)
      (fun s action hs ha ↦ hs.applyFleet ha.1 ha.2) h
    obtain ⟨db, facts, result, build, roads, activatedAt, written, hwritable, hprovider, hroads,
      hfinal, hroutes⟩ := hs.generated plan hp
    rw [hroutes]
    exact finalize_agrees hwritable hprovider hroads hfinal
  exact fun plan hp route hr ↦ ⟨hagree plan hp route hr, (hagree plan hp route hr).accepted⟩

/-! ### A handover on a map with straight roads -/

/-- The coordinates of a point. -/
def pointJson (point : Point) : Json :=
  .array [.number (some point.1), .number (some point.2)]

/-- A leg that goes straight from place to place. -/
def straightLeg (source target : Point) : Json :=
  .object [("steps", .array [.object [("geometry", .object [("type", .string "LineString"),
    ("coordinates", .array [pointJson source, pointJson target])])]])]

/-- A server for a map on which all places are joined by straight roads of a hundred metres. -/
def straightServer : Server where
  nearest place := .ok (.object [("code", .string "Ok"), ("waypoints", .array [.object
    [("distance", .number (some 0)), ("location", pointJson place)]])])
  route places := .ok (.object [("code", .string "Ok"),
    ("waypoints", .array (places.map fun _ ↦ .object [("distance", .number (some 0))])),
    ("routes", .array [.object [("legs", .array (places.zipWith straightLeg places.tail)),
      ("distance", .number (some (100 * (places.length - 1)))),
      ("duration", .number (some (60 * (places.length - 1))))]])])

/-- The locations stand on the equator, one degree apart. -/
def equator : UUID → Point := fun locationId ↦ (locationId, 0)

/-- The provider for that map. -/
def straightOsrm : Osrm where
  near _ _ := false
  server := straightServer
  place := equator

/-- The texts of the three roads below. -/
def roadTexts : List (List Point × String) :=
  [([(1, 0), (1, 0)], "[[1.0,0.0],[1.0,0.0]]"),
    ([(2, 0), (1, 0), (2, 0)], "[[2.0,0.0],[1.0,0.0],[2.0,0.0]]"),
    ([(1, 0), (2, 0), (1, 0)], "[[1.0,0.0],[2.0,0.0],[1.0,0.0]]")]

/-- Any other road is written as a row of strokes. -/
def strokes (points : List Point) : String :=
  String.ofList (List.replicate (Encodable.encode points) '|')

/-- A column that writes the three roads as JSON. -/
def lineColumn : JsonColumn where
  write points := ((roadTexts.find? (·.1 == points)).map (·.2)).getD (strokes points)
  read text := ((roadTexts.find? (·.2 == text)).map (·.1)).or (Encodable.decode text.length)
  read_write points := by
    cases hfound : roadTexts.find? (·.1 == points) with
    | some entry =>
      have hentry : entry ∈ roadTexts := List.mem_of_find?_eq_some hfound
      have hpoints : entry.1 = points := eq_of_beq (List.find?_some hfound :)
      have hown : roadTexts.find? (·.2 == entry.2) = some entry := by
        simp only [roadTexts, List.mem_cons, List.not_mem_nil, or_false] at hentry
        rcases hentry with rfl | rfl | rfl <;> rfl
      rw [Option.map_some, Option.getD_some, hown, Option.map_some, Option.some_or, hpoints]
    | none =>
      have hnone : roadTexts.find? (·.2 == strokes points) = none := by
        rw [List.find?_eq_none]
        intro entry hentry hsame
        have hchars := congrArg String.toList (eq_of_beq hsame)
        rw [strokes, String.toList_ofList] at hchars
        have hopens : '[' ∈ entry.2.toList := by
          simp only [roadTexts, List.mem_cons, List.not_mem_nil, or_false] at hentry
          rcases hentry with rfl | rfl | rfl <;> decide
        rw [hchars] at hopens
        exact absurd (List.eq_of_mem_replicate hopens) (by decide)
      rw [Option.map_none, Option.getD_none, hnone, Option.map_none, Option.none_or, strokes,
        String.length_ofList, List.length_replicate, Encodable.encodek]

/-- The plan that serves order 10 with vehicle 20. -/
def oneServedPlan : DeliveryPlan :=
  (finalize ⟨[], [], [], [], [], [], [], [], 100⟩ twoOrderFacts oneServedResult (some 0)
    none).toOption.get (by decide +kernel)

/-- That plan is CURRENT, and there is a second vehicle. -/
def roadStart : SysState where
  db := {
    orders := [⟨10, "A", 738000, 1, 1, 1, 2, 0, 30, 0, timedelta 900, 30, 4, .planned, .normal⟩,
      ⟨11, "B", 738000, 1, 1, 1, 2, 0, 30, 0, timedelta 900, 30, 6, .planned, .normal⟩]
    vehicles := [⟨20, "V20", 5, .available, 1, 0⟩, ⟨21, "V21", 5, .available, 2, 0⟩]
    drivers := [⟨40, .available⟩, ⟨41, .available⟩]
    assignments := [⟨30, 20, 40, .planned, 0, none, none, none⟩,
      ⟨31, 21, 41, .planned, 0, none, none, none⟩]
    merchants := [1]
    plans := [oneServedPlan]
    incidents := []
    recoveryPlans := []
    nextId := 200 }
  runs := []
  limits := []
  approvals := []
  overtaken := []
  carried := []

/-- Order 10 is handed over to a vehicle after some seconds and delivered a minute later. -/
def handedOver (vehicleId arrival meters : Nat) : SolverResult where
  status := .feasible
  routes := [{
    vehicleId := vehicleId
    stops := [servedStop 10 1 .handover 0 arrival 30 4,
      servedStop 10 2 .delivery 1 (arrival + 90) 30 (-4)]
    distanceMeters := meters
    durationSeconds := arrival + 120 }]
  unassignedOrders := []
  totalDistanceMeters := meters
  totalDurationSeconds := arrival + 120
  diagnostic := none

/-- A solver that uses one vehicle as soon as it may, and roads from the straight map. -/
def straightServices (vehicleId arrival meters : Nat) : WorkflowServices where
  buildDistanceTimeMatrix locationIds := .ok (uniformMatrix locationIds)
  solve input :=
    if (input.vehicles.map (·.vehicleId)).contains vehicleId then
      handedOver vehicleId arrival meters
    else infeasible "No vehicle"
  buildRoute := some (straightOsrm.provide lineColumn)
  agent := none

/-- Vehicle 20 picks order 10 up and breaks down. -/
def breakDown : List FleetAction :=
  [.transact (.arrive 103 0), .transact (.startService 103 0), .transact (.complete 103 30000000),
    .transact (.reportUnavailable 738000 20 30000000 .recorded)]

/-- Its recovery is started. -/
def startBreakDown : FleetAction := .transact (.startRecovery 200 40000000)

/-- The places of the road scenario are mapped. -/
theorem roadStart_mapped : Mapped lineColumn equator roadStart where
  initial := ⟨rfl, rfl, rfl, rfl, rfl, rfl, rfl, by decide, by decide +kernel, by decide +kernel⟩
  generated plan hp := by
    rw [List.mem_singleton.mp hp]
    refine ⟨⟨[], [], [], [], [], [], [], [], 100⟩, twoOrderFacts, oneServedResult, none, none,
      some 0, oneServedPlan, ⟨by decide +kernel, ⟨twoPlaceMatrix, twoOrderInput, ?_, ?_⟩, rfl⟩,
      nofun, rfl, ?_, rfl⟩
    · rw [twoOrderInput]
      exact eq_ok_get _
    · decide +kernel
    · rw [oneServedPlan]
      exact eq_ok_get _

/-- The state in which the recovery of the breakdown has started. -/
def handoverState : SysState :=
  (breakDown ++ [startBreakDown]).foldl (applyFleet scenarioSettings) roadStart

/-- The next transaction of that recovery. -/
def goOn (vehicleId arrival meters : Nat) : FleetAction :=
  .transact (.continueRun 0 (straightServices vehicleId arrival meters) 40000000)

/-- Vehicle 21 takes order 10 over, once the scope is wide enough for it. -/
def takenOverState : SysState :=
  [goOn 21 60 200, goOn 21 60 200, goOn 21 60 200].foldl (applyFleet scenarioSettings)
    handoverState

/-- Roads are found for the way on. -/
theorem goOn_provides (vehicleId arrival meters : Nat) :
    ProvidesRoads lineColumn equator (goOn vehicleId arrival meters) :=
  fun _ h ↦ ⟨straightOsrm, rfl, (Option.some.inj h).symm⟩

/-- The actions before the recovery solves build no road. -/
theorem breakDown_allowed {action : FleetAction}
    (h : action ∈ breakDown ++ [startBreakDown] ∨ action = .updateVehicleStatus 20 .available)
    (s : SysState) :
    ProvidesRoads lineColumn equator action ∧ RoadsFit s action := by
  simp only [breakDown, List.cons_append, List.nil_append, List.mem_cons, List.not_mem_nil,
    or_false] at h
  rcases h with (rfl | rfl | rfl | rfl | rfl) | rfl <;> exact ⟨trivial, trivial⟩

/-- The scenario of the vehicle that is taken over is reached. -/
theorem takenOver_reachable : Reachable (applyFleet scenarioSettings) (Mapped lineColumn equator)
    (fun s action ↦ ProvidesRoads lineColumn equator action ∧ RoadsFit s action)
    takenOverState := by
  have hstarted : Reachable (applyFleet scenarioSettings) (Mapped lineColumn equator)
      (fun s action ↦ ProvidesRoads lineColumn equator action ∧ RoadsFit s action) handoverState :=
    Reachable.run (.init roadStart_mapped) _ fun s action ha ↦ breakDown_allowed (.inl ha) s
  refine .step _ (.step _ (.step _ hstarted ⟨goOn_provides 21 60 200, ?_⟩)
    ⟨goOn_provides 21 60 200, ?_⟩) ⟨goOn_provides 21 60 200, ?_⟩
  all_goals
    rw [goOn]
    decide +kernel

/-- The broken down vehicle keeps its completed pickup, and the other one gets the handover: both
have roads that agree. -/
theorem taken_over_roads_agree :
    (∀ plan ∈ takenOverState.db.plans, ∀ route ∈ plan.routes,
      RoadAgrees lineColumn equator route ∧ ∃ data, roadData lineColumn route = .ok data) ∧
    (takenOverState.db.plans.flatMap (·.routes)).map (fun route ↦
      (route.vehicleId, route.routeMetrics.bind (·.roadLegEndIndices))) =
        [(20, none), (20, some [1]), (21, some [1, 2])] :=
  ⟨stored_roads_agree takenOver_reachable, by decide +kernel⟩

/-! ### A vehicle that is available again -/

/-- The vehicle that broke down is made available again and keeps order 10: it delivers it, and its
road goes back to the place of the breakdown. -/
def repairedState : SysState :=
  (breakDown ++ [.updateVehicleStatus 20 .available, startBreakDown, goOn 20 0 100]).foldl
    (applyFleet scenarioSettings) roadStart

/-- No road from the first place to the second, and from there to itself, has these legs. -/
theorem no_road_returns {osrm : Osrm} {road : Road} (hplace : osrm.place = equator)
    (hbuilt : osrm.buildRoute [1, 1, 1, 2, 2] = .ok road) : road.legEndIndices ≠ [0, 0, 1, 2] := by
  intro hends
  have hmerged : OsrmRoutingProvider.mergeEqual equator [equator 1] [1, 1, 2, 2] =
      ([equator 1, equator 2], [0, 0, 1, 1]) := by decide +kernel
  rw [Osrm.buildRoute, hplace, OsrmRoutingProvider.buildRoute, hmerged] at hbuilt
  obtain ⟨_, _, ends, -, -, -, -, hindices⟩ := OsrmRoutingProvider.buildTour_ok hbuilt
  rw [hends] at hindices
  simp only [List.forall₂_cons] at hindices
  have hlast := hindices.2.2.1.symm.trans hindices.2.2.2.1
  cases hlast

/-- In this run the stored road of the vehicle is not that of its route. -/
theorem repaired_vehicle_road_disagrees :
    Reachable (applyFleet scenarioSettings) (Mapped lineColumn equator)
      (fun _ action ↦ ProvidesRoads lineColumn equator action) repairedState ∧
    ∃ plan ∈ repairedState.db.plans, ∃ route ∈ plan.routes,
      ¬ RoadAgrees lineColumn equator route := by
  constructor
  · refine Reachable.run (.init roadStart_mapped) _ fun s action ha ↦ ?_
    rw [List.mem_append, List.mem_cons, List.mem_cons, List.mem_singleton] at ha
    rcases ha with ha | rfl | rfl | rfl
    · exact (breakDown_allowed (.inl (List.mem_append_left _ ha)) s).1
    · trivial
    · trivial
    · exact goOn_provides 20 0 100
  · have hroute : ∃ plan ∈ repairedState.db.plans, ∃ route ∈ plan.routes,
        route.routeMetrics.bind (·.geometryProvider) = some "OSRM" ∧
        route.routeMetrics.bind (·.roadLegEndIndices) = some [0, 0, 1, 2] ∧
        route.endLocationId = 2 ∧ waypointsOf route [] = [1, 1, 1, 2] := by
      decide +kernel
    obtain ⟨plan, hp, route, hr, hprovider, hends, hend, hwaypoints⟩ := hroute
    refine ⟨plan, hp, route, hr, fun hagrees ↦ ?_⟩
    obtain ⟨osrm, road, further, hplace, hstored⟩ := hagrees.stored hprovider
    have hall : waypointsOf route further = [1, 1, 1, 2] ++ further := by
      rw [← hwaypoints, waypointsOf, waypointsOf, List.append_nil, List.cons_append]
    have hindices : road.legEndIndices = [0, 0, 1, 2] :=
      Option.some.inj (hstored.ends.symm.trans hends)
    have hcount := hstored.along.ends.length_eq
    have hlast := hstored.destination
    rw [hall, hindices] at hcount
    rw [hall, hend] at hlast
    obtain ⟨last, rfl⟩ : ∃ last, further = [last] := by
      refine List.length_eq_one_iff.mp ?_
      simp only [List.cons_append, List.nil_append, List.tail_cons, List.length_cons,
        List.length_nil] at hcount
      omega
    cases Option.some.inj hlast
    have hbuilt := hstored.built
    rw [hall] at hbuilt
    exact no_road_returns hplace hbuilt hindices

end PenroseRoute.System
