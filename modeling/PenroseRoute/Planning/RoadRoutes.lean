import PenroseRoute.Operations.Simulation
import PenroseRoute.Planning.FinalizedRows

/-!
# Roads of a new plan

Models how `_generate` of `backend/app/modules/planning/workflow.py` builds the roads of a
result before the plan is written, and says that the written plan agrees with them.
-/

namespace PenroseRoute.Planning

open PenroseRoute.Db PenroseRoute.Lib PenroseRoute.Operations PenroseRoute.Optimization
open PenroseRoute.Recovery PenroseRoute.Routing

/-- `starts[vehicle_id]`, `workflow.py:102`. -/
def PlanningFacts.start? (facts : PlanningFacts) (vehicleId : UUID) : Option UUID :=
  lastWrite (facts.vehicleDriverPairs.map fun pair ↦ (pair.vehicleId, pair.startLocationId))
    vehicleId

/-- The waypoints of one route, `workflow.py:105`. -/
def waypointsFor (facts : PlanningFacts) (route : SolverRoute) : Except AppError (List UUID) := do
  let start ← orRaise (facts.start? route.vehicleId) (.uncaught "KeyError")
  let waypoints := start ::
    (route.stops.insertionSort fun a b ↦ a.sequenceNo ≤ b.sequenceNo).map (·.locationId)
  raiseFirst [(!waypoints.all facts.locations.contains, .uncaught "KeyError")]
  return waypoints

/-- The roads of a result, `workflow.py:98`. -/
def roadRoutes (buildRoute : Option (List UUID → Except AppError RoadRoute))
    (facts : PlanningFacts) (result : SolverResult) : Except AppError RoadRoutes :=
  match buildRoute with
  | none => .ok none
  | some buildRoute => do
    let roads ← result.routes.mapM fun route ↦ do
      let waypoints ← waypointsFor facts route
      let road ← buildRoute waypoints
      return (route.vehicleId, road)
    return some roads

/-- What `_generate` has checked of facts and a result before it writes a plan,
`workflow.py:56`. -/
structure Writable (facts : PlanningFacts) (result : SolverResult) : Prop where
  planned : validatePlanningFacts facts = []
  accepted : ∃ matrix input, buildSolverInput facts matrix = .ok input ∧
    SolverResultValidator.validate input result = []
  feasible : result.status = .feasible

variable {facts : PlanningFacts} {result : SolverResult} {roads : RoadRoutes} {db : Database}
  {activatedAt : Option Instant} {plan : DeliveryPlan} {column : JsonColumn} {place : UUID → Point}

/-- What is written can be written. -/
theorem Writable.finalizable (h : Writable facts result)
    (hplan : finalize db facts result activatedAt roads = .ok plan) :
    ∃ input, Finalizable facts input result roads := by
  obtain ⟨matrix, input, hinput, hvalid⟩ := h.accepted
  obtain ⟨horders, hvehicles⟩ := buildSolverInput_rows hinput
  obtain ⟨hroutes, -⟩ := finalize_ok hplan
  refine ⟨input, validatePlanningFacts_eq_nil.mp h.planned, horders, hvehicles,
    (validate_eq_nil result h.feasible).mp hvalid, fun route hr hnil ↦ ?_, ?_⟩
  · obtain ⟨made, -, hmade⟩ := exists_of_forall₂_left hroutes hr
    obtain ⟨pair, road, last, -, -, hlast, -⟩ := hmade.row
    rw [hnil] at hlast
    cases hlast
  · intro entries hentries
    obtain ⟨hraise, -⟩ := unit_bind_eq_ok.mp hplan
    rw [raiseFirst_cons_eq_ok, raiseFirst_cons_eq_ok, hentries, Option.any_some] at hraise
    exact (Bool.not_eq_false' ..).mp hraise.2.1

/-- A built road is that of its vehicle's route. -/
theorem roadRoutes_ok {build : List UUID → Except AppError RoadRoute}
    (h : roadRoutes (some build) facts result = .ok roads)
    (hvehicles : (result.routes.map (·.vehicleId)).Nodup) {route : SolverRoute}
    (hr : route ∈ result.routes) {road : Option RoadRoute}
    (hroad : finalizedRoad roads route.vehicleId = .ok road) :
    ∃ built waypoints, road = some built ∧
      waypointsFor facts route = .ok waypoints ∧ build waypoints = .ok built := by
  obtain ⟨entries, hentries, h⟩ := bind_eq_ok.mp h
  cases h
  obtain ⟨built, hbuilt, hroad⟩ := bind_eq_ok.mp hroad
  cases hroad
  rw [orRaise_eq_ok] at hbuilt
  obtain ⟨other, hother, hpair⟩ :=
    exists_of_forall₂_right (mapM_eq_ok_iff.mp hentries) (mem_of_lastWrite hbuilt)
  obtain ⟨waypoints, hwaypoints, hpair⟩ := bind_eq_ok.mp hpair
  obtain ⟨found, hfound, hpair⟩ := bind_eq_ok.mp hpair
  injection hpair with hpair
  obtain ⟨hid, rfl⟩ := Prod.mk.inj hpair
  rw [eq_of_key_eq hvehicles hother hr hid] at hwaypoints
  exact ⟨found, waypoints, rfl, hwaypoints, hfound⟩

namespace Finalizable

variable {input : SolverInput} {solverRoute : SolverRoute} {route : VehicleRoute}

/-- The waypoints of a solver route are the start and the stops of the route that is written. -/
theorem waypointsFor_eq (h : Finalizable facts input result roads)
    (hroute : FinalizedRoute facts roads solverRoute route)
    (hsequence : route.stops.map (·.sequenceNo) = List.range' 1 route.stops.length)
    {waypoints : List UUID} (hw : waypointsFor facts solverRoute = .ok waypoints) :
    waypoints = waypointsOf route [] := by
  obtain ⟨start, hstart, hw⟩ := bind_eq_ok.mp hw
  obtain ⟨-, hw⟩ := unit_bind_eq_ok.mp hw
  cases hw
  rw [orRaise_eq_ok] at hstart
  obtain ⟨pair, road, last, hpair, -, -, he⟩ := hroute.row
  obtain ⟨hp, hpid⟩ := h.plannable.pair?_eq_some.mp hpair
  have hfrom : route.startLocationId = start := by
    obtain ⟨pair', hp', hpair'⟩ := List.mem_map.mp (mem_of_lastWrite hstart)
    obtain ⟨hid, rfl⟩ := Prod.mk.inj hpair'
    rw [eq_of_key_eq h.plannable.vehicleIds hp' hp (hid.trans hpid.symm), he]
    rfl
  have hsorted : (solverRoute.stops.insertionSort fun a b ↦ a.sequenceNo ≤ b.sequenceNo) =
      solverRoute.stops := by
    refine List.Pairwise.insertionSort_eq (List.pairwise_map.mp ?_)
    rw [map_eq_map_of_forall₂ (fun x y (hs : FinalizedAs facts x y) ↦ hs.field.2.2.2.symm)
      hroute.stops, hsequence]
    exact (List.pairwise_lt_range').imp Nat.le_of_lt
  rw [hsorted, waypointsOf, List.append_nil, hfrom,
    map_eq_map_of_forall₂ (fun x y (hs : FinalizedAs facts x y) ↦ hs.field.2.2.1.symm) hroute.stops]

end Finalizable

/-- What is stored for a written plan agrees with its routes, with the roads of an OSRM server or
without any. -/
theorem finalize_agrees {build : Option (List UUID → Except AppError RoadRoute)}
    (h : Writable facts result) (hprovider : ∀ buildRoute, build = some buildRoute →
      ∃ osrm : Osrm, osrm.place = place ∧ buildRoute = osrm.provide column)
    (hroads : roadRoutes build facts result = .ok roads)
    (hplan : finalize db facts result activatedAt roads = .ok plan) :
    ∀ route ∈ plan.routes, RoadAgrees column place route := by
  intro route hr
  obtain ⟨input, hfinal⟩ := h.finalizable hplan
  have hcons := hfinal.consistent hplan
  obtain ⟨solverRoute, hsolver, hroute⟩ := exists_of_forall₂_right (finalize_ok hplan).1 hr
  refine ⟨?_, fun hosrm ↦ ?_⟩
  · rw [hcons.sequence route hr]
    exact List.pairwise_lt_range'
  obtain ⟨pair, road, last, -, hroad, -, he⟩ := hroute.row
  cases build with
  | none =>
    cases hroads
    cases hroad
    rw [he] at hosrm
    cases hosrm
  | some buildRoute =>
    obtain ⟨osrm, rfl, rfl⟩ := hprovider buildRoute rfl
    obtain ⟨built, waypoints, rfl, hw, hbuilt⟩ :=
      roadRoutes_ok hroads hfinal.routing.vehicles hsolver hroad
    rw [hfinal.waypointsFor_eq hroute (hcons.sequence route hr) hw] at hbuilt
    obtain ⟨road, hcall, rfl⟩ := Osrm.provide_ok hbuilt
    refine ⟨osrm, road, [], rfl, hcall, Osrm.buildRoute_along hcall, Nat.zero_le 1, ?_, ?_, ?_⟩
    · rw [waypointsOf, List.append_nil, List.getLast?_cons, List.getLast?_map,
        hcons.endsAt route hr]
      rfl
    · rw [he]
      rfl
    · rw [he]
      rfl

end PenroseRoute.Planning
