import PenroseRoute.Operations.Simulation
import PenroseRoute.Recovery.CandidateRoutes

/-!
# Waypoints of candidate routes

`_build_candidate_road_routes` and `_persist_candidate_routes` each work out where a route goes.
This module says when they agree: the waypoints are the start and the stops that are persisted
and at most one further place, and the last of them is the end location that is persisted.
-/

namespace PenroseRoute.Recovery

open PenroseRoute.Db PenroseRoute.Lib PenroseRoute.Operations PenroseRoute.Optimization
open PenroseRoute.Routing

/-- An unchanged route whose road is kept as it is stored, `deterministic_workflow.py:543`. -/
def keepsRoad (context : RecoveryContext) (route : VehicleRoute) (solver : Option SolverRoute) :
    Prop :=
  unchanged context route solver = true ∧
    route.routeMetrics.bind (·.geometryProvider) = some "OSRM" ∧ route.routeGeometry.isSome = true

/-- Each of its parts is decided. -/
instance (context : RecoveryContext) (route : VehicleRoute) (solver : Option SolverRoute) :
    Decidable (keepsRoad context route solver) :=
  inferInstanceAs (Decidable (_ ∧ _ ∧ _))

/-- The last of the places at which the row of a route ends on its own: its new stops, or all of
its stops when it is unchanged. -/
def ownEnd (context : RecoveryContext) (route : VehicleRoute) (solver : Option SolverRoute) :
    Option UUID :=
  if unchanged context route solver then route.stops.getLast?.map (·.locationId)
  else (solver.elim [] (·.stops)).getLast?.map (·.locationId)

/-- Where a broken down vehicle has its road built anew, the last stop that the route ends with is
at the place of the breakdown. -/
def EndsAtIncidentOn (context : RecoveryContext) (route : VehicleRoute)
    (solver : Option SolverRoute) : Prop :=
  context.incidentType = .vehicleUnavailable → context.affectedRouteId = some route.id →
    ¬ keepsRoad context route solver → ∀ place ∈ context.incidentLocationId,
      ∀ locationId ∈ ownEnd context route solver, locationId = place

/-- The same for all routes of a context and a result. -/
def EndsAtIncident (context : RecoveryContext) (result : SolverResult) : Prop :=
  ∀ route ∈ context.routes,
    EndsAtIncidentOn context route (lastWrite (solverRouteWrites result) route.vehicleId)

/-- Locations are compared. -/
instance (context : RecoveryContext) (route : VehicleRoute) (solver : Option SolverRoute) :
    Decidable (EndsAtIncidentOn context route solver) :=
  inferInstanceAs (Decidable (context.incidentType = .vehicleUnavailable →
    context.affectedRouteId = some route.id → ¬ keepsRoad context route solver →
      ∀ place ∈ context.incidentLocationId, ∀ locationId ∈ ownEnd context route solver,
        locationId = place))

/-- The routes of the context are gone through. -/
instance (context : RecoveryContext) (result : SolverResult) :
    Decidable (EndsAtIncident context result) :=
  inferInstanceAs (Decidable (∀ route ∈ context.routes, EndsAtIncidentOn context route _))

/-- The places of the stops that a pass persists. -/
def RouteTask.places (context : RecoveryContext) (task : RouteTask) : List UUID :=
  (task.kept context).map (·.locationId) ++ task.solved.map (·.locationId)

/-- The waypoint at the place of the breakdown, `deterministic_workflow.py:555`. -/
def toIncident (context : RecoveryContext) (route : VehicleRoute) (places : List UUID) :
    List UUID :=
  if context.incidentType = .vehicleUnavailable ∧ context.affectedRouteId = some route.id then
    context.incidentLocationId.toList.filter (some · != places.getLast?)
  else []

/-- The waypoint at the old end of an unchanged route, `deterministic_workflow.py:558`. -/
def toEnd (context : RecoveryContext) (route : VehicleRoute) (solver : Option SolverRoute)
    (places : List UUID) : List UUID :=
  if unchanged context route solver = true ∧ some route.endLocationId ≠ places.getLast? then
    [route.endLocationId]
  else []

variable {context : RecoveryContext} {result : SolverResult} {route : VehicleRoute}
  {solver : Option SolverRoute}

/-- The waypoints of a base route whose road is built. -/
theorem roadWaypoints_base {entry : Option (UUID × List UUID)}
    (h : roadWaypoints context (.base route solver) = .ok entry) :
    (entry = none ∧ keepsRoad context route solver) ∨
      ¬ keepsRoad context route solver ∧
        (context.incidentType = .vehicleUnavailable → context.affectedRouteId = some route.id →
          context.incidentLocationId.isSome = true →
            RouteTask.places context (.base route solver) ≠ []) ∧
        entry = some (route.vehicleId, route.startLocationId ::
          (RouteTask.places context (.base route solver) ++
            (toIncident context route (RouteTask.places context (.base route solver)) ++
              toEnd context route solver (RouteTask.places context (.base route solver))))) := by
  unfold roadWaypoints at h
  dsimp only at h
  split at h
  · next hkeeps =>
    cases h
    exact .inl ⟨rfl, hkeeps⟩
  · next hkeeps =>
    obtain ⟨hraise, h⟩ := unit_bind_eq_ok.mp h
    injection h with h
    refine .inr ⟨hkeeps, fun htype haffected hplace hnil ↦ ?_, ?_⟩
    · have hempty : ((preservedStops context route).map (·.locationId) ++
          (solver.elim [] (·.stops)).map (·.locationId)).isEmpty = true :=
        List.isEmpty_iff.mpr hnil
      simp [htype, haffected, hplace, hempty] at hraise
    rw [← h, toIncident, toEnd, List.append_assoc, List.cons_append]
    simp only [Bool.and_eq_true, beq_iff_eq]
    rfl


/-! ### The end of a route -/

/-- An unchanged route keeps all of its stops. -/
theorem preservedStops_of_unchanged (h : unchanged context route solver = true) :
    preservedStops context route = route.stops ∧ solver = none := by
  rw [unchanged, Bool.and_eq_true, Option.isNone_iff_eq_none, Bool.not_eq_true'] at h
  exact ⟨by rw [preservedStops, if_neg (Bool.not_eq_true _ ▸ h.2)], h.1⟩

/-- The places of an unchanged route are those of its stops. -/
theorem places_of_unchanged (h : unchanged context route solver = true) :
    RouteTask.places context (.base route solver) = route.stops.map (·.locationId) := by
  obtain ⟨hkept, rfl⟩ := preservedStops_of_unchanged h
  rw [RouteTask.places, RouteTask.kept, hkept]
  exact List.append_nil _

/-- A route with places ends at the last of them, unless it is unchanged or ends where the vehicle
broke down. -/
theorem endLocation?_cases {endLocationId : UUID}
    (h : endLocation? context route solver = some endLocationId)
    (hchanged : unchanged context route solver = false) :
    ((solver.elim [] (·.stops)) ≠ [] ∧
        (RouteTask.places context (.base route solver)).getLast? = some endLocationId) ∨
      (solver.elim [] (·.stops)) = [] ∧
        ((context.incidentType = .vehicleUnavailable ∧ context.affectedRouteId = some route.id ∧
            context.incidentLocationId = some endLocationId) ∨
          ¬ (context.incidentType = .vehicleUnavailable ∧
              context.affectedRouteId = some route.id ∧
                context.incidentLocationId.isSome = true) ∧
            (RouteTask.places context (.base route solver)).getLast? = some endLocationId) := by
  unfold endLocation? at h
  rw [hchanged, if_neg Bool.false_ne_true] at h
  have hplaces : (RouteTask.places context (.base route solver)).getLast? =
      ((solver.elim [] (·.stops)).map (·.locationId)).getLast?.or
        ((preservedStops context route).map (·.locationId)).getLast? := by
    rw [RouteTask.places, List.getLast?_append]
    rfl
  rw [hplaces]
  split at h
  · next last hlast =>
    refine .inl ⟨fun hnil ↦ ?_, ?_⟩
    · rw [hnil] at hlast
      cases hlast
    · rw [List.getLast?_map, hlast]
      exact h
  · next hnone =>
    have hnil := List.getLast?_eq_none_iff.mp hnone
    refine .inr ⟨hnil, ?_⟩
    split at h
    · next hbroken => exact .inl ⟨hbroken.1, hbroken.2.1, h⟩
    · next hbroken =>
      refine .inr ⟨hbroken, ?_⟩
      rw [hnil, List.map_nil, List.getLast?_nil, Option.none_or, List.getLast?_map]
      exact h

/-- A vehicle goes on to the place of the breakdown unless it is there. -/
theorem toIncident_cases {places : List UUID} {last : UUID} (h : places.getLast? = some last) :
    (toIncident context route places = [] ∧ (context.incidentType = .vehicleUnavailable →
        context.affectedRouteId = some route.id → ∀ place ∈ context.incidentLocationId,
          last = place)) ∨
      ∃ place, context.incidentType = .vehicleUnavailable ∧
        context.affectedRouteId = some route.id ∧ context.incidentLocationId = some place ∧
          last ≠ place ∧ toIncident context route places = [place] := by
  unfold toIncident
  split
  · next hbroken =>
    cases hplace : context.incidentLocationId with
    | none => exact .inl ⟨rfl, fun _ _ _ hm ↦ by cases hm⟩
    | some place =>
      rw [h]
      by_cases hsame : last = place
      · refine .inl ⟨by simp [hsame], fun _ _ other hm ↦ ?_⟩
        rw [hsame]
        exact Option.some.inj hm
      · refine .inr ⟨place, hbroken.1, hbroken.2, rfl, hsame, ?_⟩
        simpa using fun he ↦ hsame he.symm
  · next hbroken => exact .inl ⟨rfl, fun htype haffected ↦ absurd ⟨htype, haffected⟩ hbroken⟩

/-- An unchanged route goes on to its old end unless it is there. -/
theorem toEnd_cases {places : List UUID} {last : UUID} (h : places.getLast? = some last) :
    (toEnd context route solver places = [] ∧
        (unchanged context route solver = true → route.endLocationId = last)) ∨
      unchanged context route solver = true ∧ route.endLocationId ≠ last ∧
        toEnd context route solver places = [route.endLocationId] := by
  unfold toEnd
  rw [h]
  split
  · next hend => exact .inr ⟨hend.1, fun he ↦ hend.2 (congrArg some he), rfl⟩
  · next hend =>
    refine .inl ⟨rfl, fun hunchanged ↦ ?_⟩
    by_contra hne
    exact hend ⟨hunchanged, fun he ↦ hne (Option.some.inj he)⟩

/-- The end that a row has on its own is the last place of its stops. -/
theorem ownEnd_cases {last : UUID}
    (h : (RouteTask.places context (.base route solver)).getLast? = some last) :
    (ownEnd context route solver = some last ∧
        (unchanged context route solver = true ∨ (solver.elim [] (·.stops)) ≠ [])) ∨
      ownEnd context route solver = none ∧ unchanged context route solver = false ∧
        (solver.elim [] (·.stops)) = [] := by
  unfold ownEnd
  split
  · next hunchanged =>
    rw [places_of_unchanged hunchanged, List.getLast?_map] at h
    exact .inl ⟨h, .inl hunchanged⟩
  · next hchanged =>
    rw [Bool.not_eq_true] at hchanged
    by_cases hnil : (solver.elim [] (·.stops)) = []
    · exact .inr ⟨by rw [hnil]; rfl, hchanged, hnil⟩
    · refine .inl ⟨?_, .inr hnil⟩
      have hmap : (solver.elim [] (·.stops)).map (·.locationId) ≠ [] := by
        rwa [ne_eq, List.map_eq_nil_iff]
      rw [RouteTask.places, List.getLast?_append, RouteTask.solved,
        List.getLast?_eq_some_getLast hmap, Option.some_or] at h
      rw [← List.getLast?_map, List.getLast?_eq_some_getLast hmap]
      exact h

/-- The waypoints of a base route whose road is built go on from its stops by at most one place
to the end that is persisted, exactly when the route ends at the incident as it has to. -/
theorem waypoints_fit_iff {endLocationId : UUID}
    (hend : endLocation? context route solver = some endLocationId)
    (hplaces : RouteTask.places context (.base route solver) ≠ [])
    (hbuilt : ¬ keepsRoad context route solver) :
    ((toIncident context route (RouteTask.places context (.base route solver)) ++
        toEnd context route solver (RouteTask.places context (.base route solver))).length ≤ 1 ∧
      (RouteTask.places context (.base route solver) ++
        (toIncident context route (RouteTask.places context (.base route solver)) ++
          toEnd context route solver (RouteTask.places context (.base route solver)))).getLast? =
            some endLocationId) ↔
      EndsAtIncidentOn context route solver := by
  have hlast := List.getLast?_eq_some_getLast hplaces
  set places := RouteTask.places context (.base route solver) with hp
  set last := places.getLast hplaces
  have hkeptEnd : unchanged context route solver = true → endLocationId = route.endLocationId := by
    intro hunchanged
    unfold endLocation? at hend
    rw [if_pos hunchanged] at hend
    exact (Option.some.inj hend).symm
  rw [List.getLast?_append, hlast]
  rcases @toIncident_cases context route _ _ hlast with
    ⟨hstays, hthere⟩ | ⟨place, htype, haffected, hplace, hne, hgoes⟩
  · refine iff_of_true ?_ fun htype haffected _ place hm locationId hown ↦ ?_
    · rw [hstays, List.nil_append]
      rcases @toEnd_cases context route solver _ _ hlast with
        ⟨hstop, hown⟩ | ⟨hunchanged, -, hgo⟩
      · rw [hstop]
        refine ⟨Nat.zero_le 1, congrArg some ?_⟩
        cases hunchanged : unchanged context route solver with
        | true => rw [hkeptEnd hunchanged, hown hunchanged]
        | false =>
          rcases endLocation?_cases hend hunchanged with
            ⟨-, he⟩ | ⟨-, ⟨htype, haffected, hplace⟩ | ⟨-, he⟩⟩
          · exact Option.some.inj (hlast.symm.trans he)
          · exact hthere htype haffected endLocationId hplace
          · exact Option.some.inj (hlast.symm.trans he)
      · rw [hgo, hkeptEnd hunchanged]
        exact ⟨Nat.le_refl 1, rfl⟩
    · rcases ownEnd_cases hlast with ⟨hlocation, -⟩ | ⟨hnone, -⟩
      · rw [hlocation] at hown
        rw [← Option.some.inj hown]
        exact hthere htype haffected place hm
      · rw [hnone] at hown
        cases hown
  · rcases ownEnd_cases hlast with ⟨hlocation, hcase⟩ | ⟨hnone, hchanged, hnil⟩
    · refine iff_of_false (fun hfit ↦ ?_) fun hat ↦
        hne (hat htype haffected hbuilt place hplace last hlocation)
      rw [hgoes] at hfit
      rcases @toEnd_cases context route solver _ _ hlast with
        ⟨hstop, hown⟩ | ⟨-, -, hgo⟩
      · rw [hstop] at hfit
        have hplaceEnd : place = endLocationId := Option.some.inj hfit.2
        cases hunchanged : unchanged context route solver with
        | true =>
          rw [hkeptEnd hunchanged, hown hunchanged] at hplaceEnd
          exact hne hplaceEnd.symm
        | false =>
          have hnew := hcase.resolve_left (by rw [hunchanged]; exact Bool.false_ne_true)
          rcases endLocation?_cases hend hunchanged with ⟨-, he⟩ | ⟨hnil, -⟩
          · exact hne ((Option.some.inj (hlast.symm.trans he)).trans hplaceEnd.symm)
          · exact hnew hnil
      · rw [hgo] at hfit
        exact absurd hfit.1 (Nat.not_succ_le_self 1)
    · refine iff_of_true ?_ fun _ _ _ _ _ locationId hown ↦ ?_
      · have hstop : toEnd context route solver places = [] := by
          rw [toEnd, if_neg fun h ↦ Bool.false_ne_true (hchanged.symm.trans h.1)]
        rw [hgoes, hstop]
        refine ⟨Nat.le_refl 1, congrArg some ?_⟩
        rcases endLocation?_cases hend hchanged with
          ⟨hnew, -⟩ | ⟨-, ⟨-, -, he⟩ | ⟨hneither, -⟩⟩
        · exact absurd hnil hnew
        · rw [hplace] at he
          exact Option.some.inj he
        · exact absurd ⟨htype, haffected, by rw [hplace]; rfl⟩ hneither
      · rw [hnone] at hown
        cases hown

end PenroseRoute.Recovery
