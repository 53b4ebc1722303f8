import PenroseRoute.Planning.FinalizedRows
import PenroseRoute.Recovery.CandidateRoads

/-!
# Planned ends of candidate routes

The planned end of a candidate route is that of its base route when nothing of it changes, the
departure from its last new stop, or the current time when it loses stops and gets none. The
first two are never before a new stop; whether they are before a kept one depends on the stops
that a rebuilt route keeps.
-/

namespace PenroseRoute.Recovery

open PenroseRoute.Db PenroseRoute.Lib PenroseRoute.Operations PenroseRoute.Optimization

variable {context : RecoveryContext} {result : SolverResult} {roads : RoadRoutes}
  {task : RouteTask} {route : VehicleRoute} {solver : Option SolverRoute}

/-- When the new stops of a route are over, in seconds from now. -/
def addedSeconds (solver : Option SolverRoute) : Nat :=
  ((solver.bind (·.stops.getLast?)).map (·.departureTimeSeconds)).getD 0

/-- The stops that a changed route keeps are planned to be over when its new stops are, or by now
if it gets none. -/
def KeptInTime (context : RecoveryContext) (result : SolverResult) : Prop :=
  ∀ route ∈ context.routes, unchanged context route (popped result route) = false →
    ∀ stop ∈ preservedStops context route,
      stop.plannedDepartureAt ≤ context.currentTime + timedelta (addedSeconds (popped result route))

/-- The stops of the context are gone through. -/
instance (context : RecoveryContext) (result : SolverResult) :
    Decidable (KeptInTime context result) :=
  inferInstanceAs (Decidable (∀ route ∈ context.routes, _ → ∀ stop ∈ _, _))

/-! ### The planned end -/

/-- A changed route ends when its new stops are over. -/
theorem plannedEnd_of_changed (h : unchanged context route solver = false) :
    plannedEnd context route solver = context.currentTime + timedelta (addedSeconds solver) := by
  have hlast : (solver.elim [] (·.stops)).getLast? = solver.bind (·.stops.getLast?) := by
    cases solver <;> rfl
  rw [plannedEnd, hlast, addedSeconds]
  cases solver.bind (·.stops.getLast?) with
  | none =>
    rw [h]
    exact (Int.add_zero _).symm
  | some last => rfl

/-- An unchanged route ends when its base route does. -/
theorem plannedEnd_of_unchanged (h : unchanged context route solver = true) :
    plannedEnd context route solver = route.plannedEndAt := by
  obtain ⟨-, rfl⟩ := preservedStops_of_unchanged h
  rw [plannedEnd, h]
  rfl

/-- No new stop of a route is over after its last one. -/
theorem solved_departs_by {input : SolverInput} (hdriven : RoutesDriven input result)
    {solver : SolverRoute} (hs : solver ∈ result.routes) {stop last : SolverStop}
    (hstop : stop ∈ solver.stops) (hlast : solver.stops.getLast? = some last) :
    stop.departureTimeSeconds ≤ last.departureTimeSeconds := by
  obtain ⟨vehicle, -, -, hdrive⟩ := hdriven.drivable solver hs
  exact reaches_left_by_last hdrive.reaches hstop hlast

/-- The seconds from now of a stop that is over earlier. -/
theorem fromNow_mono (currentTime : Instant) {a b : Nat} (h : a ≤ b) :
    currentTime + timedelta a ≤ currentTime + timedelta b := by
  refine Int.add_le_add_left (Int.mul_le_mul_of_nonneg_right ?_ (by decide)) _
  omega

/-! ### The stops -/

/-- Only kept stops can be over after a route whose new ones are not. -/
theorem BuiltFrom.departed_iff (h : BuiltFrom context task route)
    (hsolved : ∀ stop ∈ task.solved,
      context.currentTime + timedelta stop.departureTimeSeconds ≤ route.plannedEndAt) :
    (∀ stop ∈ route.stops, stop.plannedDepartureAt ≤ route.plannedEndAt) ↔
      ∀ stop ∈ task.kept context, stop.plannedDepartureAt ≤ route.plannedEndAt := by
  obtain ⟨copies, solved, hstops, hcopies, hnew⟩ := h.stops.parts
  rw [hstops]
  constructor
  · intro hall stop hs
    obtain ⟨copy, hc, hcopy⟩ := exists_of_forall₂_left hcopies hs
    have hsame := hcopy.field (·.plannedDepartureAt) fun _ _ _ _ ↦ rfl
    exact hsame ▸ hall copy (List.mem_append_left _ hc)
  · intro hall stop hs
    rcases List.mem_append.mp hs with hs | hs
    · obtain ⟨snapshot, hm, hcopy⟩ := exists_of_forall₂_right hcopies hs
      have hsame := hcopy.field (·.plannedDepartureAt) fun _ _ _ _ ↦ rfl
      exact hsame ▸ hall snapshot hm
    · obtain ⟨solverStop, hm, order, -, he⟩ := exists_of_forall₂_right hnew hs
      rw [he]
      exact hsolved solverStop hm

/-- A route that was made from a base route is over by its planned end exactly when it keeps its
stops in time. -/
theorem BuiltFrom.base_departed_iff {input : SolverInput} (hdriven : RoutesDriven input result)
    {base : VehicleRoute} (h : BuiltFrom context (.base base (popped result base)) route)
    (hbase : ∀ stop ∈ base.stops, stop.plannedDepartureAt ≤ base.plannedEndAt) :
    (∀ stop ∈ route.stops, stop.plannedDepartureAt ≤ route.plannedEndAt) ↔
      (unchanged context base (popped result base) = false → ∀ stop ∈ preservedStops context base,
        stop.plannedDepartureAt ≤
          context.currentTime + timedelta (addedSeconds (popped result base))) := by
  have hend : route.plannedEndAt = plannedEnd context base (popped result base) := by
    obtain ⟨road, endLocationId, he⟩ := h.row
    rw [he]
    rfl
  have hsolved : ∀ stop ∈ (RouteTask.base base (popped result base)).solved,
      context.currentTime + timedelta stop.departureTimeSeconds ≤ route.plannedEndAt := by
    intro stop hs
    cases hp : popped result base with
    | none =>
      rw [hp] at hs
      cases hs
    | some solver =>
      rw [hp] at hs hend
      have hmem := ((lastWrite_solverRouteWrites hdriven.vehicles _ _).mp hp).1
      have hlast := List.getLast?_eq_some_getLast (List.ne_nil_of_mem hs)
      have hadded : addedSeconds (some solver) =
          (solver.stops.getLast (List.ne_nil_of_mem hs)).departureTimeSeconds := by
        rw [addedSeconds, Option.bind_some]
        exact congrArg (fun last ↦ (last.map SolverStop.departureTimeSeconds).getD 0) hlast
      rw [hend, plannedEnd_of_changed rfl, hadded]
      exact fromNow_mono _ (solved_departs_by hdriven hmem hs hlast)
  rw [h.departed_iff hsolved, hend]
  cases hunchanged : unchanged context base (popped result base) with
  | true =>
    refine iff_of_true (fun stop hs ↦ ?_) nofun
    rw [plannedEnd_of_unchanged hunchanged]
    rw [RouteTask.kept, (preservedStops_of_unchanged hunchanged).1] at hs
    exact hbase stop hs
  | false =>
    rw [plannedEnd_of_changed hunchanged]
    exact ⟨fun hall _ ↦ hall, fun hall ↦ hall rfl⟩

/-- The route of a vehicle without a base route is over by its planned end. -/
theorem BuiltFrom.extra_departed {input : SolverInput} (hdriven : RoutesDriven input result)
    {solver : SolverRoute} (hs : solver ∈ result.routes)
    (h : BuiltFrom context (.extra solver) route) :
    ∀ stop ∈ route.stops, stop.plannedDepartureAt ≤ route.plannedEndAt := by
  obtain ⟨road, pair, last, -, hlast, he⟩ := h.row
  refine (h.departed_iff fun stop hstop ↦ ?_).mpr fun _ hkept ↦ by cases hkept
  rw [he]
  exact fromNow_mono _ (solved_departs_by hdriven hs hstop hlast)

/-- If every base route is over by its planned end, so is every persisted route exactly when the
changed ones keep their stops in time. -/
theorem persistCandidateRoutes_departed_iff {input : SolverInput} {nextId : Nat}
    {routes : List VehicleRoute}
    (hbase : ∀ route ∈ context.routes, ∀ stop ∈ route.stops,
      stop.plannedDepartureAt ≤ route.plannedEndAt)
    (hdriven : RoutesDriven input result)
    (hp : persistCandidateRoutes context result roads nextId = .ok routes) :
    (∀ route ∈ routes, ∀ stop ∈ route.stops, stop.plannedDepartureAt ≤ route.plannedEndAt) ↔
      KeptInTime context result := by
  have hbuilt := (persistRoutes_ok hp).1
  have hmem := @mem_routeTasks context result hdriven.vehicles
  constructor
  · intro hall base hb hchanged
    by_cases hskip : preservedStops context base = [] ∧ popped result base = none
    · rw [hskip.1]
      exact fun _ hs ↦ by cases hs
    · have hpass : RouteTask.base base (popped result base) ∈ routeTasks context result :=
        (hmem _).mpr (.inl ⟨base, hb, by rw [baseTask, if_neg hskip]⟩)
      obtain ⟨made, hmade, hfrom⟩ := exists_of_forall₂_left hbuilt hpass
      exact (hfrom.base_departed_iff hdriven (hbase base hb)).mp (hall made hmade) hchanged
  · intro hkept made hmade
    obtain ⟨task, hpass, hfrom⟩ := exists_of_forall₂_right hbuilt hmade
    rcases (hmem task).mp hpass with ⟨base, hb, htask⟩ | ⟨solver, hs, rfl⟩
    · rw [baseTask] at htask
      split at htask
      · cases htask
      · cases htask
        exact (hfrom.base_departed_iff hdriven (hbase base hb)).mpr (hkept base hb)
    · exact hfrom.extra_departed hdriven (List.mem_filter.mp hs).1

end PenroseRoute.Recovery
