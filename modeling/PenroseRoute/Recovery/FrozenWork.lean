import PenroseRoute.Recovery.StopRules

/-!
# The copies of kept stops

What a candidate makes of a stop that it keeps: one stop of the same vehicle with the same
content, whose precedence names the copy of the stop that the original's precedence names.
-/

namespace PenroseRoute.Recovery

open PenroseRoute.Db PenroseRoute.Lib PenroseRoute.Operations PenroseRoute.Optimization

/-- A copy with its precedence: it names the copy of the predecessor. -/
structure CopiedIn (stops copies : List RouteStop) (stop copy : RouteStop) : Prop where
  copyOf : CopyOf stop copy
  first : stop.precedenceStopId = none → copy.precedenceStopId = none
  follows : ∀ id, stop.precedenceStopId = some id → ∃ origin ∈ stops, origin.id = id ∧
    ∃ originCopy ∈ copies, CopyOf origin originCopy ∧ copy.precedenceStopId = some originCopy.id

/-- The candidate has a stop exactly once on the route of its vehicle, as a copy. -/
def KeptOnce (candidate : DeliveryPlan) (route : VehicleRoute) (stop : RouteStop) :
    Prop :=
  ∃ own ∈ candidate.routes, ∃ copy ∈ own.stops, own.vehicleId = route.vehicleId ∧
    CopiedIn route.stops own.stops stop copy ∧
    ∀ other ∈ candidate.routes, ∀ twin ∈ other.stops, other.vehicleId = route.vehicleId →
      twin.orderId = stop.orderId → twin.stopType = stop.stopType → other = own ∧ twin = copy

/-- What is copied among some stops is copied among more. -/
theorem CopiedIn.mono {stops stops' copies copies' : List RouteStop} {stop copy : RouteStop}
    (h : CopiedIn stops copies stop copy) (hs : stops ⊆ stops') (hc : copies ⊆ copies') :
    CopiedIn stops' copies' stop copy := by
  refine ⟨h.copyOf, h.first, fun id hid ↦ ?_⟩
  obtain ⟨origin, ho, hoid, originCopy, hcopy, hrest⟩ := h.follows id hid
  exact ⟨origin, hs ho, hoid, originCopy, hc hcopy, hrest⟩

/-- Linked stops are copied with their precedences. -/
theorem copiedIn_copyPreserved {snapshots copies preserved : List RouteStop}
    (hcopies : List.Forall₂ CopyOf snapshots copies)
    (hids : ((snapshots ++ preserved).map (·.id)).Nodup)
    (h : EachAfter OriginBefore snapshots preserved) (nextId sequence : Nat) :
    ∀ stop ∈ preserved, ∃ copy ∈ copyPreserved nextId sequence (copiedPairs snapshots copies)
      preserved, CopiedIn (snapshots ++ preserved) (copies ++ copyPreserved nextId sequence
        (copiedPairs snapshots copies) preserved) stop copy := by
  induction preserved generalizing snapshots copies nextId sequence with
  | nil => exact fun stop hs ↦ (by cases hs)
  | cons snapshot rest ih =>
    rw [copyPreserved, ← copiedPairs_concat hcopies snapshot { snapshot with
      id := nextId
      sequenceNo := sequence + 1
      precedenceStopId := snapshot.precedenceStopId.bind
        (lastWrite (copiedPairs snapshots copies)) }]
    rw [List.forall_mem_cons]
    refine ⟨⟨_, List.mem_cons_self, rfl, fun hn ↦ ?_, fun id hid ↦ ?_⟩, fun stop hs ↦ ?_⟩
    · dsimp only
      rw [hn, Option.bind_none]
    · have hhead := h.1
      rw [OriginBefore] at hhead
      split at hhead
      · obtain ⟨origin, ho, hlink, -, -⟩ := hhead
        rw [List.map_append] at hids
        obtain ⟨copy, hcopy, hof, hcopied⟩ :=
          copied_of_mem hcopies (List.nodup_append.mp hids).1 ho
        rw [hlink, Option.some.injEq] at hid
        refine ⟨origin, List.mem_append_left _ ho, hid, copy, List.mem_append_left _ hcopy, hof, ?_⟩
        dsimp only
        rw [hlink, Option.bind_some, hcopied]
      · rw [hhead] at hid
        cases hid
    · have hmore : List.Forall₂ CopyOf (snapshots ++ [snapshot]) (copies ++ [{ snapshot with
          id := nextId
          sequenceNo := sequence + 1
          precedenceStopId := snapshot.precedenceStopId.bind
            (lastWrite (copiedPairs snapshots copies)) }]) :=
        List.rel_append hcopies (.cons rfl .nil)
      obtain ⟨copy, hcopy, hin⟩ := ih hmore (by rwa [List.append_assoc]) h.2 (nextId + 1)
        (sequence + 1) stop hs
      rw [List.append_assoc, List.append_assoc] at hin
      exact ⟨copy, List.mem_cons_of_mem _ hcopy, hin⟩

/-- A pass copies what it keeps. -/
theorem copiedIn_persistRoute {context : RecoveryContext} {roads : RoadRoutes} {id routeNo : Nat}
    {task : RouteTask} {route : VehicleRoute}
    (h : persistRoute context roads id routeNo task = .ok route)
    (hids : ((task.kept context).map (·.id)).Nodup)
    (hlinked : EachAfter OriginBefore [] (task.kept context)) :
    ∀ stop ∈ task.kept context, ∃ copy ∈ route.stops,
      CopiedIn (task.kept context) route.stops stop copy := by
  intro stop hs
  obtain ⟨solved, -, hstops⟩ := bind_eq_ok.mp (persistRoute_stops h)
  injection hstops with hstops
  obtain ⟨copy, hcopy, hin⟩ := copiedIn_copyPreserved .nil hids hlinked (id + 1) 0 stop hs
  rw [← hstops]
  exact ⟨copy, List.mem_append_left _ hcopy,
    hin.mono (List.Subset.refl _) (List.subset_append_left _ _)⟩

variable {db db₁ : Database} {incident : Incident} {base plan : DeliveryPlan}
  {scope : ReplanningScope} {operationalTime : Instant} {context : RecoveryContext}
  {result : SolverResult}

/-- A route that keeps a stop makes a route of the candidate. -/
theorem baseTask_of_preserved {route : VehicleRoute} {stop : RouteStop}
    (hs : stop ∈ preservedStops context route) :
    baseTask context result route = some (.base route (popped result route)) := by
  rw [baseTask, if_neg]
  intro hc
  rw [hc.1] at hs
  cases hs

/-- A candidate keeps every kept stop of its executed and linked base plan. -/
theorem Created.keptOnce (h : Created db₁ context result plan)
    (hread : ReadFrom db incident base scope operationalTime context)
    (hexecuted : ∀ route ∈ base.routes, route.Executed)
    (hlinked : ∀ route ∈ base.routes, route.WellLinked db)
    (hv : (result.routes.map (·.vehicleId)).Nodup) {route : VehicleRoute}
    (hr : route ∈ base.routes) {stop : RouteStop} (hs : stop ∈ preservedStops context route) :
    KeptOnce plan route stop := by
  have hown : route ∈ context.routes :=
    (hread.mem_routes route).mpr ⟨route, hr, routeSnapshot_of_executed (hexecuted route hr)⟩
  have ht : RouteTask.base route (popped result route) ∈ routeTasks context result :=
    (mem_routeTasks hv _).mpr (.inl ⟨route, hown, baseTask_of_preserved hs⟩)
  have hkept := keptWell hread hexecuted hlinked ht
  obtain ⟨roads, hpersisted⟩ := h.persisted
  obtain ⟨own, hmem, id, no, hpass⟩ := exists_of_forall₂_left (persistRoutes_each hpersisted) ht
  have hvehicle : own.vehicleId = route.vehicleId := (persistRoute_ok hpass).1.vehicleId
  obtain ⟨copy, hcopy, hin⟩ := copiedIn_persistRoute hpass hkept.ids hkept.linked stop hs
  have hsub : preservedStops context route ⊆ route.stops :=
    fun other ho ↦ (mem_preservedStops.mp ho).1
  refine ⟨own, hmem, copy, hcopy, hvehicle, hin.mono hsub (List.Subset.refl _), ?_⟩
  intro other ho twin htwin hsame horder htype
  have he : other = own := eq_of_key_eq h.vehicles_nodup ho hmem (hsame.trans hvehicle.symm)
  subst he
  have honce := ((Created.constraints_iff db₁ plan).mp h.constraints).1 other ho
  have hkeys : twin.orderId = copy.orderId ∧ twin.stopType = copy.stopType :=
    ⟨horder.trans (hin.copyOf.field (·.orderId) fun _ _ _ _ ↦ rfl).symm,
      htype.trans (hin.copyOf.field (·.stopType) fun _ _ _ _ ↦ rfl).symm⟩
  simp only [VehicleRoute.checks, Bool.and_eq_true, decide_eq_true_eq] at honce
  exact ⟨rfl, eq_of_key_eq honce.1.1.2 htwin hcopy (Prod.ext hkeys.1 hkeys.2)⟩

end PenroseRoute.Recovery
