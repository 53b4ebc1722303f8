import Mathlib
import PenroseRoute.Incidents.Workflow
import PenroseRoute.Lib.Dict
import PenroseRoute.Lib.RightShift
import PenroseRoute.Lib.Sorting

/-!
# The delay of a merchant along routes

The loop of `MerchantDelayWorkflow._update_remaining_eta_and_risk` over the remaining stops of
several routes, with the delay of each route in a dictionary. Its schedule is the least right
shift exactly when no delay that it carries on is cut to whole seconds.
-/

namespace PenroseRoute.Db

open Lib

/-- A remaining stop as a visit: a direct pickup ends no earlier than the goods are loaded. -/
def RouteStop.visit (directOrderIds : List UUID) (updatedReadyAt : Instant) (stop : RouteStop) :
    Visit Instant where
  arrival := stop.plannedArrivalAt
  departure := stop.plannedDepartureAt
  service := Operations.timedelta stop.serviceSeconds
  earliest :=
    if stop.stopType = .pickup ∧ directOrderIds.contains stop.orderId then
      some (updatedReadyAt + Operations.timedelta stop.serviceSeconds)
    else none

end PenroseRoute.Db

namespace PenroseRoute.Incidents.MerchantDelayWorkflow

open PenroseRoute.Db PenroseRoute.Lib PenroseRoute.Operations

/-! ### The loop -/

/-- The order of the remaining stops, `workflow.py:410`. -/
def byRouteAndSequence (a b : UUID × RouteStop) : Prop :=
  a.1 < b.1 ∨ a.1 = b.1 ∧ a.2.sequenceNo ≤ b.2.sequenceNo

/-- The keys are compared. -/
instance : DecidableRel byRouteAndSequence := fun a b ↦
  inferInstanceAs (Decidable (a.1 < b.1 ∨ a.1 = b.1 ∧ a.2.sequenceNo ≤ b.2.sequenceNo))

/-- Any two stops come in some order. -/
instance : Std.Total byRouteAndSequence where
  total a b := by
    rcases Nat.lt_trichotomy a.1 b.1 with hlt | he | hgt
    · exact .inl (.inl hlt)
    · rcases Nat.le_total a.2.sequenceNo b.2.sequenceNo with hle | hge
      · exact .inl (.inr ⟨he, hle⟩)
      · exact .inr (.inr ⟨he.symm, hge⟩)
    · exact .inr (.inl hgt)

/-- The order of the stops is transitive. -/
instance : IsTrans (UUID × RouteStop) byRouteAndSequence where
  trans a b c hab hbc := by
    rcases hab with hab | ⟨hab, hle⟩ <;> rcases hbc with hbc | ⟨hbc, hle'⟩
    · exact .inl (Nat.lt_trans hab hbc)
    · exact .inl (hbc ▸ hab)
    · exact .inl (hab ▸ hbc)
    · exact .inr ⟨hab.trans hbc, Nat.le_trans hle hle'⟩

/-- The loop of `_update_remaining_eta_and_risk`, `workflow.py:408`, over stops with the ids of
their routes; `routeDelaySeconds` are the writes to its dictionary. -/
def shiftRemaining (directOrderIds : List UUID) (updatedReadyAt : Instant) :
    (routeDelaySeconds : List (UUID × Int)) → List (UUID × RouteStop) → List (UUID × RouteStop)
  | _, [] => []
  | routeDelaySeconds, (routeId, stop) :: rest =>
    let shifted := shiftStop directOrderIds updatedReadyAt
      ((lastWrite routeDelaySeconds routeId).getD 0) stop
    (routeId, shifted) :: shiftRemaining directOrderIds updatedReadyAt
      (routeDelaySeconds ++
        [(routeId, totalSeconds (shifted.plannedDepartureAt - stop.plannedDepartureAt))]) rest

/-- The times of `_update_remaining_eta_and_risk`, `workflow.py:401`. -/
def updateRemainingEta (directOrderIds : List UUID) (updatedReadyAt : Instant)
    (remaining : List (UUID × RouteStop)) : List (UUID × RouteStop) :=
  shiftRemaining directOrderIds updatedReadyAt [] (remaining.insertionSort byRouteAndSequence)

/-- The stops of one route. -/
def onRoute (routeId : UUID) (stops : List (UUID × RouteStop)) : List RouteStop :=
  (stops.filter (·.1 == routeId)).map (·.2)

/-- The loop on one route, behind a delay in seconds. -/
def carryOn (directOrderIds : List UUID) (updatedReadyAt : Instant) :
    Int → List RouteStop → List RouteStop
  | _, [] => []
  | delay, stop :: rest =>
    let shifted := shiftStop directOrderIds updatedReadyAt delay stop
    shifted :: carryOn directOrderIds updatedReadyAt
      (totalSeconds (shifted.plannedDepartureAt - stop.plannedDepartureAt)) rest

/-- What `route_delay_seconds` keeps of a delay. -/
def wholeSeconds (delay : Int) : Int := timedelta (totalSeconds delay)

variable {directOrderIds : List UUID} {updatedReadyAt : Instant} {routeId : UUID}
  {stops remaining : List (UUID × RouteStop)}

/-- A route sees its own stops and its own delay only. -/
theorem onRoute_shiftRemaining (delays : List (UUID × Int)) :
    onRoute routeId (shiftRemaining directOrderIds updatedReadyAt delays stops) =
      carryOn directOrderIds updatedReadyAt ((lastWrite delays routeId).getD 0)
        (onRoute routeId stops) := by
  induction stops generalizing delays with
  | nil => rfl
  | cons entry rest ih =>
    obtain ⟨id, stop⟩ := entry
    rw [shiftRemaining, onRoute, onRoute, List.filter_cons, List.filter_cons]
    by_cases hid : id = routeId
    · subst hid
      rw [if_pos (beq_self_eq_true _), if_pos (beq_self_eq_true _), List.map_cons, List.map_cons,
        carryOn]
      refine congrArg (List.cons _) ?_
      have htail := ih (delays ++ [(id, totalSeconds ((shiftStop directOrderIds updatedReadyAt
        ((lastWrite delays id).getD 0) stop).plannedDepartureAt - stop.plannedDepartureAt))])
      rw [lastWrite_append, lastWrite_cons, lastWrite_nil, Option.none_or,
        if_pos (beq_self_eq_true _), Option.some_or, Option.getD_some] at htail
      exact htail
    · rw [if_neg (by simp [hid]), if_neg (by simp [hid])]
      have htail := ih (delays ++ [(id, totalSeconds ((shiftStop directOrderIds updatedReadyAt
        ((lastWrite delays id).getD 0) stop).plannedDepartureAt - stop.plannedDepartureAt))])
      rw [lastWrite_append, lastWrite_cons, lastWrite_nil, Option.none_or,
        if_neg (by simp [hid]), Option.none_or] at htail
      exact htail

/-- The `remaining_stops` of one route, `context.py:199`. -/
def remains (cutoff : Nat) (stop : RouteStop) : Bool :=
  stop.sequenceNo ≥ cutoff && stop.status != .completed

/-- A stop remains behind the cutoff when it is not COMPLETED. -/
theorem remains_iff {cutoff : Nat} {stop : RouteStop} :
    remains cutoff stop = true ↔ stop.sequenceNo ≥ cutoff ∧ stop.status ≠ .completed := by
  rw [remains, Bool.and_eq_true, decide_eq_true_eq, bne_iff_ne]

/-- The loop on one route is the one that `shiftStops` makes of its remaining stops. -/
theorem filter_shiftStops (cutoff : Nat) (delay : Int) (stops : List RouteStop) :
    (shiftStops directOrderIds updatedReadyAt cutoff delay stops).filter (remains cutoff) =
      carryOn directOrderIds updatedReadyAt delay (stops.filter (remains cutoff)) := by
  induction stops generalizing delay with
  | nil => rfl
  | cons stop rest ih =>
    rw [shiftStops]
    by_cases hremains : remains cutoff stop = true
    · have hshifted : remains cutoff (shiftStop directOrderIds updatedReadyAt delay stop) = true :=
        hremains
      rw [if_pos (remains_iff.mp hremains), List.filter_cons_of_pos hremains, carryOn]
      dsimp only
      rw [List.filter_cons_of_pos hshifted, ih]
    · rw [if_neg (mt remains_iff.mpr hremains), List.filter_cons_of_neg hremains,
        List.filter_cons_of_neg hremains, ih]

/-- A shifted stop is a late visit. -/
theorem visit_shiftStop (delay : Int) (stop : RouteStop) :
    (shiftStop directOrderIds updatedReadyAt delay stop).visit directOrderIds updatedReadyAt =
      (stop.visit directOrderIds updatedReadyAt).late (timedelta delay) := by
  rw [shiftStop, RouteStop.visit, RouteStop.visit, Visit.late, Visit.leave]
  dsimp only
  split <;> rfl

/-- The other stops of the route stay what they are. -/
theorem filter_not_shiftStops (cutoff : Nat) (delay : Int) (stops : List RouteStop) :
    (shiftStops directOrderIds updatedReadyAt cutoff delay stops).filter (!remains cutoff ·) =
      stops.filter (!remains cutoff ·) := by
  induction stops generalizing delay with
  | nil => rfl
  | cons stop rest ih =>
    rw [shiftStops]
    by_cases hremains : remains cutoff stop = true
    · have hshifted : remains cutoff (shiftStop directOrderIds updatedReadyAt delay stop) = true :=
        hremains
      rw [if_pos (remains_iff.mp hremains), List.filter_cons, List.filter_cons, hshifted, hremains]
      exact ih _
    · rw [if_neg (mt remains_iff.mpr hremains), List.filter_cons_of_pos (by simp [hremains]),
        List.filter_cons_of_pos (by simp [hremains]), ih]

/-- On one route a delay is propagated in whole seconds. -/
theorem map_visit_carryOn (delay : Int) (stops : List RouteStop) :
    (carryOn directOrderIds updatedReadyAt delay stops).map
        (·.visit directOrderIds updatedReadyAt) =
      propagate wholeSeconds (timedelta delay)
        (stops.map (·.visit directOrderIds updatedReadyAt)) := by
  induction stops generalizing delay with
  | nil => rfl
  | cons stop rest ih =>
    rw [carryOn, List.map_cons, List.map_cons, propagate, ih, visit_shiftStop]
    have hdeparture : (shiftStop directOrderIds updatedReadyAt delay stop).plannedDepartureAt =
        (stop.visit directOrderIds updatedReadyAt).leave (timedelta delay) :=
      congrArg Visit.departure (visit_shiftStop delay stop)
    rw [hdeparture]
    rfl

/-! ### The schedule -/

/-- The visits of one route. -/
def visitsOn (directOrderIds : List UUID) (updatedReadyAt : Instant) (routeId : UUID)
    (stops : List (UUID × RouteStop)) : List (Visit Instant) :=
  (onRoute routeId stops).map (·.visit directOrderIds updatedReadyAt)

/-- The new schedule is the least right shift of every route, route by route; a later ready
time makes nothing earlier, and the same one changes nothing more. -/
structure IsLeastRightShift (directOrderIds : List UUID) (updatedReadyAt : Instant)
    (remaining : List (UUID × RouteStop)) : Prop where
  shifted : ∀ routeId, IsRightShift
    (visitsOn directOrderIds updatedReadyAt routeId (remaining.insertionSort byRouteAndSequence))
    (visitsOn directOrderIds updatedReadyAt routeId
      (updateRemainingEta directOrderIds updatedReadyAt remaining))
  least : ∀ routeId other, IsRightShift
    (visitsOn directOrderIds updatedReadyAt routeId (remaining.insertionSort byRouteAndSequence))
    other → List.Forall₂ Visit.NoLater (visitsOn directOrderIds updatedReadyAt routeId
      (updateRemainingEta directOrderIds updatedReadyAt remaining)) other
  monotone : ∀ later, updatedReadyAt ≤ later → ∀ routeId, List.Forall₂ Visit.NoLater
    (visitsOn directOrderIds updatedReadyAt routeId
      (updateRemainingEta directOrderIds updatedReadyAt remaining))
    (visitsOn directOrderIds later routeId (updateRemainingEta directOrderIds later remaining))
  independent : ∀ routeId, onRoute routeId
      (updateRemainingEta directOrderIds updatedReadyAt remaining) =
    onRoute routeId (updateRemainingEta directOrderIds updatedReadyAt
      (remaining.filter (·.1 == routeId)))
  again : updateRemainingEta directOrderIds updatedReadyAt
      (updateRemainingEta directOrderIds updatedReadyAt remaining) =
    updateRemainingEta directOrderIds updatedReadyAt remaining

/-- On every route, the delays of all departures but the last are whole seconds. -/
def DelaysInSeconds (directOrderIds : List UUID) (updatedReadyAt : Instant)
    (remaining : List (UUID × RouteStop)) : Prop :=
  ∀ routeId, CarriesAll wholeSeconds 0
    (visitsOn directOrderIds updatedReadyAt routeId (remaining.insertionSort byRouteAndSequence))

/-! ### The loop is the propagation -/

/-- The delay that is kept is no longer than the delay, and a longer one keeps more. -/
theorem wholeSeconds_mono : Monotone wholeSeconds := by
  intro a b hab
  have hseconds : totalSeconds a ≤ totalSeconds b := Int.tdiv_le_tdiv (by decide) hab
  unfold wholeSeconds timedelta
  omega

/-- Truncation keeps a delay from being negative. -/
theorem wholeSeconds_nonneg {delay : Int} (h : 0 ≤ delay) : 0 ≤ wholeSeconds delay := by
  exact wholeSeconds_mono h

/-- The new visits of a route are its propagated ones. -/
theorem visitsOn_updateRemainingEta :
    visitsOn directOrderIds updatedReadyAt routeId
        (updateRemainingEta directOrderIds updatedReadyAt remaining) =
      propagate wholeSeconds 0 (visitsOn directOrderIds updatedReadyAt routeId
        (remaining.insertionSort byRouteAndSequence)) := by
  unfold visitsOn updateRemainingEta
  rw [onRoute_shiftRemaining, map_visit_carryOn]
  rfl

/-- A later ready time asks more of every direct pickup. -/
theorem harder_visit {later : Instant} (h : updatedReadyAt ≤ later) (stop : RouteStop) :
    (stop.visit directOrderIds updatedReadyAt).Harder (stop.visit directOrderIds later) := by
  refine ⟨rfl, rfl, rfl, fun e he ↦ ?_⟩
  unfold RouteStop.visit at he ⊢
  dsimp only at he ⊢
  split at he
  next hdirect =>
    rw [if_pos hdirect]
    cases he
    exact ⟨_, rfl, Int.add_le_add_right h _⟩
  next => cases he

/-- The visits of a later ready time are harder. -/
theorem harder_visits {later : Instant} (h : updatedReadyAt ≤ later) (stops : List RouteStop) :
    List.Forall₂ Visit.Harder (stops.map (·.visit directOrderIds updatedReadyAt))
      (stops.map (·.visit directOrderIds later)) := by
  induction stops with
  | nil => exact .nil
  | cons stop rest ih => exact .cons (harder_visit h stop) ih

/-- Selecting a route and then sorting is sorting and then selecting it. -/
theorem onRoute_insertionSort :
    onRoute routeId ((remaining.filter (·.1 == routeId)).insertionSort byRouteAndSequence) =
      onRoute routeId (remaining.insertionSort byRouteAndSequence) := by
  unfold onRoute
  rw [filter_insertionSort, filter_insertionSort, List.filter_filter]
  simp only [Bool.and_self]

/-! ### The second time -/

/-- A shift keeps the route and the place of every stop. -/
theorem map_place_shiftRemaining (delays : List (UUID × Int)) :
    (shiftRemaining directOrderIds updatedReadyAt delays stops).map
        (fun entry ↦ (entry.1, entry.2.sequenceNo)) =
      stops.map fun entry ↦ (entry.1, entry.2.sequenceNo) := by
  induction stops generalizing delays with
  | nil => rfl
  | cons entry rest ih =>
    obtain ⟨id, stop⟩ := entry
    rw [shiftRemaining, List.map_cons, List.map_cons, ih]
    rfl

/-- So shifted stops are already sorted. -/
theorem insertionSort_updateRemainingEta :
    (updateRemainingEta directOrderIds updatedReadyAt remaining).insertionSort
        byRouteAndSequence =
      updateRemainingEta directOrderIds updatedReadyAt remaining := by
  refine List.Pairwise.insertionSort_eq ?_
  have hsorted := List.pairwise_insertionSort byRouteAndSequence remaining
  have hplaces : ((remaining.insertionSort byRouteAndSequence).map
      fun entry ↦ (entry.1, entry.2.sequenceNo)).Pairwise
        fun p q ↦ p.1 < q.1 ∨ p.1 = q.1 ∧ p.2 ≤ q.2 := List.pairwise_map.mpr hsorted
  unfold updateRemainingEta
  rw [← @map_place_shiftRemaining directOrderIds updatedReadyAt _ [], List.pairwise_map] at hplaces
  exact hplaces

/-- A stop that was shifted stays where it is when nothing delays it. -/
theorem shiftStop_shiftStop (delay : Int) (stop : RouteStop) :
    shiftStop directOrderIds updatedReadyAt 0
        (shiftStop directOrderIds updatedReadyAt delay stop) =
      shiftStop directOrderIds updatedReadyAt delay stop := by
  have harrival : (shiftStop directOrderIds updatedReadyAt delay stop).plannedArrivalAt +
      timedelta 0 = (shiftStop directOrderIds updatedReadyAt delay stop).plannedArrivalAt :=
    Int.add_zero _
  unfold shiftStop at harrival ⊢
  dsimp only at harrival ⊢
  rw [harrival]
  split
  · rw [max_eq_left ((le_max_right _ _).trans (le_max_left _ _)),
      max_eq_left ((le_max_right _ _).trans (le_max_left _ _))]
  · rw [max_eq_left (le_max_right _ _)]

/-- Without any delay, shifted stops are shifted nowhere. -/
theorem shiftRemaining_shiftRemaining (delays none : List (UUID × Int))
    (hnone : ∀ write ∈ none, write.2 = 0) :
    shiftRemaining directOrderIds updatedReadyAt none
        (shiftRemaining directOrderIds updatedReadyAt delays stops) =
      shiftRemaining directOrderIds updatedReadyAt delays stops := by
  induction stops generalizing delays none with
  | nil => rfl
  | cons entry rest ih =>
    obtain ⟨id, stop⟩ := entry
    have hdelay : (lastWrite none id).getD 0 = 0 := by
      cases hwrite : lastWrite none id with
      | none => rfl
      | some delay => exact hnone _ (mem_of_lastWrite hwrite)
    rw [shiftRemaining, shiftRemaining, hdelay, shiftStop_shiftStop]
    refine congrArg (List.cons _) (ih _ _ fun write hwrite ↦ ?_)
    rcases List.mem_append.mp hwrite with hold | hnew
    · exact hnone write hold
    · rw [List.mem_singleton.mp hnew]
      exact congrArg totalSeconds (Int.sub_self _)

/-- The same ready time for the second time changes nothing. -/
theorem updateRemainingEta_again :
    updateRemainingEta directOrderIds updatedReadyAt
        (updateRemainingEta directOrderIds updatedReadyAt remaining) =
      updateRemainingEta directOrderIds updatedReadyAt remaining := by
  rw [updateRemainingEta, insertionSort_updateRemainingEta]
  exact shiftRemaining_shiftRemaining [] [] nofun

/-! ### The least right shift -/

/-- The delay of a merchant is propagated to the least right shift exactly when every delay
that is carried to another stop is a whole number of seconds. -/
theorem isLeastRightShift_iff (directOrderIds : List UUID) (updatedReadyAt : Instant)
    (remaining : List (UUID × RouteStop)) :
    IsLeastRightShift directOrderIds updatedReadyAt remaining ↔
      DelaysInSeconds directOrderIds updatedReadyAt remaining := by
  constructor
  · intro hleast routeId
    have hgaps := (hleast.shifted routeId).gaps
    rw [visitsOn_updateRemainingEta] at hgaps
    exact propagate_gaps_iff.mp hgaps
  · intro hseconds
    constructor
    · intro routeId
      rw [visitsOn_updateRemainingEta]
      exact ⟨propagate_moved (fun _ ↦ wholeSeconds_nonneg) le_rfl,
        propagate_gaps_iff.mpr (hseconds routeId)⟩
    · intro routeId other hother
      rw [visitsOn_updateRemainingEta, propagate_eq_exact (hseconds routeId)]
      refine exact_least hother fun v hv w hw ↦ ?_
      rw [add_zero]
      exact hother.head_arrival v hv w hw
    · intro later hlater routeId
      rw [visitsOn_updateRemainingEta, visitsOn_updateRemainingEta]
      exact propagate_mono wholeSeconds_mono (harder_visits hlater _) le_rfl
    · intro routeId
      unfold updateRemainingEta
      rw [onRoute_shiftRemaining, onRoute_shiftRemaining, onRoute_insertionSort]
    · exact updateRemainingEta_again

/-- A pickup that ends after five minutes and the delivery five minutes later. -/
def pickupThenDelivery : List (UUID × RouteStop) :=
  let stop : RouteStop := {
    id := 1, orderId := 1, locationId := 1, stopType := .pickup, sequenceNo := 1
    precedenceStopId := none, sourceIncidentId := none
    plannedArrivalAt := 0, plannedDepartureAt := timedelta 300
    actualArrivalAt := none, actualDepartureAt := none, serviceSeconds := 300
    timeWindowStartAt := some 0, timeWindowEndAt := none, demandLoadUnitsSnapshot := 1
    status := .planned }
  [(1, stop), (1, { stop with
    id := 2, locationId := 2, stopType := .delivery, sequenceNo := 2
    precedenceStopId := some 1, plannedArrivalAt := timedelta 600
    plannedDepartureAt := timedelta 900, timeWindowStartAt := none })]

/-- Of a delay of 1.4 seconds the fraction is lost between the pickup and the delivery. -/
theorem fraction_lost : ¬ IsLeastRightShift [1] 1400000 pickupThenDelivery := by
  intro h
  have hgaps := (h.shifted 1).gaps
  revert hgaps
  decide +kernel

/-! ### The planned end -/

/-- A route can take a delay: its remaining stops can be served by its planned end, where a
direct pickup is not over before the goods are loaded, and every stop is reached as late as the
whole seconds of the delay before it. -/
def TakesDelay (directOrderIds : List UUID) (updatedReadyAt : Instant) (cutoff : Nat)
    (route : VehicleRoute) : Prop :=
  ∃ departures, Departures wholeSeconds 0 ((route.stops.filter (remains cutoff)).map
      (·.visit directOrderIds updatedReadyAt)) departures ∧
    ∀ departure ∈ departures, departure ≤ route.plannedEndAt

/-- It is decided by the departures. -/
instance (directOrderIds : List UUID) (updatedReadyAt : Instant) (cutoff : Nat)
    (route : VehicleRoute) : Decidable (TakesDelay directOrderIds updatedReadyAt cutoff route) :=
  decidable_of_iff _ (departures_iff wholeSeconds_mono).symm

/-- A delayed route that was over by its planned end still is exactly when it can take the
delay. -/
theorem shiftStops_departed_iff {cutoff : Nat} {route : VehicleRoute}
    (h : ∀ stop ∈ route.stops, stop.plannedDepartureAt ≤ route.plannedEndAt) :
    (∀ stop ∈ shiftStops directOrderIds updatedReadyAt cutoff 0 route.stops,
        stop.plannedDepartureAt ≤ route.plannedEndAt) ↔
      TakesDelay directOrderIds updatedReadyAt cutoff route := by
  have hvisits := @map_visit_carryOn directOrderIds updatedReadyAt 0
    (route.stops.filter (remains cutoff))
  rw [← filter_shiftStops, timedelta, Int.zero_mul] at hvisits
  rw [TakesDelay, departures_iff wholeSeconds_mono, ← hvisits]
  constructor
  · intro hall visit hvisit
    obtain ⟨stop, hs, rfl⟩ := List.mem_map.mp hvisit
    exact hall stop (List.mem_filter.mp hs).1
  · intro hall stop hs
    cases hremains : remains cutoff stop with
    | true => exact hall _ (List.mem_map_of_mem (List.mem_filter.mpr ⟨hs, hremains⟩))
    | false =>
      have hmem : stop ∈ (shiftStops directOrderIds updatedReadyAt cutoff 0 route.stops).filter
          (!remains cutoff ·) := List.mem_filter.mpr ⟨hs, by rw [hremains]; rfl⟩
      rw [filter_not_shiftStops] at hmem
      exact h stop (List.mem_filter.mp hmem).1

/-! ### The plan -/

/-- The `remaining_stops` of the context, `context.py:199`, with the ids of their routes. -/
def remainingStops (context : MerchantIncidentContext) (plan : DeliveryPlan) :
    List (UUID × RouteStop) :=
  (plan.routes.filter fun route ↦ context.routeIds.contains route.id).flatMap fun route ↦
    (route.stops.filter (remains (context.cutoff route.id))).map fun stop ↦ (route.id, stop)

/-- Gathered from several routes, the stops of one of them are its own. -/
theorem onRoute_flatMap {routes : List VehicleRoute} {route : VehicleRoute}
    {part : VehicleRoute → List RouteStop} (hids : (routes.map (·.id)).Nodup)
    (hroute : route ∈ routes) :
    onRoute route.id (routes.flatMap fun r ↦ (part r).map fun stop ↦ (r.id, stop)) =
      part route := by
  have happend : ∀ xs ys : List (UUID × RouteStop),
      onRoute route.id (xs ++ ys) = onRoute route.id xs ++ onRoute route.id ys := by
    intro xs ys
    unfold onRoute
    rw [List.filter_append, List.map_append]
  have hother : ∀ r : VehicleRoute, r.id ≠ route.id →
      onRoute route.id ((part r).map fun stop ↦ (r.id, stop)) = [] := by
    intro r hr
    unfold onRoute
    simp [hr]
  have hown : onRoute route.id ((part route).map fun stop ↦ (route.id, stop)) = part route := by
    unfold onRoute
    simp [List.filter_map, Function.comp_def]
  induction routes with
  | nil => cases hroute
  | cons r rest ih =>
    rw [List.map_cons, List.nodup_cons] at hids
    obtain ⟨hr, hrest⟩ := hids
    rw [List.flatMap_cons, happend]
    by_cases hmem : route ∈ rest
    · have hne : r.id ≠ route.id := by
        intro h
        rw [h] at hr
        exact hr (List.mem_map_of_mem hmem)
      rw [hother r hne, List.nil_append, ih hrest hmem]
    · have heq : route = r := (List.mem_cons.mp hroute).resolve_right hmem
      subst heq
      have hnone : onRoute route.id
          (rest.flatMap fun r ↦ (part r).map fun stop ↦ (r.id, stop)) = [] := by
        unfold onRoute
        rw [List.map_eq_nil_iff, List.filter_eq_nil_iff]
        intro entry hentry hid
        obtain ⟨r', hr', hentry⟩ := List.mem_flatMap.mp hentry
        obtain ⟨stop, -, rfl⟩ := List.mem_map.mp hentry
        have hid : r'.id = route.id := by simpa using hid
        rw [← hid] at hr
        exact hr (List.mem_map_of_mem hr')
      rw [hnone, hown, List.append_nil]

/-- The loop gives every reached route of the plan the remaining stops of the shifted plan. -/
theorem onRoute_updateRemainingEta {context : MerchantIncidentContext} {plan : DeliveryPlan}
    {route : VehicleRoute} (hids : (plan.routes.map (·.id)).Nodup) (hroute : route ∈ plan.routes)
    (hsorted : route.stops.Pairwise fun a b ↦ a.sequenceNo ≤ b.sequenceNo)
    (hreached : context.routeIds.contains route.id) :
    onRoute route.id
        (updateRemainingEta directOrderIds updatedReadyAt (remainingStops context plan)) =
      (shiftStops directOrderIds updatedReadyAt (context.cutoff route.id) 0 route.stops).filter
        (remains (context.cutoff route.id)) := by
  unfold updateRemainingEta
  rw [onRoute_shiftRemaining, filter_shiftStops, ← onRoute_insertionSort]
  refine congrArg (carryOn directOrderIds updatedReadyAt 0) ?_
  have hown : onRoute route.id (remainingStops context plan) =
      route.stops.filter (remains (context.cutoff route.id)) := by
    refine onRoute_flatMap (hids.sublist (List.filter_sublist.map _)) ?_
    exact List.mem_filter.mpr ⟨hroute, hreached⟩
  have hplaces : ((remainingStops context plan).filter (·.1 == route.id)).Pairwise
      byRouteAndSequence := by
    have hroutes : ∀ entry ∈ (remainingStops context plan).filter (·.1 == route.id),
        entry.1 = route.id := fun entry h ↦ by simpa using (List.mem_filter.mp h).2
    have hpairs := hsorted.filter (remains (context.cutoff route.id))
    rw [← hown, onRoute, List.pairwise_map] at hpairs
    refine hpairs.imp_of_mem fun {a b} ha hb hle ↦ .inr ⟨?_, hle⟩
    rw [hroutes a ha, hroutes b hb]
  rw [hplaces.insertionSort_eq, onRoute, List.filter_filter]
  simp only [Bool.and_self]
  exact hown

private theorem filter_remainingStops_eq_nil {context : MerchantIncidentContext}
    {plan : DeliveryPlan}
    (h : ∀ route ∈ plan.routes, context.routeIds.contains route.id = true → route.id ≠ routeId) :
    (remainingStops context plan).filter (·.1 == routeId) = [] := by
  rw [List.filter_eq_nil_iff]
  intro entry hentry
  obtain ⟨route, hroute, hentry⟩ := List.mem_flatMap.mp hentry
  obtain ⟨stop, -, rfl⟩ := List.mem_map.mp hentry
  obtain ⟨hroute, hreached⟩ := List.mem_filter.mp hroute
  rw [beq_iff_eq]
  exact h route hroute hreached

/-- The shifted plan has the remaining stops that the loop makes of those of the plan, route by
route. -/
theorem remainingStops_shiftPlan {context : MerchantIncidentContext} {plan : DeliveryPlan}
    (hids : (plan.routes.map (·.id)).Nodup)
    (hsorted : ∀ route ∈ plan.routes,
      route.stops.Pairwise fun a b ↦ a.sequenceNo ≤ b.sequenceNo) (routeId : UUID) :
    onRoute routeId (remainingStops context (shiftPlan context updatedReadyAt plan)) =
      onRoute routeId (updateRemainingEta ((context.orders.filter (·.isDirect)).map (·.order.id))
        updatedReadyAt (remainingStops context plan)) := by
  have hshifted : (shiftPlan context updatedReadyAt plan).routes.map (·.id) =
      plan.routes.map (·.id) :=
    map_routes_shiftPlan (f := (·.id)) (g := fun route _ ↦ route.id) (fun _ _ _ ↦ rfl)
      (fun _ _ _ ↦ rfl) context updatedReadyAt plan
  by_cases hreached : ∃ route ∈ plan.routes, context.routeIds.contains route.id = true ∧
      route.id = routeId
  · obtain ⟨route, hroute, hcontains, rfl⟩ := hreached
    rw [onRoute_updateRemainingEta hids hroute (hsorted route hroute) hcontains]
    let moved : VehicleRoute := { route with
      stops := shiftStops ((context.orders.filter (·.isDirect)).map (·.order.id)) updatedReadyAt
        (context.cutoff route.id) 0 route.stops }
    have hmoved : moved ∈ (shiftPlan context updatedReadyAt plan).routes :=
      List.mem_map.mpr ⟨route, hroute, if_pos hcontains⟩
    have hfiltered : (((shiftPlan context updatedReadyAt plan).routes.filter fun route ↦
        context.routeIds.contains route.id).map (·.id)).Nodup := by
      refine List.Nodup.sublist (List.filter_sublist.map _) ?_
      rw [hshifted]
      exact hids
    exact @onRoute_flatMap _ moved _ hfiltered (List.mem_filter.mpr ⟨hmoved, hcontains⟩)
  · have hnone : ∀ route ∈ plan.routes, context.routeIds.contains route.id = true →
        route.id ≠ routeId := fun route hr hc hid ↦ hreached ⟨route, hr, hc, hid⟩
    have hnone' : ∀ route ∈ (shiftPlan context updatedReadyAt plan).routes,
        context.routeIds.contains route.id = true → route.id ≠ routeId := by
      intro route hr hc
      have hid := List.mem_map_of_mem hr (f := (·.id))
      rw [hshifted] at hid
      obtain ⟨old, hold, he⟩ := List.mem_map.mp hid
      rw [← he] at hc ⊢
      exact hnone old hold hc
    unfold updateRemainingEta
    rw [onRoute_shiftRemaining, ← onRoute_insertionSort, filter_remainingStops_eq_nil hnone,
      onRoute,
      filter_remainingStops_eq_nil hnone']
    rfl

end PenroseRoute.Incidents.MerchantDelayWorkflow
