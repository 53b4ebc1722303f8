import PenroseRoute.Lib.EachAfter
import PenroseRoute.Recovery.Inheritance
import PenroseRoute.Recovery.ReadyTimes

/-!
# The stop rules of the database

What the unique constraint, the column checks and the trigger of `route_stops` ask of the stops
of a plan, and when the stops that `_persist_candidate_routes` writes meet it: they always do,
except that a route may stop for an order twice in the same way.
-/

namespace PenroseRoute.Db

open Lib

/-- The `expected_location_id` of the trigger, `create_datatable.sql:186`. -/
def RouteStop.expectedLocation? (db : Database) (stop : RouteStop) : Option UUID :=
  match stop.stopType with
  | .pickup => (db.order? stop.orderId).map (·.pickupLocationId)
  | .delivery => (db.order? stop.orderId).map (·.deliveryLocationId)
  | .handover => (stop.sourceIncidentId.bind db.incident?).bind (·.incidentLocationId)

/-- A delivery follows the PICKUP or HANDOVER of its order in the plan, and nothing else has a
precedence. -/
def RouteStop.Preceded (plan : DeliveryPlan) (stop : RouteStop) : Prop :=
  if stop.stopType = .delivery then
    ∃ preceding, stop.precedenceStopId.bind plan.stop? = some preceding ∧
      preceding.orderId = stop.orderId ∧ preceding.stopType ≠ .delivery ∧
        preceding.sequenceNo < stop.sequenceNo
  else stop.precedenceStopId = none

/-- The rules of the database for the stops of a plan: `uq_route_stops_route_order_type`,
`ck_route_stops_precedence` and `validate_route_stop_relationships`. -/
structure DeliveryPlan.StopRules (db : Database) (plan : DeliveryPlan) : Prop where
  once : ∀ route ∈ plan.routes, (route.stops.map fun stop ↦ (stop.orderId, stop.stopType)).Nodup
  preceded : ∀ route ∈ plan.routes, ∀ stop ∈ route.stops, stop.Preceded plan
  located : ∀ route ∈ plan.routes, ∀ stop ∈ route.stops,
    stop.expectedLocation? db = some stop.locationId

/-- A delivery has its origin among the stops before it, and nothing else has a precedence. -/
def OriginBefore (before : List RouteStop) (stop : RouteStop) : Prop :=
  if stop.stopType = .delivery then
    ∃ origin ∈ before, stop.precedenceStopId = some origin.id ∧ origin.orderId = stop.orderId ∧
      origin.stopType ≠ .delivery
  else stop.precedenceStopId = none

/-- A route whose stops meet the rules by themselves, each delivery behind its origin. -/
structure VehicleRoute.WellLinked (db : Database) (route : VehicleRoute) : Prop where
  once : (route.stops.map fun stop ↦ (stop.orderId, stop.stopType)).Nodup
  linked : EachAfter OriginBefore [] route.stops
  located : ∀ stop ∈ route.stops, stop.expectedLocation? db = some stop.locationId

end PenroseRoute.Db

namespace PenroseRoute.Recovery

open PenroseRoute.Db PenroseRoute.Lib PenroseRoute.Operations PenroseRoute.Optimization

/-! ### Deliveries and their origins -/

/-- Where a delivery is kept, so is its origin. -/
theorem originBefore_filter {p : RouteStop → Bool} {before : List RouteStop} {stop : RouteStop}
    (h : OriginBefore before stop)
    (hp : ∀ origin ∈ before, origin.orderId = stop.orderId → p origin = true) :
    OriginBefore (before.filter p) stop := by
  rw [OriginBefore] at h ⊢
  split at h
  · next hd =>
    obtain ⟨origin, ho, hlink, horder, htype⟩ := h
    rw [if_pos hd]
    exact ⟨origin, List.mem_filter.mpr ⟨ho, hp origin ho horder⟩, hlink, horder, htype⟩
  · next hd =>
    rw [if_neg hd]
    exact h

/-- Of an executed route, the origins of the kept deliveries are kept: a stop before a COMPLETED
one is COMPLETED. -/
theorem linked_preservedStops {context : RecoveryContext} {route : VehicleRoute}
    (he : route.Executed) (h : EachAfter OriginBefore [] route.stops) :
    EachAfter OriginBefore [] (preservedStops context route) := by
  rw [preservedStops]
  split
  · have hdone : route.stops.Pairwise fun a b ↦ b.status = .completed → a.status = .completed := by
      have hstage : ∀ stop ∈ route.stops, stop.stage ≠ none := by
        intro stop hs hn
        rcases he.inOrder.stage_of_mem hs with hw | ⟨start, hb, -⟩ | ⟨start, finish, hd, -⟩
        · rw [hn] at hw
          cases hw
        · rw [hn] at hb
          cases hb
        · rw [hn] at hd
          cases hd
      refine he.inOrder.pairwise.imp_of_mem fun {a b} ha hb hbefore hs ↦ ?_
      obtain ⟨start, finish, hended⟩ := ended_of_completed (hstage b hb) hs
      rcases he.inOrder.stage_of_mem ha with hw | ⟨start', hbegun, -⟩ | ⟨start', finish', hd, -⟩
      · rw [hbefore.waiting hw] at hended
        cases hended
      · rw [hbefore.begun start' hbegun] at hended
        cases hended
      · exact (stage_eq_ended.mp hd).1
    refine h.filter (by rwa [List.nil_append]) fun before stop hbefore hkept hlink ↦ ?_
    refine originBefore_filter hlink fun origin ho horder ↦ ?_
    rw [Bool.or_eq_true, beq_iff_eq] at hkept ⊢
    rw [horder]
    exact hkept.imp_right (hbefore origin ho)
  · exact h

/-- The pairs of ids of `copied_ids`. -/
def copiedPairs (snapshots copies : List RouteStop) : List (UUID × UUID) :=
  List.zipWith (fun snapshot copy ↦ (snapshot.id, copy.id)) snapshots copies

/-- A pair of `copied_ids` is one of a stop and its copy. -/
theorem mem_copiedPairs {snapshots copies : List RouteStop}
    (h : List.Forall₂ CopyOf snapshots copies) {id copyId : UUID}
    (hm : (id, copyId) ∈ copiedPairs snapshots copies) :
    ∃ snapshot ∈ snapshots, ∃ copy ∈ copies, CopyOf snapshot copy ∧ snapshot.id = id ∧
      copy.id = copyId := by
  induction h with
  | nil => cases hm
  | cons hcopy _ ih =>
    rcases List.mem_cons.mp hm with he | hm
    · rw [Prod.mk.injEq] at he
      exact ⟨_, List.mem_cons_self, _, List.mem_cons_self, hcopy, he.1.symm, he.2.symm⟩
    · obtain ⟨snapshot, hs, copy, hc, hrest⟩ := ih hm
      exact ⟨snapshot, List.mem_cons_of_mem _ hs, copy, List.mem_cons_of_mem _ hc, hrest⟩

/-- The pairs begin with the snapshots. -/
theorem copiedPairs_fst {snapshots copies : List RouteStop}
    (h : List.Forall₂ CopyOf snapshots copies) :
    (copiedPairs snapshots copies).map (·.1) = snapshots.map (·.id) := by
  induction h with
  | nil => rfl
  | cons _ _ ih => exact congrArg (List.cons _) ih

/-- A copy of one more stop is one more pair. -/
theorem copiedPairs_concat {snapshots copies : List RouteStop}
    (h : List.Forall₂ CopyOf snapshots copies) (snapshot copy : RouteStop) :
    copiedPairs (snapshots ++ [snapshot]) (copies ++ [copy]) =
      copiedPairs snapshots copies ++ [(snapshot.id, copy.id)] :=
  List.zipWith_append h.length_eq

/-- `copied_ids` leads from a stop to its copy. -/
theorem copied_of_mem {snapshots copies : List RouteStop}
    (h : List.Forall₂ CopyOf snapshots copies) (hids : (snapshots.map (·.id)).Nodup)
    {origin : RouteStop} (ho : origin ∈ snapshots) :
    ∃ copy ∈ copies, CopyOf origin copy ∧
      lastWrite (copiedPairs snapshots copies) origin.id = some copy.id := by
  have hkey : origin.id ∈ (copiedPairs snapshots copies).map (·.1) := by
    rw [copiedPairs_fst h]
    exact List.mem_map_of_mem ho
  obtain ⟨⟨_, copied⟩, hpair, rfl⟩ := List.mem_map.mp hkey
  obtain ⟨copyId, hcopyId⟩ := Option.isSome_iff_exists.mp
    ((isSome_lastWrite_iff _ _).mpr ⟨copied, hpair⟩)
  obtain ⟨own, hown, copy, hcopy, hof, hid, rfl⟩ := mem_copiedPairs h (mem_of_lastWrite hcopyId)
  rw [eq_of_key_eq hids hown ho hid] at hof
  exact ⟨copy, hcopy, hof, hcopyId⟩

/-- The copies of linked stops are linked. -/
theorem linked_copyPreserved {snapshots copies preserved : List RouteStop}
    (hcopies : List.Forall₂ CopyOf snapshots copies)
    (hids : ((snapshots ++ preserved).map (·.id)).Nodup)
    (h : EachAfter OriginBefore snapshots preserved) (nextId sequence : Nat) :
    EachAfter OriginBefore copies
      (copyPreserved nextId sequence (copiedPairs snapshots copies) preserved) := by
  induction preserved generalizing snapshots copies nextId sequence with
  | nil => trivial
  | cons snapshot rest ih =>
    rw [copyPreserved]
    refine ⟨?_, ?_⟩
    · have hhead := h.1
      rw [OriginBefore] at hhead ⊢
      split at hhead
      · next hd =>
        rw [if_pos hd]
        obtain ⟨origin, ho, hlink, horder, htype⟩ := hhead
        rw [List.map_append] at hids
        obtain ⟨copy, hcopy, hof, hcopied⟩ :=
          copied_of_mem hcopies (List.nodup_append.mp hids).1 ho
        refine ⟨copy, hcopy, ?_, ?_, ?_⟩
        · rw [hlink, Option.bind_some, hcopied]
        · exact (hof.field (·.orderId) fun _ _ _ _ ↦ rfl).trans horder
        · rw [hof.field (·.stopType) fun _ _ _ _ ↦ rfl]
          exact htype
      · next hd =>
        rw [if_neg hd, hhead]
        rfl
    · rw [← copiedPairs_concat hcopies snapshot { snapshot with
        id := nextId
        sequenceNo := sequence + 1
        precedenceStopId := snapshot.precedenceStopId.bind
          (lastWrite (copiedPairs snapshots copies)) }]
      refine ih (List.rel_append hcopies (.cons ?_ .nil)) (by rwa [List.append_assoc]) h.2 _ _
      rfl

/-- New stops are linked when every entry of `origin_ids` is a stop before them. -/
theorem linked_appendSolved {context : RecoveryContext} {nextId sequence : Nat}
    {originIds : List (UUID × UUID)} {solverStops : List SolverStop}
    {before stops : List RouteStop}
    (h : appendSolved context nextId sequence originIds solverStops = .ok stops)
    (horigins : ∀ orderId id, (orderId, id) ∈ originIds → ∃ origin ∈ before, origin.id = id ∧
      origin.orderId = orderId ∧ origin.stopType ≠ .delivery) :
    EachAfter OriginBefore before stops := by
  induction solverStops generalizing nextId sequence originIds before stops with
  | nil =>
    cases h
    trivial
  | cons solverStop rest ih =>
    obtain ⟨order, precedence, tail, -, rfl, hcase⟩ := appendSolved_cons h
    rcases hcase with ⟨hd, rfl, hsome, ht⟩ | ⟨hd, rfl, ht⟩
    · refine ⟨?_, ih ht fun orderId id hm ↦ ?_⟩
      · obtain ⟨id, hid⟩ := Option.isSome_iff_exists.mp hsome
        obtain ⟨origin, ho, hoid, horder, htype⟩ := horigins _ _ (mem_of_lastWrite hid)
        rw [OriginBefore, if_pos (show (newStop _ _ _ _ _ _).stopType = _ from hd)]
        refine ⟨origin, ho, ?_, horder, htype⟩
        rw [hoid]
        exact hid
      · obtain ⟨origin, ho, hrest⟩ := horigins orderId id hm
        exact ⟨origin, List.mem_append_left _ ho, hrest⟩
    · refine ⟨?_, ih ht fun orderId id hm ↦ ?_⟩
      · rw [OriginBefore, if_neg (show ¬ (newStop _ _ _ _ _ _).stopType = _ from hd)]
        rfl
      · rcases List.mem_append.mp hm with hm | hm
        · obtain ⟨origin, ho, hrest⟩ := horigins orderId id hm
          exact ⟨origin, List.mem_append_left _ ho, hrest⟩
        · rw [List.mem_singleton, Prod.mk.injEq] at hm
          exact ⟨_, List.mem_append_right _ (List.mem_singleton.mpr rfl), hm.2.symm, hm.1.symm, hd⟩

/-- `_persist_stops` links every delivery to its origin. -/
theorem persistStops_linked {context : RecoveryContext} {nextId : Nat}
    {preserved stops : List RouteStop} {solverStops : List SolverStop}
    (hids : (preserved.map (·.id)).Nodup) (h : EachAfter OriginBefore [] preserved)
    (hp : persistStops context nextId preserved solverStops = .ok stops) :
    EachAfter OriginBefore [] stops := by
  obtain ⟨solved, hs, hp⟩ := bind_eq_ok.mp hp
  cases hp
  refine EachAfter.append.mpr ⟨linked_copyPreserved .nil hids h nextId 0, ?_⟩
  rw [List.nil_append]
  refine linked_appendSolved hs fun orderId id hm ↦ ?_
  obtain ⟨origin, ho, he⟩ := List.mem_map.mp hm
  obtain ⟨hmem, htype⟩ := List.mem_filter.mp ho
  rw [Prod.mk.injEq] at he
  exact ⟨origin, hmem, he.2, he.1, bne_iff_ne.mp htype⟩

/-! ### Routes -/

/-- The stops of a route are those of `_persist_stops`. -/
theorem persistRoute_stops {context : RecoveryContext} {roads : RoadRoutes} {id routeNo : Nat}
    {task : RouteTask} {route : VehicleRoute}
    (h : persistRoute context roads id routeNo task = .ok route) :
    persistStops context (id + 1) (task.kept context) task.solved = .ok route.stops := by
  cases task with
  | base base solver =>
    obtain ⟨endLocationId, -, h⟩ := bind_eq_ok.mp h
    obtain ⟨stops, hs, h⟩ := bind_eq_ok.mp h
    cases h
    exact hs
  | extra solver =>
    obtain ⟨pair, -, h⟩ := bind_eq_ok.mp h
    obtain ⟨last, -, h⟩ := bind_eq_ok.mp h
    obtain ⟨stops, hs, h⟩ := bind_eq_ok.mp h
    cases h
    exact hs

/-- Every route comes from one pass. -/
theorem persistRoutes_each {context : RecoveryContext} {roads : RoadRoutes}
    {nextId routeNo : Nat} {tasks : List RouteTask} {routes : List VehicleRoute}
    (h : persistRoutes context roads nextId routeNo tasks = .ok routes) :
    List.Forall₂ (fun task route ↦ ∃ id no, persistRoute context roads id no task = .ok route)
      tasks routes := by
  induction tasks generalizing nextId routeNo routes with
  | nil =>
    cases h
    exact .nil
  | cons task rest ih =>
    obtain ⟨route, hr, h⟩ := bind_eq_ok.mp h
    obtain ⟨tail, ht, h⟩ := bind_eq_ok.mp h
    cases h
    exact .cons ⟨_, _, hr⟩ (ih ht)

/-- Every route is linked when what its pass keeps is. -/
theorem persistRoutes_linked {context : RecoveryContext} {roads : RoadRoutes}
    {nextId routeNo : Nat} {tasks : List RouteTask} {routes : List VehicleRoute}
    (h : persistRoutes context roads nextId routeNo tasks = .ok routes)
    (hkept : ∀ task ∈ tasks, ((task.kept context).map (·.id)).Nodup ∧
      EachAfter OriginBefore [] (task.kept context)) :
    ∀ route ∈ routes, EachAfter OriginBefore [] route.stops := by
  intro route hr
  obtain ⟨task, ht, id, no, hpass⟩ := exists_of_forall₂_right (persistRoutes_each h) hr
  exact persistStops_linked (hkept task ht).1 (hkept task ht).2 (persistRoute_stops hpass)

/-- The stops of routes that take the next ids have different ones. -/
theorem stopIds_nodup {routes : List VehicleRoute} {nextId count : Nat}
    (h : (routes.flatMap fun route ↦ route.id :: route.stops.map (·.id)) =
      List.range' nextId count) : ((routes.flatMap (·.stops)).map (·.id)).Nodup := by
  have hall : (routes.flatMap fun route ↦ route.id :: route.stops.map (·.id)).Nodup := by
    rw [h]
    exact List.nodup_range'
  refine List.Sublist.nodup ?_ hall
  rw [List.map_flatMap]
  clear h hall
  induction routes with
  | nil => exact .slnil
  | cons route routes ih =>
    rw [List.flatMap_cons, List.flatMap_cons]
    exact (List.sublist_cons_self _ _).append ih

/-- In a plan with different ids, a linked route in sequence has the precedences that the
trigger asks for. -/
theorem preceded_of_linked {plan : DeliveryPlan}
    (hids : ((plan.routes.flatMap (·.stops)).map (·.id)).Nodup) {route : VehicleRoute}
    (hr : route ∈ plan.routes)
    (hsorted : route.stops.Pairwise fun a b ↦ a.sequenceNo < b.sequenceNo)
    (h : EachAfter OriginBefore [] route.stops) {stop : RouteStop} (hs : stop ∈ route.stops) :
    stop.Preceded plan := by
  obtain ⟨pre, post, he, hok⟩ := h.of_mem hs
  rw [List.nil_append, OriginBefore] at hok
  rw [RouteStop.Preceded]
  split at hok
  · next hd =>
    rw [if_pos hd]
    obtain ⟨origin, ho, hlink, horder, htype⟩ := hok
    have hmem : origin ∈ route.stops := by
      rw [he]
      exact List.mem_append_left _ ho
    refine ⟨origin, ?_, horder, htype, ?_⟩
    · rw [hlink, Option.bind_some]
      exact (find?_key_eq_some_iff hids).mpr ⟨List.mem_flatMap.mpr ⟨route, hr, hmem⟩, rfl⟩
    · rw [he, List.pairwise_append] at hsorted
      exact hsorted.2.2 origin ho stop List.mem_cons_self
  · next hd =>
    rw [if_neg hd]
    exact hok

/-! ### The places of stops -/

/-- A copy is where its original is, and has to be there. -/
theorem located_of_copyOf {db : Database} {snapshot stop : RouteStop} (h : CopyOf snapshot stop)
    (hl : snapshot.expectedLocation? db = some snapshot.locationId) :
    stop.expectedLocation? db = some stop.locationId := by
  rw [h.field (·.expectedLocation? db) fun _ _ _ _ ↦ rfl, hl,
    h.field (·.locationId) fun _ _ _ _ ↦ rfl]

/-- A new stop is where its order or the incident is. -/
theorem located_of_solvedAs {db : Database} {incident : Incident} {base : DeliveryPlan}
    {scope : ReplanningScope} {operationalTime : Instant} {context : RecoveryContext}
    {matrix : RoutingMatrix} {input : SolverInput} {result : SolverResult}
    (hi : db.incident? incident.id = some incident)
    (hr : ReadFrom db incident base scope operationalTime context)
    (hinput : buildRecoverySolverInput context matrix = .ok input) (hacc : Accepted input result)
    {solver : SolverRoute} (hs : solver ∈ result.routes) {solverStop : SolverStop}
    (hstop : solverStop ∈ solver.stops) {stop : RouteStop} (h : SolvedAs context solverStop stop) :
    stop.expectedLocation? db = some stop.locationId := by
  obtain ⟨fact, hf, he⟩ := h
  obtain ⟨solverOrder, hmem, hid, -, hcase⟩ := hacc.routing.stop_cases hs hstop
  have hfields := targetOrder?_fields hinput hf hmem hid
  have hfact : fact ∈ context.targetOrders := List.mem_of_find?_eq_some hf
  have hfid : fact.orderId = solverStop.orderId := eq_of_beq (List.find?_some hf :)
  obtain ⟨orderId, -, hread⟩ := exists_of_forall₂_right hr.targetOrders hfact
  obtain ⟨order, ho, hpickup, hdelivery⟩ := orderFact_locations hread
  obtain ⟨membership, row, -, -, hof⟩ := orderFact_ok hread
  rw [hfid] at ho
  rw [he, RouteStop.expectedLocation?, newStop]
  dsimp only
  rcases hcase with horigin | hdel
  · have hkind := horigin.kind
    have hlocation := horigin.location
    rw [SolverResultValidator.originType, hfields] at hkind
    rw [SolverOrder.originLocation, hfields] at hlocation
    rw [solverOrderFields] at hkind hlocation
    cases hh : fact.handoverRequired with
    | true =>
      rw [hh, Bool.true_or, if_pos rfl, if_pos rfl] at hkind hlocation
      obtain ⟨hplace, hsome⟩ := hof.handoverLocationId hh
      rw [Option.none_or, hplace] at hlocation
      rw [Option.isSome_none, if_neg Bool.false_ne_true, hplace, if_pos hsome,
        Option.some.injEq] at hkind
      rw [← hkind]
      dsimp only
      rw [if_pos rfl, Option.bind_some, hr.incidentId, hi, Option.bind_some]
      exact hlocation
    | false =>
      rw [hh, Bool.false_or] at hkind hlocation
      cases hdo : fact.deliveryOnly with
      | true =>
        rw [hdo] at hlocation
        cases hlocation
      | false =>
        rw [hdo] at hkind hlocation
        have htype : solverStop.stopType = .pickup := (Option.some.inj hkind).symm
        have hplace : fact.pickupLocationId = solverStop.locationId := Option.some.inj hlocation
        rw [htype]
        dsimp only
        rw [ho, Option.map_some, ← hpickup, hplace]
  · have hplace : solverStop.locationId = fact.deliveryLocationId := by
      rw [hdel.location, hfields]
      rfl
    rw [hdel.kind]
    dsimp only
    rw [ho, Option.map_some, hplace, hdelivery]

/-! ### One stop of a kind -/

/-- The solver stops for an order as the base route of its vehicle does already, with a stop that
stays: it is COMPLETED, or its route is not rebuilt. -/
def Repeats (context : RecoveryContext) (base : VehicleRoute) (solver : SolverRoute) : Prop :=
  ∃ solverStop ∈ solver.stops, ∃ stop ∈ base.stops, stop.orderId = solverStop.orderId ∧
    stop.stopType = solverStop.stopType ∧
      (stop.status = .completed ∨ base.id ∉ context.rebuiltRouteIds)

/-- No solver route repeats a stop that stays on the base route of its vehicle. -/
def NoRepeat (context : RecoveryContext) (result : SolverResult) : Prop :=
  ∀ base ∈ context.routes, ∀ solver ∈ result.routes, solver.vehicleId = base.vehicleId →
    ¬ Repeats context base solver

/-- An accepted route has one stop of a kind for an order. -/
theorem solver_once {input : SolverInput} {result : SolverResult} (h : Accepted input result)
    {solver : SolverRoute} (hs : solver ∈ result.routes) :
    (solver.stops.map fun stop ↦ (stop.orderId, stop.stopType)).Nodup := by
  rw [List.nodup_iff_pairwise_ne, List.pairwise_map, List.pairwise_iff_forall_sublist]
  intro a b hab he
  rw [Prod.mk.injEq] at he
  have ha : a ∈ solver.stops := hab.subset List.mem_cons_self
  obtain ⟨order, -, hid, hserved, -⟩ := h.routing.stop_cases hs ha
  have hsub : [a, b].Sublist (solver.stopsOf order.orderId) := by
    have hfilter := hab.filter fun stop ↦ decide (stop.orderId = order.orderId)
    have hkept : [a, b].filter (fun stop ↦ decide (stop.orderId = order.orderId)) = [a, b] := by
      rw [List.filter_eq_self]
      intro stop hstop
      rw [decide_eq_true_eq, hid]
      rcases List.mem_pair.mp hstop with rfl | rfl
      · rfl
      · exact he.1.symm
    rw [hkept] at hfilter
    exact hfilter
  rcases hserved with ⟨origin, delivery, hstops, horigin, hdelivery⟩ | ⟨-, -, delivery, hstops, -⟩
  · rw [hstops] at hsub
    have hsame := hsub.eq_of_length rfl
    rw [List.cons.injEq, List.cons.injEq] at hsame
    obtain ⟨rfl, rfl, -⟩ := hsame
    exact horigin.ne_delivery (he.2.trans hdelivery.kind)
  · rw [hstops] at hsub
    exact absurd hsub.length_le (Nat.not_succ_le_self 1)

/-- What a pass keeps is linked and in place. -/
structure KeptWell (db : Database) (context : RecoveryContext) (task : RouteTask) : Prop where
  ids : ((task.kept context).map (·.id)).Nodup
  once : ((task.kept context).map fun stop ↦ (stop.orderId, stop.stopType)).Nodup
  linked : EachAfter OriginBefore [] (task.kept context)
  located : ∀ stop ∈ task.kept context, stop.expectedLocation? db = some stop.locationId

variable {db : Database} {incident : Incident} {base : DeliveryPlan} {scope : ReplanningScope}
  {operationalTime : Instant} {context : RecoveryContext} {result : SolverResult}

/-- The routes of the context are those of an executed base plan. -/
theorem ReadFrom.mem_base (h : ReadFrom db incident base scope operationalTime context)
    (hexecuted : ∀ route ∈ base.routes, route.Executed) {route : VehicleRoute}
    (hr : route ∈ context.routes) : route ∈ base.routes := by
  obtain ⟨own, hown, rfl⟩ := (h.mem_routes route).mp hr
  rw [routeSnapshot_of_executed (hexecuted own hown)]
  exact hown

/-- Kept stops of an executed and linked base plan. -/
theorem keptWell (h : ReadFrom db incident base scope operationalTime context)
    (hexecuted : ∀ route ∈ base.routes, route.Executed)
    (hlinked : ∀ route ∈ base.routes, route.WellLinked db) {task : RouteTask}
    (ht : task ∈ routeTasks context result) : KeptWell db context task := by
  rcases kept_of_task ht with hnil | ⟨own, hown, he⟩
  · refine ⟨?_, ?_, ?_, ?_⟩ <;> rw [hnil]
    · exact .nil
    · exact .nil
    · trivial
    · exact fun stop hs ↦ (by cases hs)
  · have hmem := h.mem_base hexecuted hown
    have hsub : (preservedStops context own).Sublist own.stops := by
      rw [preservedStops]
      split
      · exact List.filter_sublist
      · exact .refl _
    refine ⟨?_, ?_, ?_, ?_⟩ <;> rw [he]
    · exact (hsub.map _).nodup (hexecuted own hmem).stopIds
    · exact (hsub.map _).nodup (hlinked own hmem).once
    · exact linked_preservedStops (hexecuted own hmem) (hlinked own hmem).linked
    · exact fun stop hs ↦ (hlinked own hmem).located stop (hsub.subset hs)

/-- A built route has one stop of a kind for an order exactly when what its pass adds repeats
nothing that it keeps. -/
theorem BuiltFrom.once_iff {task : RouteTask} {route : VehicleRoute}
    (h : BuiltFrom context task route)
    (hkept : ((task.kept context).map fun stop ↦ (stop.orderId, stop.stopType)).Nodup)
    (hsolved : (task.solved.map fun stop ↦ (stop.orderId, stop.stopType)).Nodup) :
    (route.stops.map fun stop ↦ (stop.orderId, stop.stopType)).Nodup ↔
      ∀ stop ∈ task.kept context, ∀ solverStop ∈ task.solved,
        stop.orderId = solverStop.orderId → stop.stopType ≠ solverStop.stopType := by
  rw [h.stopKeys, RouteTask.stopKeys, List.nodup_append]
  constructor
  · rintro ⟨-, -, hdisjoint⟩ stop hs solverStop hstop horder htype
    refine hdisjoint _ (List.mem_map_of_mem hs) _ (List.mem_map_of_mem hstop) ?_
    rw [horder, htype]
  · intro hdisjoint
    refine ⟨hkept, hsolved, ?_⟩
    intro key hk key' hk' he
    obtain ⟨stop, hs, rfl⟩ := List.mem_map.mp hk
    obtain ⟨solverStop, hstop, rfl⟩ := List.mem_map.mp hk'
    rw [Prod.mk.injEq] at he
    exact hdisjoint stop hs solverStop hstop he.1 he.2

/-- A kept stop and a new one of one kind are a repeat, and a repeat is a kept stop. -/
theorem repeats_iff {own : VehicleRoute} {solver : SolverRoute}
    (htarget : ∀ solverStop ∈ solver.stops, solverStop.orderId ∈ context.targetOrderIds) :
    Repeats context own solver ↔ ∃ stop ∈ preservedStops context own,
      ∃ solverStop ∈ solver.stops, stop.orderId = solverStop.orderId ∧
        stop.stopType = solverStop.stopType := by
  constructor
  · rintro ⟨solverStop, hsolver, stop, hs, horder, htype, hstays⟩
    refine ⟨stop, mem_preservedStops.mpr ⟨hs, fun htaken ↦ ?_⟩, solverStop, hsolver, horder, htype⟩
    exact hstays.resolve_right fun hnot ↦ hnot htaken.1
  · rintro ⟨stop, hs, solverStop, hsolver, horder, htype⟩
    obtain ⟨hmem, htaken⟩ := mem_preservedStops.mp hs
    refine ⟨solverStop, hsolver, stop, hmem, horder, htype, ?_⟩
    by_cases hrebuilt : own.id ∈ context.rebuiltRouteIds
    · refine .inl (htaken ⟨hrebuilt, ?_⟩)
      rw [horder]
      exact htarget solverStop hsolver
    · exact .inr hrebuilt

/-- For a context read from an executed and linked base plan and an accepted result: the routes
that `_persist_candidate_routes` makes meet the stop rules exactly when no solver route repeats
a stop that stays. -/
theorem persistCandidateRoutes_rules {matrix : RoutingMatrix} {input : SolverInput}
    {roads : RoadRoutes} {nextId : Nat} {plan : DeliveryPlan}
    (hi : db.incident? incident.id = some incident)
    (hread : ReadFrom db incident base scope operationalTime context)
    (hexecuted : ∀ route ∈ base.routes, route.Executed)
    (hlinked : ∀ route ∈ base.routes, route.WellLinked db)
    (hinput : buildRecoverySolverInput context matrix = .ok input) (hacc : Accepted input result)
    (hp : persistCandidateRoutes context result roads nextId = .ok plan.routes) :
    plan.StopRules db ↔ NoRepeat context result := by
  obtain ⟨hbuilt, -, hids⟩ := persistRoutes_ok hp
  have hv := hacc.routing.vehicles
  have hkept : ∀ task ∈ routeTasks context result, KeptWell db context task :=
    fun task ht ↦ keptWell hread hexecuted hlinked ht
  have hlinks := persistRoutes_linked hp fun task ht ↦ ⟨(hkept task ht).ids, (hkept task ht).linked⟩
  have honce : ∀ task ∈ routeTasks context result,
      (task.solved.map fun stop ↦ (stop.orderId, stop.stopType)).Nodup := by
    intro task ht
    rcases solved_eq hv ht with hnil | ⟨solver, hs, -, he⟩
    · rw [hnil]
      exact .nil
    · rw [he]
      exact solver_once hacc hs
  have htarget : ∀ solver ∈ result.routes, ∀ solverStop ∈ solver.stops,
      solverStop.orderId ∈ context.targetOrderIds := by
    intro solver hs solverStop hstop
    obtain ⟨order, ho, hid⟩ := hacc.routing.known solver hs solverStop hstop
    obtain ⟨fact, hf, he⟩ := (exists_solverOrder hinput).2 order ho
    refine List.mem_map.mpr ⟨fact, hf, ?_⟩
    rw [← hid, he]
    rfl
  constructor
  · intro h own hown solver hs hid hrepeats
    obtain ⟨stop, hstop, solverStop, hsolverStop, horder, htype⟩ :=
      (repeats_iff (htarget solver hs)).mp hrepeats
    have hpop : popped result own = some solver :=
      (lastWrite_solverRouteWrites hv _ _).mpr ⟨hs, hid⟩
    have ht : RouteTask.base own (some solver) ∈ routeTasks context result := by
      refine (mem_routeTasks hv _).mpr (.inl ⟨own, hown, ?_⟩)
      rw [baseTask, hpop, if_neg]
      exact fun hc ↦ (by cases hc.2)
    obtain ⟨route, hroute, hb⟩ := exists_of_forall₂_left hbuilt ht
    exact (hb.once_iff (hkept _ ht).once (honce _ ht)).mp (h.once route hroute) stop hstop
      solverStop hsolverStop horder htype
  · intro h
    refine ⟨fun route hroute ↦ ?_, fun route hroute stop hs ↦ ?_, fun route hroute stop hs ↦ ?_⟩
    · obtain ⟨task, ht, hb⟩ := exists_of_forall₂_right hbuilt hroute
      refine (hb.once_iff (hkept task ht).once (honce task ht)).mpr ?_
      intro stop hstop solverStop hsolverStop horder htype
      rcases solved_eq hv ht with hnil | ⟨solver, hs, hid, he⟩
      · rw [hnil] at hsolverStop
        cases hsolverStop
      · rw [he] at hsolverStop
        cases task with
        | extra solver' => cases hstop
        | base own solver' =>
          have hown := base_of_task ht
          exact h own hown solver hs hid ((repeats_iff (htarget solver hs)).mpr
            ⟨stop, hstop, solverStop, hsolverStop, horder, htype⟩)
    · obtain ⟨task, -, hb⟩ := exists_of_forall₂_right hbuilt hroute
      refine preceded_of_linked (stopIds_nodup hids) hroute ?_ (hlinks route hroute) hs
      have hpairs : (route.stops.map (·.sequenceNo)).Pairwise (· < ·) := by
        rw [hb.stops.sequence]
        exact List.pairwise_lt_range'
      exact List.pairwise_map.mp hpairs
    · obtain ⟨task, ht, hb⟩ := exists_of_forall₂_right hbuilt hroute
      obtain ⟨copies, solved, he, hc, hsolved⟩ := hb.stops.parts
      rw [he, List.mem_append] at hs
      rcases hs with hs | hs
      · obtain ⟨snapshot, hm, hcopy⟩ := exists_of_forall₂_right hc hs
        exact located_of_copyOf hcopy ((hkept task ht).located snapshot hm)
      · obtain ⟨solverStop, hm, hof⟩ := exists_of_forall₂_right hsolved hs
        obtain ⟨solver, hmem, -, hstop⟩ := solved_mem hv ht hm
        exact located_of_solvedAs hi hread hinput hacc hmem hstop hof

end PenroseRoute.Recovery
