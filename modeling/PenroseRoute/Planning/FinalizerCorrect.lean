import PenroseRoute.Planning.Finalizer
import PenroseRoute.Planning.SolverContract
import PenroseRoute.Recovery.StopRules

/-!
# What the finalizer makes of an accepted result

For facts that can be planned and a result that the validator accepts, `PlanFinalizer.finalize`
meets no missing key: every solver stop becomes a stop that is linked to its origin, every solver
route a route, and every order gets a membership.
-/

namespace PenroseRoute.Planning

open PenroseRoute.Db PenroseRoute.Lib PenroseRoute.Operations PenroseRoute.Optimization
open PenroseRoute.Recovery

variable {facts : PlanningFacts} {matrix : RoutingMatrix} {input : SolverInput}
  {result : SolverResult} {roads : RoadRoutes}

/-! ### Lookups -/

/-- A built input has an order for every order and a vehicle for every pair. -/
theorem buildSolverInput_rows (h : buildSolverInput facts matrix = .ok input) :
    List.Forall₂ (fun fact order ↦ planningSolverOrder facts fact = .ok order)
        facts.orders input.orders ∧
      List.Forall₂ (fun pair vehicle ↦ planningSolverVehicle facts pair = .ok vehicle)
        facts.vehicleDriverPairs input.vehicles := by
  obtain ⟨orders, horders, h⟩ := bind_eq_ok.mp h
  obtain ⟨vehicles, hvehicles, h⟩ := bind_eq_ok.mp h
  have hfields := SolverInput.make_ok ((valueError_eq_ok _ _).mp h)
  rw [hfields]
  exact ⟨mapM_eq_ok_iff.mp horders, mapM_eq_ok_iff.mp hvehicles⟩

/-- An order is found by its id. -/
theorem Plannable.order?_eq_some (h : Plannable facts) {orderId : UUID}
    {order : PlanningOrderFact} :
    facts.order? orderId = some order ↔ order ∈ facts.orders ∧ order.orderId = orderId := by
  have hkeys : ((facts.orders.map fun order ↦ (order.orderId, order)).map (·.1)).Nodup := by
    rw [List.map_map]
    exact h.orderIds
  rw [PlanningFacts.order?, lastWrite_eq_some_iff hkeys, List.mem_map]
  constructor
  · rintro ⟨row, hrow, he⟩
    cases he
    exact ⟨hrow, rfl⟩
  · rintro ⟨hmem, rfl⟩
    exact ⟨order, hmem, rfl⟩

/-- A pair is found by the id of its vehicle. -/
theorem Plannable.pair?_eq_some (h : Plannable facts) {vehicleId : UUID}
    {pair : VehicleDriverPairFact} :
    facts.pair? vehicleId = some pair ↔
      pair ∈ facts.vehicleDriverPairs ∧ pair.vehicleId = vehicleId := by
  have hkeys : ((facts.vehicleDriverPairs.map fun pair ↦ (pair.vehicleId, pair)).map
      (·.1)).Nodup := by
    rw [List.map_map]
    exact h.vehicleIds
  rw [PlanningFacts.pair?, lastWrite_eq_some_iff hkeys, List.mem_map]
  constructor
  · rintro ⟨row, hrow, he⟩
    cases he
    exact ⟨hrow, rfl⟩
  · rintro ⟨hmem, rfl⟩
    exact ⟨pair, hmem, rfl⟩

/-! ### Stops -/

/-- A stop is the one made of a solver stop. -/
def FinalizedAs (facts : PlanningFacts) (solverStop : SolverStop) (stop : RouteStop) : Prop :=
  ∃ order, facts.order? solverStop.orderId = some order ∧
    stop = finalizedStop facts order solverStop stop.id stop.precedenceStopId

/-- One solver stop: its order is known, and a delivery has an origin before it. -/
theorem finalizeStops_cons {nextId : Nat} {originStopIds : List (UUID × UUID)}
    {solverStop : SolverStop} {rest : List SolverStop} {stops : List RouteStop}
    (h : finalizeStops facts nextId originStopIds (solverStop :: rest) = .ok stops) :
    ∃ order precedence tail, facts.order? solverStop.orderId = some order ∧
      stops = finalizedStop facts order solverStop nextId precedence :: tail ∧
      ((solverStop.stopType = .delivery ∧ precedence = lastWrite originStopIds solverStop.orderId ∧
          precedence.isSome ∧ finalizeStops facts (nextId + 1) originStopIds rest = .ok tail) ∨
        (solverStop.stopType ≠ .delivery ∧ precedence = none ∧
          finalizeStops facts (nextId + 1)
            (originStopIds ++ [(solverStop.orderId, nextId)]) rest = .ok tail)) := by
  obtain ⟨order, ho, h⟩ := bind_eq_ok.mp h
  rw [orRaise_eq_ok] at ho
  split at h
  · next hd =>
    obtain ⟨origin, hor, h⟩ := bind_eq_ok.mp h
    rw [orRaise_eq_ok] at hor
    obtain ⟨tail, ht, h⟩ := bind_eq_ok.mp h
    cases h
    exact ⟨order, some origin, tail, ho, rfl, .inl ⟨hd, hor.symm, rfl, ht⟩⟩
  · next hd =>
    obtain ⟨tail, ht, h⟩ := bind_eq_ok.mp h
    cases h
    exact ⟨order, none, tail, ho, rfl, .inr ⟨hd, rfl, ht⟩⟩

/-- Every solver stop becomes one stop. -/
theorem finalizeStops_finalizedAs {nextId : Nat} {originStopIds : List (UUID × UUID)}
    {solverStops : List SolverStop} {stops : List RouteStop}
    (h : finalizeStops facts nextId originStopIds solverStops = .ok stops) :
    List.Forall₂ (FinalizedAs facts) solverStops stops ∧
      stops.map (·.id) = List.range' nextId stops.length := by
  induction solverStops generalizing nextId originStopIds stops with
  | nil =>
    cases h
    exact ⟨.nil, rfl⟩
  | cons solverStop rest ih =>
    obtain ⟨order, precedence, tail, ho, rfl, hcase⟩ := finalizeStops_cons h
    have htail : ∃ originStopIds',
        finalizeStops facts (nextId + 1) originStopIds' rest = .ok tail := by
      rcases hcase with ⟨-, -, -, ht⟩ | ⟨-, -, ht⟩
      · exact ⟨_, ht⟩
      · exact ⟨_, ht⟩
    obtain ⟨originStopIds', ht⟩ := htail
    obtain ⟨hs, hid⟩ := ih ht
    refine ⟨.cons ⟨order, ho, rfl⟩ hs, ?_⟩
    rw [List.map_cons, List.length_cons, List.range'_succ, hid]
    rfl

/-- Deliveries are linked when every entry of `origin_stop_ids` is a stop before them. -/
theorem linked_finalizeStops {nextId : Nat} {originStopIds : List (UUID × UUID)}
    {solverStops : List SolverStop} {before stops : List RouteStop}
    (h : finalizeStops facts nextId originStopIds solverStops = .ok stops)
    (horigins : ∀ orderId id, (orderId, id) ∈ originStopIds → ∃ origin ∈ before,
      origin.id = id ∧ origin.orderId = orderId ∧ origin.stopType ≠ .delivery) :
    EachAfter OriginBefore before stops := by
  induction solverStops generalizing nextId originStopIds before stops with
  | nil =>
    cases h
    trivial
  | cons solverStop rest ih =>
    obtain ⟨order, precedence, tail, -, rfl, hcase⟩ := finalizeStops_cons h
    rcases hcase with ⟨hd, rfl, hsome, ht⟩ | ⟨hd, rfl, ht⟩
    · refine ⟨?_, ih ht fun orderId id hm ↦ ?_⟩
      · obtain ⟨id, hid⟩ := Option.isSome_iff_exists.mp hsome
        obtain ⟨origin, ho, hoid, horder, htype⟩ := horigins _ _ (mem_of_lastWrite hid)
        rw [OriginBefore, if_pos (show (finalizedStop _ _ _ _ _).stopType = _ from hd)]
        refine ⟨origin, ho, ?_, horder, htype⟩
        rw [hoid]
        exact hid
      · obtain ⟨origin, ho, hrest⟩ := horigins orderId id hm
        exact ⟨origin, List.mem_append_left _ ho, hrest⟩
    · refine ⟨?_, ih ht fun orderId id hm ↦ ?_⟩
      · rw [OriginBefore, if_neg (show ¬ (finalizedStop _ _ _ _ _).stopType = _ from hd)]
        rfl
      · rcases List.mem_append.mp hm with hm | hm
        · obtain ⟨origin, ho, hrest⟩ := horigins orderId id hm
          exact ⟨origin, List.mem_append_left _ ho, hrest⟩
        · rw [List.mem_singleton, Prod.mk.injEq] at hm
          exact ⟨_, List.mem_append_right _ (List.mem_singleton.mpr rfl), hm.2.symm, hm.1.symm, hd⟩

/-- A route is the one made of a solver route. -/
structure FinalizedRoute (facts : PlanningFacts) (roads : RoadRoutes) (solverRoute : SolverRoute)
    (route : VehicleRoute) : Prop where
  row : ∃ pair road last, facts.pair? solverRoute.vehicleId = some pair ∧
    finalizedRoad roads solverRoute.vehicleId = .ok road ∧
      solverRoute.stops.getLast? = some last ∧
        route = { finalizedRoute facts pair road solverRoute last route.id route.routeNo with
          stops := route.stops }
  stops : List.Forall₂ (FinalizedAs facts) solverRoute.stops route.stops
  linked : EachAfter OriginBefore [] route.stops
  stopIds : route.stops.map (·.id) = List.range' (route.id + 1) route.stops.length

/-- One pass makes the route of its solver route. -/
theorem finalizeRoute_ok {id routeNo : Nat} {solverRoute : SolverRoute} {route : VehicleRoute}
    (h : finalizeRoute facts roads id routeNo solverRoute = .ok route) :
    FinalizedRoute facts roads solverRoute route ∧ route.id = id ∧ route.routeNo = routeNo := by
  obtain ⟨pair, hpair, h⟩ := bind_eq_ok.mp h
  obtain ⟨road, hroad, h⟩ := bind_eq_ok.mp h
  obtain ⟨last, hlast, h⟩ := bind_eq_ok.mp h
  obtain ⟨stops, hstops, h⟩ := bind_eq_ok.mp h
  cases h
  rw [orRaise_eq_ok] at hpair hlast
  obtain ⟨hall, hids⟩ := finalizeStops_finalizedAs hstops
  exact ⟨⟨⟨pair, road, last, hpair, hroad, hlast, rfl⟩, hall,
    linked_finalizeStops hstops nofun, hids⟩, rfl, rfl⟩

/-- The routes of the solver routes, numbered in order, each followed by the rows of its
stops. -/
theorem finalizeRoutes_ok {nextId routeNo : Nat} {solverRoutes : List SolverRoute}
    {routes : List VehicleRoute}
    (h : finalizeRoutes facts roads nextId routeNo solverRoutes = .ok routes) :
    List.Forall₂ (FinalizedRoute facts roads) solverRoutes routes ∧
      routes.map (·.routeNo) = List.range' (routeNo + 1) routes.length ∧
      (routes.flatMap fun route ↦ route.id :: route.stops.map (·.id)) =
        List.range' nextId (rowCount routes) := by
  induction solverRoutes generalizing nextId routeNo routes with
  | nil =>
    cases h
    exact ⟨.nil, rfl, rfl⟩
  | cons solverRoute rest ih =>
    obtain ⟨route, hr, h⟩ := bind_eq_ok.mp h
    obtain ⟨tail, ht, h⟩ := bind_eq_ok.mp h
    cases h
    obtain ⟨hb, hid, hno⟩ := finalizeRoute_ok hr
    obtain ⟨hall, hnos, hids⟩ := ih ht
    refine ⟨.cons hb hall, ?_, ?_⟩
    · rw [List.map_cons, hno, hnos, List.length_cons, List.range'_succ]
    · have hrows : rowCount (route :: tail) = route.stops.length + 1 + rowCount tail := by
        rw [rowCount, List.map_cons, List.sum_cons, Nat.add_comm 1]
        rfl
      have hnext : nextId + 1 + route.stops.length = nextId + (route.stops.length + 1) := by omega
      rw [List.flatMap_cons, hids, hb.stopIds, hid, ← List.range'_succ, hrows, hnext,
        List.range'_append_1]

/-- Orders of planning facts have their goods at a merchant. -/
theorem planned_origin (hrows : List.Forall₂ (fun fact order ↦
      planningSolverOrder facts fact = .ok order) facts.orders input.orders)
    {order : SolverOrder} (ho : order ∈ input.orders) : order.originLocation ≠ none := by
  obtain ⟨fact, -, hmake⟩ := exists_of_forall₂_right hrows ho
  rw [(planningSolverOrder_fields hmake).2.2]
  exact Option.some_ne_none _

/-- A route that visits an order makes exactly its origin and its delivery. -/
theorem served_stops (h : RoutingUpToEmptyRoutes input result)
    (horigins : ∀ order ∈ input.orders, order.originLocation ≠ none) {route : SolverRoute}
    (hr : route ∈ result.routes) {stop : SolverStop} (hs : stop ∈ route.stops) :
    ∃ origin delivery, route.stopsOf stop.orderId = [origin, delivery] ∧
      origin.stopType ≠ .delivery ∧ delivery.stopType = .delivery := by
  obtain ⟨order, ho, hid, hserved, -⟩ := h.stop_cases hr hs
  rw [← hid]
  rcases hserved with ⟨origin, delivery, hstops, hO, hD⟩ | ⟨hnone, -⟩
  · exact ⟨origin, delivery, hstops, hO.ne_delivery, hD.kind⟩
  · exact absurd hnone (horigins order ho)

/-- What `finalize` is called with: facts that can be planned, their input, and a result that
the validator accepts, without empty routes and with road geometry for all routes or none. -/
structure Finalizable (facts : PlanningFacts) (input : SolverInput) (result : SolverResult)
    (roads : RoadRoutes) : Prop where
  plannable : Plannable facts
  orders : List.Forall₂ (fun fact order ↦ planningSolverOrder facts fact = .ok order)
    facts.orders input.orders
  vehicles : List.Forall₂ (fun pair vehicle ↦ planningSolverVehicle facts pair = .ok vehicle)
    facts.vehicleDriverPairs input.vehicles
  routing : RoutingUpToEmptyRoutes input result
  nonempty : result.NoEmptyRoute
  roads : ∀ entries ∈ roads, coversRoutes entries result = true

namespace Finalizable

variable {db : Database} {solverRoute : SolverRoute}

/-- A stop is one of a known order. -/
theorem known (h : Finalizable facts input result roads) (hr : solverRoute ∈ result.routes)
    {stop : SolverStop} (hs : stop ∈ solverRoute.stops) :
    ∃ order, facts.order? stop.orderId = some order := by
  obtain ⟨order, ho, hid⟩ := h.routing.known solverRoute hr stop hs
  obtain ⟨fact, hf, hmake⟩ := exists_of_forall₂_right h.orders ho
  exact ⟨fact, h.plannable.order?_eq_some.mpr
    ⟨hf, (planningSolverOrder_fields hmake).1.trans hid⟩⟩

end Finalizable

/-! ### Memberships -/

/-- Every stop has the order, the place and the number of its solver stop. -/
theorem FinalizedAs.field {solverStop : SolverStop} {stop : RouteStop}
    (h : FinalizedAs facts solverStop stop) : stop.orderId = solverStop.orderId ∧
      stop.stopType = solverStop.stopType ∧ stop.locationId = solverStop.locationId ∧
        stop.sequenceNo = solverStop.sequenceNo := by
  obtain ⟨order, -, he⟩ := h
  rw [he]
  exact ⟨rfl, rfl, rfl, rfl⟩

/-- A route holds an order when its solver route visits it. -/
theorem FinalizedRoute.holds_iff {solverRoute : SolverRoute} {route : VehicleRoute}
    (h : FinalizedRoute facts roads solverRoute route) (orderId : UUID) :
    route.holds orderId = true ↔ solverRoute.Visits orderId := by
  rw [VehicleRoute.holds, List.contains_iff_mem, List.mem_map]
  constructor
  · rintro ⟨stop, hs, hid⟩
    obtain ⟨solverStop, hsolver, hstop⟩ := exists_of_forall₂_right h.stops hs
    exact ⟨solverStop, hsolver, hstop.field.1.symm.trans hid⟩
  · rintro ⟨solverStop, hsolver, hid⟩
    obtain ⟨stop, hs, hstop⟩ := exists_of_forall₂_left h.stops hsolver
    exact ⟨stop, hs, hstop.field.1.trans hid⟩

/-- An assigned membership points at the last route that holds its order, an unassigned one has
the reason of the result. -/
theorem finalizedMembership_ok {routes : List VehicleRoute} {order : PlanningOrderFact}
    {membership : DeliveryPlanOrder}
    (h : finalizedMembership routes result order = .ok membership) :
    membership.orderId = order.orderId ∧
      ((membership.assignmentStatus = .assigned ∧ ∃ route,
          routes.reverse.find? (·.holds order.orderId) = some route ∧
            membership.vehicleRouteId = some route.id) ∨
        (membership.assignmentStatus = .unassigned ∧ membership.vehicleRouteId = none ∧
          membership.unassignedReasonCode.isSome ∧
            routes.reverse.find? (·.holds order.orderId) = none)) := by
  unfold finalizedMembership at h
  rw [lastWrite_routeByOrderWrites] at h
  cases hf : routes.reverse.find? (·.holds order.orderId) with
  | some route =>
    rw [hf] at h
    cases h
    exact ⟨rfl, .inl ⟨rfl, route, rfl, rfl⟩⟩
  | none =>
    rw [hf] at h
    obtain ⟨reason, -, h⟩ := bind_eq_ok.mp h
    cases h
    exact ⟨rfl, .inr ⟨rfl, rfl, rfl, rfl⟩⟩

/-- Which membership an order has: the route that holds both its stops, and no other route
holds any, or none at all. -/
def Fits (routes : List VehicleRoute) (membership : DeliveryPlanOrder) : Prop :=
  (membership.assignmentStatus = .assigned ∧ ∃ route ∈ routes,
    membership.vehicleRouteId = some route.id ∧
      (∃ origin ∈ route.stops, ∃ delivery ∈ route.stops,
        origin.orderId = membership.orderId ∧ origin.stopType ≠ .delivery ∧
          delivery.orderId = membership.orderId ∧ delivery.stopType = .delivery) ∧
      ∀ other ∈ routes, other.holds membership.orderId = true → other = route) ∨
  (membership.assignmentStatus = .unassigned ∧ membership.vehicleRouteId = none ∧
    membership.unassignedReasonCode.isSome ∧
      ∀ route ∈ routes, route.holds membership.orderId = false)

namespace Finalizable

variable {db : Database} {solverRoute : SolverRoute} {routes : List VehicleRoute}

/-- A stop's route holds an origin and a delivery of its order. -/
theorem both_stops (h : Finalizable facts input result roads) (hr : solverRoute ∈ result.routes)
    {route : VehicleRoute} (hroute : FinalizedRoute facts roads solverRoute route) {orderId : UUID}
    (hholds : route.holds orderId = true) :
    ∃ origin ∈ route.stops, ∃ delivery ∈ route.stops, origin.orderId = orderId ∧
      origin.stopType ≠ .delivery ∧ delivery.orderId = orderId ∧
        delivery.stopType = .delivery := by
  obtain ⟨stop, hs, rfl⟩ := (hroute.holds_iff orderId).mp hholds
  obtain ⟨origin, delivery, hstops, hO, hD⟩ :=
    served_stops h.routing (fun _ ↦ planned_origin h.orders) hr hs
  have hmem : ∀ s ∈ [origin, delivery], s ∈ solverRoute.stops ∧ s.orderId = stop.orderId := by
    intro s hs
    rw [← hstops] at hs
    simpa [SolverRoute.stopsOf] using hs
  obtain ⟨ho, hoid⟩ := hmem origin (by simp)
  obtain ⟨hd, hdid⟩ := hmem delivery (by simp)
  obtain ⟨o, hom, hof⟩ := exists_of_forall₂_left hroute.stops ho
  obtain ⟨d, hdm, hdf⟩ := exists_of_forall₂_left hroute.stops hd
  refine ⟨o, hom, d, hdm, hof.field.1.trans hoid, ?_, hdf.field.1.trans hdid, ?_⟩
  · rw [hof.field.2.1]
    exact hO
  · rw [hdf.field.2.1]
    exact hD

/-- Two solver routes that visit one order are the same. -/
theorem visits_unique (h : Finalizable facts input result roads) {a b : SolverRoute}
    (ha : a ∈ result.routes) (hb : b ∈ result.routes) {orderId : UUID} (hva : a.Visits orderId)
    (hvb : b.Visits orderId) : a = b := by
  obtain ⟨stop, hs, hid⟩ := hva
  obtain ⟨order, ho, he⟩ := h.routing.known a ha stop hs
  rw [hid] at he
  subst he
  rcases h.routing.accounted order ho with ⟨-, hnone⟩ | ⟨-, r, -, -, hunique⟩
  · exact absurd hvb (hnone b hb)
  · exact (hunique a ha ⟨stop, hs, hid⟩).trans (hunique b hb hvb).symm

/-- A route keeps the vehicle of its solver route. -/
theorem vehicleId (h : Finalizable facts input result roads) {route : VehicleRoute}
    (hroute : FinalizedRoute facts roads solverRoute route) :
    route.vehicleId = solverRoute.vehicleId := by
  obtain ⟨pair, road, last, hpair, -, -, he⟩ := hroute.row
  rw [he]
  exact (h.plannable.pair?_eq_some.mp hpair).2

/-- A route is made for each one of the result, of the same vehicle. -/
theorem vehicleIds (h : Finalizable facts input result roads)
    (hroutes : List.Forall₂ (FinalizedRoute facts roads) result.routes routes) :
    routes.map (·.vehicleId) = result.routes.map (·.vehicleId) := by
  refine (map_eq_map_of_forall₂ (fun solver route hr ↦ ?_) hroutes).symm
  exact (h.vehicleId hr).symm

/-- Every membership fits the routes. -/
theorem fits (h : Finalizable facts input result roads)
    (hroutes : List.Forall₂ (FinalizedRoute facts roads) result.routes routes)
    {order : PlanningOrderFact} {membership : DeliveryPlanOrder}
    (hm : finalizedMembership routes result order = .ok membership) : Fits routes membership := by
  obtain ⟨hid, ⟨hassigned, route, hfind, hpoints⟩ | ⟨hun, hnone, hreason, hfind⟩⟩ :=
    finalizedMembership_ok hm
  · have hholds := List.find?_some hfind
    have hroute : route ∈ routes := List.mem_reverse.mp (List.mem_of_find?_eq_some hfind)
    obtain ⟨solver, hsolver, hfinal⟩ := exists_of_forall₂_right hroutes hroute
    rw [← hid] at hholds
    refine .inl ⟨hassigned, route, hroute, hpoints, h.both_stops hsolver hfinal hholds, ?_⟩
    intro other hother hoholds
    obtain ⟨solver', hsolver', hfinal'⟩ := exists_of_forall₂_right hroutes hother
    have hsame : solver' = solver := h.visits_unique hsolver' hsolver
      ((hfinal'.holds_iff _).mp hoholds) ((hfinal.holds_iff _).mp hholds)
    have hnodup : (routes.map (·.vehicleId)).Nodup := h.vehicleIds hroutes ▸ h.routing.vehicles
    refine eq_of_key_eq hnodup hother hroute ?_
    rw [h.vehicleId hfinal', h.vehicleId hfinal, hsame]
  · refine .inr ⟨hun, hnone, hreason, fun route hroute ↦ ?_⟩
    rw [hid]
    simpa using List.find?_eq_none.mp hfind route (List.mem_reverse.mpr hroute)

end Finalizable

end PenroseRoute.Planning
