import PenroseRoute.Optimization.OrToolsNodes
import PenroseRoute.Optimization.ValidatorAccepts

/-!
# The solver's results pass the validator

Whatever assignment satisfies the posted model, the routes read off it form a routing that
is feasible up to empty routes, so `SolverResultValidator.validate` accepts it. The frozen
tasks have to be prefixes that the validator would accept; the rest follows from the
dimensions and constraints that `_solve` posts.
-/

namespace PenroseRoute.Optimization

open PenroseRoute.Lib
open SolverResultValidator (originType expectedService pathDistance validate)

/-! ### Frozen prefixes -/

/-- Stops the validator accepts as the beginning of a route of a vehicle: every order has no
stop yet, its origin, or everything it needs. -/
structure FrozenPrefix (input : SolverInput) (vehicle : SolverVehicle) (stops : List SolverStop) :
    Prop where
  sequence : stops.map (·.sequenceNo) = List.range' 1 stops.length
  known : ∀ stop ∈ stops, ∃ order ∈ input.orders, order.orderId = stop.orderId
  orders : ∀ order ∈ input.orders,
    stops.filter (fun stop ↦ stop.orderId = order.orderId) = [] ∨
    (∃ origin, stops.filter (fun stop ↦ stop.orderId = order.orderId) = [origin] ∧
      OriginStop order origin) ∨
    ServedBy vehicle.vehicleId order (stops.filter fun stop ↦ stop.orderId = order.orderId)
  load : RunningWithin 0 vehicle.capacityLoadUnits vehicle.initialLoadLoadUnits
    (stops.map (·.loadChangeLoadUnits))
  available : ∀ stop ∈ stops, vehicle.availableFromSeconds ≤ stop.arrivalTimeSeconds ∧
    stop.departureTimeSeconds ≤ vehicle.availableUntilSeconds
  reaches : Reaches input vehicle.startLocationId vehicle.availableFromSeconds stops

/-- Every beginning of a route that fits its input is such a prefix. -/
theorem RouteFits.frozenPrefix {input : SolverInput} {route : SolverRoute}
    (h : RouteFits input route) {stops : List SolverStop} (hp : stops <+: route.stops) :
    ∃ vehicle ∈ input.vehicles, vehicle.vehicleId = route.vehicleId ∧
      FrozenPrefix input vehicle stops := by
  obtain ⟨vehicle, hv, hid, hd, -⟩ := h.drivable
  obtain ⟨rest, hrest⟩ := hp
  have hmem : ∀ stop ∈ stops, stop ∈ route.stops := by
    intro stop hs
    rw [← hrest]
    exact List.mem_append_left _ hs
  refine ⟨vehicle, hv, hid, ?_, ?_, ?_, ?_, ?_, ?_⟩
  · have hseq := hd.sequence
    rw [← hrest, List.map_append] at hseq
    obtain ⟨k, -, hk, -⟩ := List.range'_eq_append_iff.mp hseq.symm
    have hlen := congrArg List.length hk
    rw [List.length_map, List.length_range'] at hlen
    rw [hk, hlen]
  · intro stop hs
    obtain ⟨order, ho, he, -⟩ := h.served stop (hmem stop hs)
    exact ⟨order, ho, he⟩
  · intro order ho
    by_cases hn : stops.filter (fun stop ↦ stop.orderId = order.orderId) = []
    · exact .inl hn
    · obtain ⟨stop, hs⟩ := List.exists_mem_of_ne_nil _ hn
      obtain ⟨hs, he⟩ := List.mem_filter.mp hs
      obtain ⟨order', ho', he', hsv⟩ := h.served stop (hmem stop hs)
      have he₂ : stop.orderId = order.orderId := of_decide_eq_true he
      rw [eq_of_key_eq input.orders_nodup ho' ho (he'.trans he₂)] at hsv
      have hsplit : stops.filter (fun stop ↦ stop.orderId = order.orderId) ++
          rest.filter (fun stop ↦ stop.orderId = order.orderId) = route.stopsOf order.orderId := by
        rw [← List.filter_append, hrest, SolverRoute.stopsOf]
      rcases hsv with ⟨origin, delivery, hst, hO, hD⟩ | ⟨hl, hr, delivery, hst, hD⟩
      · rw [hst] at hsplit
        rcases List.append_eq_cons_iff.mp hsplit with ⟨hnil, -⟩ | ⟨tail, htail, hrem⟩
        · exact absurd hnil hn
        · rcases List.append_eq_singleton_iff.mp hrem.symm with ⟨rfl, -⟩ | ⟨rfl, -⟩
          · exact .inr (.inl ⟨origin, htail, hO⟩)
          · exact .inr (.inr (.inl ⟨origin, delivery, htail, hO, hD⟩))
      · rw [hst] at hsplit
        rcases List.append_eq_singleton_iff.mp hsplit with ⟨hnil, -⟩ | ⟨hone, -⟩
        · exact absurd hnil hn
        · rw [hid]
          exact .inr (.inr (.inr ⟨hl, hr, delivery, hone, hD⟩))
  · have hload := hd.load
    rw [← hrest, List.map_append, runningWithin_append] at hload
    exact hload.1
  · exact fun stop hs ↦ hd.available stop (hmem stop hs)
  · have hr := hd.reaches
    rw [← hrest, reaches_append] at hr
    exact hr.1

namespace ORToolsSolver

variable {input : SolverInput} {grouped : List (UUID × List FrozenTask)} {own : List Node}
  {all : List (SolverOrder × OrderNodes)} {a : RoutingAssignment DimensionName}
  {path : Nat → List Nat}

/-! ### The stops read off a path -/

/-- The stop appended for a node after `count` stops. -/
def stopFor (nodes : List Node) (a : RoutingAssignment DimensionName) (visit : Nat × Nat) :
    SolverStop where
  orderId := (nodeAt nodes visit.1).orderId.getD 0
  locationId := (nodeAt nodes visit.1).locationId.getD 0
  stopType := (nodeAt nodes visit.1).stopType.getD .delivery
  sequenceNo := visit.2 + 1
  arrivalTimeSeconds := (a.cumul .time visit.1).toNat
  departureTimeSeconds := (a.cumul .time visit.1).toNat + (nodeAt nodes visit.1).serviceSeconds
  serviceDurationSeconds := (nodeAt nodes visit.1).serviceSeconds
  loadChangeLoadUnits := (nodeAt nodes visit.1).loadChangeLoadUnits
  sequence_pos := Nat.succ_pos _
  arrival_le := Nat.le_add_right _ _

/-- On nodes of orders the loop appends one stop for each node. -/
theorem visitStops_eq_map {nodes : List Node} {visited : List Nat} (count : Nat)
    (hn : ∀ i ∈ visited, (nodeAt nodes i).orderId.isSome ∧ (nodeAt nodes i).stopType.isSome) :
    visitStops nodes a count visited = (visited.zipIdx count).map (stopFor nodes a) := by
  induction visited generalizing count with
  | nil => rfl
  | cons i rest ih =>
    obtain ⟨⟨ho, hk⟩, hr⟩ := List.forall_mem_cons.mp hn
    obtain ⟨orderId, ho⟩ := Option.isSome_iff_exists.mp ho
    obtain ⟨kind, hk⟩ := Option.isSome_iff_exists.mp hk
    rw [List.zipIdx_cons, List.map_cons, ← ih (count + 1) hr]
    simp only [visitStops, ho, hk, stopFor, Option.getD_some]

/-- The stops of an order among those of a list of visits come from the visits of its
nodes. -/
theorem filter_stopFor (nodes : List Node) (visited : List Nat) (count orderId : Nat) :
    ∃ visits : List (Nat × Nat), visits.map Prod.fst =
        visited.filter (fun i ↦ (nodeAt nodes i).orderId.getD 0 = orderId) ∧
      ((visited.zipIdx count).map (stopFor nodes a)).filter (fun stop ↦ stop.orderId = orderId) =
        visits.map (stopFor nodes a) := by
  refine ⟨(visited.zipIdx count).filter fun visit ↦
    (nodeAt nodes visit.1).orderId.getD 0 = orderId, ?_, ?_⟩
  · have hm := List.filter_map (p := fun i ↦ (nodeAt nodes i).orderId.getD 0 = orderId)
      (f := Prod.fst) (l := visited.zipIdx count)
    rw [List.zipIdx_map_fst] at hm
    exact hm.symm
  · rw [List.filter_map]
    rfl

private theorem filter_eq_of_sublist {ws xs : List Nat} {q : Nat → Bool} (hsub : ws.Sublist xs)
    (hn : xs.Nodup) (hq : ∀ x ∈ xs, q x = true ↔ x ∈ ws) : xs.filter q = ws := by
  have hws : ws.filter q = ws := by
    apply List.filter_eq_self.mpr
    intro x hx
    exact (hq x (hsub.subset hx)).mpr hx
  have hle : ws.Sublist (xs.filter q) := by
    rw [← hws]
    exact hsub.filter q
  have hlen : (xs.filter q).length ≤ ws.length := by
    apply List.Nodup.length_le_of_subset (hn.filter q)
    intro x hx
    obtain ⟨hx, hqx⟩ := List.mem_filter.mp hx
    exact (hq x hx).mp hqx
  exact (hle.eq_of_length_le hlen).symm

namespace Solved

/-- Cumulated times are never negative on a vehicle's route. -/
theorem time_nonneg (h : Solved input grouped own all a path) {k : Nat} {v : SolverVehicle}
    (hv : input.vehicles[k]? = some v) {i : Nat} (hi : i ∈ startNode k :: path k ++ [endNode k]) :
    0 ≤ a.cumul .time i :=
  (h.routes.bounded .time k _ _ (h.starts_getElem? hv) (h.ends_getElem? hv) i hi).1

/-- Along a vehicle's route times grow by at least the transit. -/
theorem time_along (h : Solved input grouped own all a path) {k : Nat} {v : SolverVehicle}
    (hv : input.vehicles[k]? = some v) :
    Along (fun i j ↦ a.cumul .time i + timeCallback input h.nodes i j ≤ a.cumul .time j)
      (startNode k) (path k) (endNode k) := by
  apply (h.routes.cumulated .time k _ _ (h.starts_getElem? hv) (h.ends_getElem? hv)).imp
  rintro i j ⟨slack, h0, -, he⟩
  change a.cumul .time j = a.cumul .time i + timeCallback input h.nodes i j + slack at he
  omega

/-- A node on a path has an order, a stop type and a location. -/
theorem visit_isSome (h : Solved input grouped own all a path) {k i : Nat} (hi : i ∈ path k) :
    (nodeAt h.nodes i).orderId.isSome ∧ (nodeAt h.nodes i).stopType.isSome ∧
      (nodeAt h.nodes i).locationId.isSome := by
  obtain ⟨p, hp, ho | hd⟩ := h.exists_owner hi
  · obtain ⟨kind, hk, hn⟩ := h.nodeAt_origin hp ho
    rw [hn]
    refine ⟨rfl, rfl, ?_⟩
    rcases originType_cases p.1 with ⟨hnone, -⟩ | ⟨_, location, -, -, hl, -⟩
    · rw [hnone] at hk
      cases hk
    · simp [originNodeOf, hl]
  · rw [h.nodeAt_delivery hp hd]
    exact ⟨rfl, rfl, rfl⟩

/-- The visits of a path are stops with consecutive numbers. -/
theorem visitStops_eq (h : Solved input grouped own all a path) (k count : Nat) :
    visitStops h.nodes a count (path k) = ((path k).zipIdx count).map (stopFor h.nodes a) :=
  visitStops_eq_map count fun _ hi ↦ ⟨(h.visit_isSome hi).1, (h.visit_isSome hi).2.1⟩

/-- The stop at the origin node of an order is its origin. -/
theorem originStop (h : Solved input grouped own all a path) {p : SolverOrder × OrderNodes}
    (hp : p ∈ all) {i : Nat} (ho : p.2.originNode = some i) (count : Nat) :
    OriginStop p.1 (stopFor h.nodes a (i, count)) := by
  obtain ⟨kind, hk, hn⟩ := h.nodeAt_origin hp ho
  obtain ⟨d, hd⟩ : ∃ d, p.2.deliveryNode = some d := by
    obtain ⟨order, on⟩ := p
    cases h.placed hp with
    | deliveryOnly => cases ho
    | served => cases ho
    | begun => cases ho
    | whole kind o d => exact ⟨d, rfl⟩
  have hready : (p.1.readyTimeSeconds : Int) ≤ a.cumul .time i := by
    have hpost := h.order_posted (c := .cumulRange .time i p.1.readyTimeSeconds (horizon input)) hp
    unfold orderConstraints at hpost
    simp only [hd, ho] at hpost
    exact (hpost (by simp)).1
  have hservice : (nodeAt h.nodes i).serviceSeconds = expectedService p.1 kind := by
    rw [hn]
    rcases p.1.origin_cases with ⟨loc, hp', -, -⟩ | ⟨loc, hp', hh', -⟩ | ⟨v, hp', hh', -⟩
    · simp only [originType, hp', Option.isSome_some, if_true, Option.some.injEq] at hk
      subst hk
      simp [originNodeOf, originServiceSeconds, hp', expectedService]
    · simp only [originType, hp', hh', Option.isSome_some, Option.isSome_none, if_true,
        Bool.false_eq_true, if_false, Option.some.injEq] at hk
      subst hk
      simp [originNodeOf, originServiceSeconds, hp', expectedService]
    · simp [originType, hp', hh'] at hk
  have hkind : (nodeAt h.nodes i).stopType.getD .delivery = kind := by
    rw [hn]
    rfl
  have hloc : p.1.originLocation = some ((nodeAt h.nodes i).locationId.getD 0) := by
    rcases originType_cases p.1 with ⟨hnone, -⟩ | ⟨_, location, -, -, hl, -⟩
    · rw [hnone] at hk
      cases hk
    · rw [hn, hl]
      simp [originNodeOf, hl]
  refine ⟨?_, hloc, ?_, ?_, ?_, ?_⟩
  · change originType p.1 = some ((nodeAt h.nodes i).stopType.getD .delivery)
    rw [hkind, hk]
  · change (nodeAt h.nodes i).serviceSeconds =
      expectedService p.1 ((nodeAt h.nodes i).stopType.getD .delivery)
    rw [hkind, hservice]
  · change _ + (nodeAt h.nodes i).serviceSeconds =
      _ + expectedService p.1 ((nodeAt h.nodes i).stopType.getD .delivery)
    rw [hkind, hservice]
    rfl
  · change (nodeAt h.nodes i).loadChangeLoadUnits = _
    rw [hn]
    rfl
  · change p.1.readyTimeSeconds ≤ (a.cumul .time i).toNat
    omega

/-- The stop at the delivery node of an order is its delivery. -/
theorem deliveryStop (h : Solved input grouped own all a path) {p : SolverOrder × OrderNodes}
    (hp : p ∈ all) {i : Nat} (hd : p.2.deliveryNode = some i) (count : Nat) :
    DeliveryStop p.1 (stopFor h.nodes a (i, count)) := by
  have hn := h.nodeAt_delivery hp hd
  have hwindow : (p.1.deliveryWindowStartSeconds : Int) ≤ a.cumul .time i ∧
      a.cumul .time i ≤ p.1.deliveryWindowEndSeconds := by
    have hpost := h.order_posted (c := .cumulRange .time i p.1.deliveryWindowStartSeconds
      p.1.deliveryWindowEndSeconds) hp
    unfold orderConstraints at hpost
    simp only [hd] at hpost
    exact hpost (by simp)
  refine ⟨?_, ?_, ?_, ?_, ?_, ?_⟩
  · change (nodeAt h.nodes i).stopType.getD .delivery = _
    rw [hn]
    rfl
  · change (nodeAt h.nodes i).locationId.getD 0 = _
    rw [hn]
    rfl
  · change (nodeAt h.nodes i).serviceSeconds = _
    rw [hn]
    rfl
  · change _ + (nodeAt h.nodes i).serviceSeconds = _
    rw [hn]
    rfl
  · change (nodeAt h.nodes i).loadChangeLoadUnits = _
    rw [hn]
    rfl
  · change p.1.deliveryWindowStartSeconds ≤ (a.cumul .time i).toNat ∧
      (a.cumul .time i).toNat ≤ p.1.deliveryWindowEndSeconds
    omega

/-! ### Time and load along a route -/

/-- The stops read off the rest of a path are reached from the node before it. -/
theorem reaches_rest (h : Solved input grouped own all a path) {i e count departure : Nat}
    {location : UUID} {rest : List Nat}
    (hrest : Along (fun i j ↦ a.cumul .time i + timeCallback input h.nodes i j ≤ a.cumul .time j)
      i rest e)
    (hl : (nodeAt h.nodes i).locationId = some location)
    (hd : (departure : Int) ≤ a.cumul .time i + (nodeAt h.nodes i).serviceSeconds)
    (hs : ∀ j ∈ rest, (nodeAt h.nodes j).locationId.isSome ∧ 0 ≤ a.cumul .time j) :
    Reaches input location departure ((rest.zipIdx count).map (stopFor h.nodes a)) := by
  induction rest generalizing i count departure location with
  | nil => trivial
  | cons j rest ih =>
    obtain ⟨⟨hlj, hj⟩, hs⟩ := List.forall_mem_cons.mp hs
    obtain ⟨location', hlj⟩ := Option.isSome_iff_exists.mp hlj
    obtain ⟨hij, hrest⟩ := hrest
    have htransit : timeCallback input h.nodes i j =
        (nodeAt h.nodes i).serviceSeconds + input.duration location location' := by
      simp only [timeCallback, hlj, hl]
    have hstop : (stopFor h.nodes a (j, count)).locationId = location' := by
      change (nodeAt h.nodes j).locationId.getD 0 = location'
      rw [hlj]
      rfl
    rw [List.zipIdx_cons, List.map_cons, Reaches, hstop]
    constructor
    · change departure + input.duration location location' ≤ (a.cumul .time j).toNat
      omega
    · apply ih hrest hlj _ hs
      change (((a.cumul .time j).toNat + (nodeAt h.nodes j).serviceSeconds : Nat) : Int) ≤ _
      omega

/-- The vehicle's frozen stops and the stops read off its path. -/
def stops (h : Solved input grouped own all a path) (v : SolverVehicle) (k : Nat) :
    List SolverStop :=
  frozenStops input v.vehicleId ++
    ((path k).zipIdx (frozenStops input v.vehicleId).length).map (stopFor h.nodes a)

private theorem time_start (h : Solved input grouped own all a path) {k : Nat} {v : SolverVehicle}
    (hv : input.vehicles[k]? = some v) :
    a.cumul .time (startNode k) = startTime v (frozenOn grouped v.vehicleId) := by
  have hpost := h.vehicle_posted hv (c := .cumulRange .time (startNode k)
    (startTime v (frozenOn grouped v.vehicleId)) (startTime v (frozenOn grouped v.vehicleId)))
    (by simp [vehicleConstraints])
  exact Int.le_antisymm hpost.2 hpost.1

private theorem visit_time (h : Solved input grouped own all a path) {k : Nat} {v : SolverVehicle}
    (hv : input.vehicles[k]? = some v) {i : Nat} (hi : i ∈ path k) :
    a.cumul .time (startNode k) ≤ a.cumul .time i ∧
      a.cumul .time i + (nodeAt h.nodes i).serviceSeconds ≤ a.cumul .time (endNode k) := by
  have halong := h.time_along hv
  have hmono : Along (fun i j ↦ a.cumul .time i ≤ a.cumul .time j) (startNode k) (path k)
      (endNode k) := halong.imp fun i j hij ↦ by omega
  refine ⟨(hmono.cumul_between.2 i hi).1, ?_⟩
  obtain ⟨j, hj, hij⟩ := halong.exists_next hi
  obtain ⟨l, hl⟩ := Option.isSome_iff_exists.mp (h.visit_isSome hi).2.2
  have hservice : (nodeAt h.nodes i).serviceSeconds ≤ timeCallback input h.nodes i j := by
    unfold timeCallback
    rw [hl]
    cases (nodeAt h.nodes j).locationId with
    | none => exact Nat.le_refl _
    | some _ => exact Nat.le_add_right _ _
  have hje : a.cumul .time j ≤ a.cumul .time (endNode k) := by
    rcases hj with hj | rfl
    · exact (hmono.cumul_between.2 j hj).2
    · exact Int.le_refl _
  omega

private theorem visits_load (h : Solved input grouped own all a path) {k : Nat} {v : SolverVehicle}
    (hv : input.vehicles[k]? = some v) (count : Nat) :
    RunningWithin 0 v.capacityLoadUnits (initialLoad v (frozenOn grouped v.vehicleId))
      ((((path k).zipIdx count).map (stopFor h.nodes a)).map (·.loadChangeLoadUnits)) := by
  have hload₀ : a.cumul .capacity (startNode k) =
      initialLoad v (frozenOn grouped v.vehicleId) := by
    have hpost := h.vehicle_posted hv (c := .cumulRange .capacity (startNode k)
      (initialLoad v (frozenOn grouped v.vehicleId))
      (initialLoad v (frozenOn grouped v.vehicleId))) (by simp [vehicleConstraints])
    exact Int.le_antisymm hpost.2 hpost.1
  have hcap : Along (fun i j ↦ a.cumul .capacity j =
      a.cumul .capacity i + (nodeAt h.nodes i).loadChangeLoadUnits) (startNode k) (path k)
      (endNode k) := by
    apply (h.routes.cumulated .capacity k _ _ (h.starts_getElem? hv) (h.ends_getElem? hv)).imp
    rintro i j ⟨slack, h0, h1, he⟩
    change slack ≤ 0 at h1
    change a.cumul .capacity j =
      a.cumul .capacity i + (nodeAt h.nodes i).loadChangeLoadUnits + slack at he
    omega
  have hb : ∀ i ∈ path k ++ [endNode k], 0 ≤ a.cumul .capacity i ∧
      a.cumul .capacity i ≤ v.capacityLoadUnits := by
    intro i hi
    have hbound := h.routes.bounded .capacity k _ _ (h.starts_getElem? hv)
      (h.ends_getElem? hv) i (List.mem_cons_of_mem _ hi)
    change _ ∧ _ ≤ (input.vehicles[k]?).elim (0 : Int) (·.capacityLoadUnits) at hbound
    rw [hv] at hbound
    exact hbound
  have hrun := hcap.runningWithin hb
  have hstart : (nodeAt h.nodes (startNode k)).loadChangeLoadUnits = 0 := by
    rw [nodeAt_startNode grouped own hv]
  rw [hload₀, hstart, Int.add_zero] at hrun
  have hmap : (((path k).zipIdx count).map (stopFor h.nodes a)).map (·.loadChangeLoadUnits) =
      (path k).map fun i ↦ (nodeAt h.nodes i).loadChangeLoadUnits := by
    have hz := congrArg (List.map fun i ↦ (nodeAt h.nodes i).loadChangeLoadUnits)
      (List.zipIdx_map_fst count (path k))
    rw [List.map_map] at hz ⊢
    exact hz
  rw [hmap]
  exact hrun

/-- What a vehicle drives is a route it can drive. -/
theorem drivable (h : Solved input grouped own all a path) {v : SolverVehicle} {k : Nat}
    (hv : input.vehicles[k]? = some v)
    (hf : FrozenPrefix input v (frozenStops input v.vehicleId)) (route : SolverRoute)
    (hr : route.stops = h.stops v k) : Drivable input v route := by
  have hfrozen := frozenOn_eq h.grouped_ok v.vehicleId
  have hstartTime := startTime_eq v (frozenOn grouped v.vehicleId)
  rw [hfrozen] at hstartTime
  have htime₀ := h.time_start hv
  refine ⟨?_, ?_, ?_, ?_⟩
  · rw [hr, stops, List.map_append, List.map_map, hf.sequence, List.length_append, List.length_map,
      List.length_zipIdx, ← List.range'_append_1, Nat.add_comm 1]
    have hz := congrArg (List.map (· + 1))
      (List.zipIdx_map_snd (frozenStops input v.vehicleId).length (path k))
    rw [List.map_map, ← List.range'_succ_left] at hz
    exact congrArg _ hz
  · rw [hr, stops, List.map_append, runningWithin_append]
    refine ⟨hf.load, ?_⟩
    have hrun := h.visits_load hv (frozenStops input v.vehicleId).length
    have hsum : ((frozenOn grouped v.vehicleId).map (·.stop.loadChangeLoadUnits)).sum =
        ((frozenStops input v.vehicleId).map (·.loadChangeLoadUnits)).sum := by
      rw [← hfrozen, List.map_map]
      rfl
    rw [initialLoad, hsum] at hrun
    exact hrun
  · intro stop hs
    rw [hr, stops, List.mem_append] at hs
    rcases hs with hs | hs
    · exact hf.available stop hs
    · obtain ⟨⟨i, c⟩, hic, rfl⟩ := List.mem_map.mp hs
      have hi : i ∈ path k := List.fst_mem_of_mem_zipIdx hic
      obtain ⟨hge, hle⟩ := h.visit_time hv hi
      have h0 := h.time_nonneg hv (i := i) (by simp [hi])
      have hfrom : v.availableFromSeconds ≤ startTime v (frozenOn grouped v.vehicleId) := by
        rw [hstartTime]
        cases (frozenStops input v.vehicleId).getLast? with
        | none => exact Nat.le_refl _
        | some last => exact Nat.le_max_left _ _
      have huntil : a.cumul .time (endNode k) ≤ v.availableUntilSeconds :=
        (h.vehicle_posted hv (c := .cumulRange .time (endNode k)
          (startTime v (frozenOn grouped v.vehicleId)) v.availableUntilSeconds)
          (by simp [vehicleConstraints])).2
      constructor
      · change v.availableFromSeconds ≤ (a.cumul .time i).toNat
        omega
      · change (a.cumul .time i).toNat + (nodeAt h.nodes i).serviceSeconds ≤ _
        omega
  · rw [hr, stops, reaches_append]
    refine ⟨hf.reaches, ?_⟩
    have hlocation := startLocation_eq v (frozenOn grouped v.vehicleId)
    rw [hfrozen] at hlocation
    rw [← hlocation]
    have hstart := nodeAt_startNode grouped own hv
    apply h.reaches_rest (h.time_along hv) (by rw [hstart])
    · rw [htime₀, hstart, hstartTime]
      cases (frozenStops input v.vehicleId).getLast? with
      | none => simp
      | some last =>
        simp only [Option.elim_some]
        omega
    · intro i hi
      exact ⟨(h.visit_isSome hi).2.2, h.time_nonneg hv (by simp [hi])⟩

/-! ### The stops of one order -/

/-- A node is on one path only. -/
theorem path_disjoint (h : Solved input grouped own all a path) {i k k' : Nat}
    (hi : i ∈ path k) (hi' : i ∈ path k') : k = k' := by
  apply Int.ofNat.inj
  change (k : Int) = k'
  rw [← h.routes.vehicle k i hi, ← h.routes.vehicle k' i hi']

/-- The stops of an order on a path, when its nodes there are known in sequence. -/
theorem visits_of (h : Solved input grouped own all a path) {p : SolverOrder × OrderNodes}
    (hp : p ∈ all) {k : Nat} (count : Nat) {ws : List Nat} (hsub : ws.Sublist (path k))
    (hws : ∀ i ∈ path k, p.2.Owns i ↔ i ∈ ws) :
    ∃ visits : List (Nat × Nat), visits.map Prod.fst = ws ∧
      (((path k).zipIdx count).map (stopFor h.nodes a)).filter
        (fun stop ↦ stop.orderId = p.1.orderId) = visits.map (stopFor h.nodes a) := by
  obtain ⟨visits, hfst, hstops⟩ := filter_stopFor h.nodes (path k) count p.1.orderId
  refine ⟨visits, ?_, hstops⟩
  rw [hfst]
  apply filter_eq_of_sublist hsub (h.routes.nodup k)
  intro i hi
  obtain ⟨q, hq, hown⟩ := h.exists_owner hi
  rw [← hws i hi, h.orderId_owned hq hown, decide_eq_true_eq, Option.getD_some]
  constructor
  · intro he
    rw [← h.placed_unique hq hp he]
    exact hown
  · intro hpi
    have hids := h.orderId_owned hp hpi
    rw [h.orderId_owned hq hown] at hids
    exact Option.some.inj hids

/-- An order none of whose nodes is on a path has no stop there. -/
theorem visits_of_none (h : Solved input grouped own all a path) {p : SolverOrder × OrderNodes}
    (hp : p ∈ all) {k : Nat} (count : Nat) (hno : ∀ i, p.2.Owns i → i ∉ path k) :
    (((path k).zipIdx count).map (stopFor h.nodes a)).filter
      (fun stop ↦ stop.orderId = p.1.orderId) = [] := by
  obtain ⟨visits, hfst, hstops⟩ := h.visits_of hp count (List.nil_sublist (path k))
    (fun i hi ↦ ⟨fun ho ↦ absurd hi (hno i ho), fun hn ↦ absurd hn List.not_mem_nil⟩)
  rw [hstops, List.map_eq_nil_iff.mp hfst]
  rfl

/-- An order with one node on a path has its stop there. -/
theorem visits_of_one (h : Solved input grouped own all a path) {p : SolverOrder × OrderNodes}
    (hp : p ∈ all) {k d : Nat} (count : Nat) (hd : d ∈ path k) (ho : p.2.originNode = none)
    (hdn : p.2.deliveryNode = some d) :
    ∃ delivery, (((path k).zipIdx count).map (stopFor h.nodes a)).filter
      (fun stop ↦ stop.orderId = p.1.orderId) = [delivery] ∧ DeliveryStop p.1 delivery := by
  obtain ⟨visits, hfst, hstops⟩ := h.visits_of hp count (List.singleton_sublist.mpr hd) (by
    intro i hi
    rw [OrderNodes.Owns, ho, hdn, List.mem_singleton]
    simp [eq_comm])
  obtain ⟨⟨i, c⟩, rfl, rfl⟩ := List.map_eq_singleton_iff.mp hfst
  exact ⟨_, hstops, h.deliveryStop hp hdn c⟩

end Solved

/-! ### Orders on their vehicles -/

/-- What is asked of frozen tasks: those of each vehicle begin a route the validator accepts,
an order has them on one vehicle, and delivery-only orders have none. -/
structure FrozenTasksAccepted (input : SolverInput) : Prop where
  prefixes : ∀ v ∈ input.vehicles, FrozenPrefix input v (frozenStops input v.vehicleId)
  oneVehicle : ∀ t ∈ input.frozenTasks, ∀ t' ∈ input.frozenTasks,
    t.stop.orderId = t'.stop.orderId → t.vehicleId = t'.vehicleId
  noDeliveryOnly : ∀ t ∈ input.frozenTasks, ∀ order ∈ input.orders,
    order.orderId = t.stop.orderId → order.originLocation ≠ none

private theorem index_unique {k k' : Nat} {v v' : SolverVehicle}
    (hv : input.vehicles[k]? = some v) (hv' : input.vehicles[k']? = some v')
    (he : v.vehicleId = v'.vehicleId) : k = k' := by
  have hk : k < (input.vehicles.map (·.vehicleId)).length := by
    rw [List.length_map]
    exact (List.getElem?_eq_some_iff.mp hv).1
  apply (List.getElem?_inj hk input.vehicles_nodup).mp
  rw [List.getElem?_map, List.getElem?_map, hv, hv']
  exact congrArg some he

private theorem frozenStops_filter_nil {orderId vehicleId : UUID}
    (hno : ∀ t ∈ input.frozenTasks, t.stop.orderId = orderId → t.vehicleId ≠ vehicleId) :
    (frozenStops input vehicleId).filter (fun stop ↦ stop.orderId = orderId) = [] := by
  apply List.filter_eq_nil_iff.mpr
  intro stop hs he
  obtain ⟨t, ht, hv, rfl⟩ := mem_frozenStops.mp hs
  exact hno t ht (of_decide_eq_true he) hv

namespace Solved

/-- The stops of an order on a vehicle. -/
abbrev stopsOf (h : Solved input grouped own all a path) (order : SolverOrder) (v : SolverVehicle)
    (k : Nat) : List SolverStop :=
  (h.stops v k).filter fun stop ↦ stop.orderId = order.orderId

/-- An order is served by a vehicle and has no stop on any other. -/
def ServedAt (h : Solved input grouped own all a path) (order : SolverOrder) (k : Nat)
    (v : SolverVehicle) : Prop :=
  input.vehicles[k]? = some v ∧ ServedBy v.vehicleId order (h.stopsOf order v k) ∧
    ∀ k' v', input.vehicles[k']? = some v' → k' ≠ k → h.stopsOf order v' k' = []

private theorem stopsOf_eq (h : Solved input grouped own all a path) (order : SolverOrder)
    (v : SolverVehicle) (k : Nat) :
    h.stopsOf order v k =
      (frozenStops input v.vehicleId).filter (fun stop ↦ stop.orderId = order.orderId) ++
      (((path k).zipIdx (frozenStops input v.vehicleId).length).map (stopFor h.nodes a)).filter
        (fun stop ↦ stop.orderId = order.orderId) :=
  List.filter_append _ _

private theorem frozen_vehicle (h : Solved input grouped own all a path) {t : FrozenTask}
    (ht : t ∈ input.frozenTasks) :
    ∃ (k : Nat) (v : SolverVehicle),
      input.vehicles[k]? = some v ∧ v.vehicleId = t.vehicleId := by
  obtain ⟨v, hv, he⟩ := frozen_vehicle_mem h.grouped_ok ht
  obtain ⟨k, hk⟩ := List.getElem?_of_mem hv
  exact ⟨k, v, hk, he⟩

private theorem frozen_cases (hf : FrozenTasksAccepted input) {order : SolverOrder}
    (ho : order ∈ input.orders) {t : FrozenTask} (ht : t ∈ input.frozenTasks)
    (he : t.stop.orderId = order.orderId) {v : SolverVehicle} (hv : v ∈ input.vehicles)
    (hvt : v.vehicleId = t.vehicleId) :
    t.stop ∈ (frozenStops input v.vehicleId).filter (fun s ↦ s.orderId = order.orderId) ∧
    ((∃ origin, (frozenStops input v.vehicleId).filter (fun s ↦ s.orderId = order.orderId) =
        [origin] ∧ OriginStop order origin) ∨
      ServedBy v.vehicleId order
        ((frozenStops input v.vehicleId).filter fun s ↦ s.orderId = order.orderId)) := by
  have hmem : t.stop ∈ (frozenStops input v.vehicleId).filter
      (fun s ↦ s.orderId = order.orderId) :=
    List.mem_filter.mpr ⟨mem_frozenStops.mpr ⟨t, ht, hvt.symm, rfl⟩, by simpa using he⟩
  refine ⟨hmem, ?_⟩
  rcases (hf.prefixes v hv).orders order ho with hn | hO | hS
  · rw [hn] at hmem
    cases hmem
  · exact .inl hO
  · exact .inr hS

private theorem servedBy_delivery {vehicleId : UUID} {order : SolverOrder}
    {stops : List SolverStop} (h : ServedBy vehicleId order stops) :
    ∃ stop ∈ stops, DeliveryStop order stop := by
  rcases h with ⟨origin, delivery, rfl, -, hD⟩ | ⟨-, -, delivery, rfl, hD⟩
  · exact ⟨delivery, by simp, hD⟩
  · exact ⟨delivery, by simp, hD⟩

private theorem servedAt_deliveryOnly (h : Solved input grouped own all a path)
    (hf : FrozenTasksAccepted input) {order : SolverOrder} {d k : Nat}
    (hp : (order, ⟨none, some d, some k⟩) ∈ all) (hkind : originType order = none)
    (hreq : order.requiredVehicleId.bind (vehicleIndex input) = some k) :
    ∃ v, h.ServedAt order k v := by
  obtain ⟨required, hr, hindex⟩ := Option.bind_eq_some_iff.mp hreq
  obtain ⟨v, hv, hid⟩ := vehicleIndex_eq_some hindex
  have hd : d ∈ path k := h.mandatory_mem hp rfl rfl rfl
  have hloc : order.originLocation = none := by
    rcases originType_cases order with ⟨-, hl, -⟩ | ⟨kind, _, hk, -⟩
    · exact hl
    · rw [hkind] at hk
      cases hk
  have hno (vehicleId : UUID) : (frozenStops input vehicleId).filter
      (fun stop ↦ stop.orderId = order.orderId) = [] :=
    frozenStops_filter_nil fun t ht he _ ↦
      hf.noDeliveryOnly t ht order (h.order_mem hp) he.symm hloc
  refine ⟨v, hv, ?_, ?_⟩
  · obtain ⟨delivery, hstops, hD⟩ := h.visits_of_one hp
      (frozenStops input v.vehicleId).length hd rfl rfl
    rw [h.stopsOf_eq, hno, hstops]
    exact .inr ⟨hloc, by rw [hr, hid], delivery, rfl, hD⟩
  · intro k' v' hv' hne
    rw [h.stopsOf_eq, hno, List.nil_append]
    apply h.visits_of_none hp
    rintro i (hi | hi)
    · cases hi
    · cases hi
      exact fun hm ↦ hne (h.path_disjoint hm hd)

private theorem servedAt_served (h : Solved input grouped own all a path)
    (hf : FrozenTasksAccepted input) {order : SolverOrder} {kind : SolverStopType}
    {t t' : FrozenTask} (hp : (order, ⟨none, none, none⟩) ∈ all)
    (ht : frozenTask? input order.orderId kind = some t)
    (ht' : frozenTask? input order.orderId .delivery = some t') :
    ∃ k v, h.ServedAt order k v := by
  obtain ⟨htm, hto, htk⟩ := frozenTask?_some ht
  obtain ⟨htm', hto', htk'⟩ := frozenTask?_some ht'
  obtain ⟨k, v, hv, hid⟩ := h.frozen_vehicle htm
  have hvm := List.mem_of_getElem? hv
  have hnone (k' count : Nat) := h.visits_of_none hp (k := k') count
    (by rintro i (hi | hi) <;> cases hi)
  refine ⟨k, v, hv, ?_, ?_⟩
  · rw [h.stopsOf_eq, hnone, List.append_nil]
    obtain ⟨hm, hcase⟩ := frozen_cases hf (h.order_mem hp) htm hto hvm hid
    have hm' := (frozen_cases hf (h.order_mem hp) htm' hto' hvm (hid.trans
      (hf.oneVehicle t htm t' htm' (hto.trans hto'.symm)))).1
    rcases hcase with ⟨origin, hone, hO⟩ | hS
    · -- Both frozen stops would be this origin, but one of them is a delivery.
      rw [hone, List.mem_singleton] at hm hm'
      rw [hm'] at htk'
      exact absurd htk' hO.ne_delivery
    · exact hS
  · intro k' v' hv' hne
    rw [h.stopsOf_eq, hnone, List.append_nil]
    apply frozenStops_filter_nil
    intro s hs he hsv
    apply hne
    apply index_unique hv' hv
    rw [hid, ← hsv]
    exact hf.oneVehicle s hs t htm (he.trans hto.symm)

private theorem servedAt_begun (h : Solved input grouped own all a path)
    (hf : FrozenTasksAccepted input) {order : SolverOrder} {kind : SolverStopType}
    {t : FrozenTask} {d : Nat}
    (hp : (order, ⟨none, some d, vehicleIndex input t.vehicleId⟩) ∈ all)
    (ht : frozenTask? input order.orderId kind = some t)
    (ht' : frozenTask? input order.orderId .delivery = none) :
    ∃ k v, h.ServedAt order k v := by
  obtain ⟨htm, hto, -⟩ := frozenTask?_some ht
  obtain ⟨k, hk⟩ : ∃ k, vehicleIndex input t.vehicleId = some k := by
    obtain ⟨v, hv, hid⟩ := frozen_vehicle_mem h.grouped_ok htm
    cases hi : vehicleIndex input t.vehicleId with
    | some k => exact ⟨k, rfl⟩
    | none =>
      have hn := List.findIdx?_eq_none_iff.mp hi v hv
      simp [hid] at hn
  obtain ⟨v, hv, hid⟩ := vehicleIndex_eq_some hk
  have hd : d ∈ path k := h.mandatory_mem hp rfl rfl hk
  refine ⟨k, v, hv, ?_, ?_⟩
  · obtain ⟨delivery, hstops, hD⟩ := h.visits_of_one hp
      (frozenStops input v.vehicleId).length hd rfl rfl
    rw [h.stopsOf_eq, hstops]
    obtain ⟨-, ⟨origin, hone, hO⟩ | hS⟩ :=
      frozen_cases hf (h.order_mem hp) htm hto (List.mem_of_getElem? hv) hid
    · rw [hone]
      exact .inl ⟨origin, delivery, rfl, hO, hD⟩
    · -- A frozen delivery would have been found in `frozen_by_order`.
      obtain ⟨stop, hs, hsD⟩ := servedBy_delivery hS
      obtain ⟨hs, he⟩ := List.mem_filter.mp hs
      obtain ⟨s, hsm, -, rfl⟩ := mem_frozenStops.mp hs
      exact absurd hsD.kind (frozenTask?_none ht' hsm (of_decide_eq_true he))
  · intro k' v' hv' hne
    rw [h.stopsOf_eq, frozenStops_filter_nil, List.nil_append]
    · apply h.visits_of_none hp
      rintro i (hi | hi)
      · cases hi
      · cases hi
        exact fun hm ↦ hne (h.path_disjoint hm hd)
    · intro s hs he hsv
      apply hne
      apply index_unique hv' hv
      rw [hid, ← hsv]
      exact hf.oneVehicle s hs t htm (he.trans hto.symm)

-- Orders of which nothing is frozen are served by one vehicle when their nodes are active,
-- and have no stop otherwise.
private theorem servedAt_whole (h : Solved input grouped own all a path)
    (hf : FrozenTasksAccepted input) {order : SolverOrder} {kind : SolverStopType} {o d : Nat}
    (hp : (order, ⟨some o, some d, none⟩) ∈ all) (hkind : originType order = some kind)
    (ht : frozenTask? input order.orderId kind = none)
    (ht' : frozenTask? input order.orderId .delivery = none) :
    (a.active o = true ∧ ∃ k v, h.ServedAt order k v) ∨
      (a.active o = false ∧
        ∀ k v, input.vehicles[k]? = some v → h.stopsOf order v k = []) := by
  have hno {k : Nat} {v : SolverVehicle} (hv : input.vehicles[k]? = some v) :
      (frozenStops input v.vehicleId).filter (fun stop ↦ stop.orderId = order.orderId) = [] := by
    apply frozenStops_filter_nil
    intro t htm hto hid
    obtain ⟨hm, ⟨origin, hone, hO⟩ | hS⟩ :=
      frozen_cases hf (h.order_mem hp) htm hto (List.mem_of_getElem? hv) hid.symm
    · rw [hone, List.mem_singleton] at hm
      have hk := hO.kind
      rw [hkind] at hk
      rw [← hm] at hk
      exact frozenTask?_none ht htm hto (Option.some.inj hk).symm
    · obtain ⟨stop, hs, hsD⟩ := servedBy_delivery hS
      obtain ⟨hs, he⟩ := List.mem_filter.mp hs
      obtain ⟨s, hsm, -, rfl⟩ := mem_frozenStops.mp hs
      exact absurd hsD.kind (frozenTask?_none ht' hsm (of_decide_eq_true he))
  have hposted (c : RoutingConstraint DimensionName)
      (hc : c ∈ orderConstraints input order ⟨some o, some d, none⟩) :
      RoutingModel.Holds a path c := h.order_posted hp hc
  have hsame : a.active o = a.active d := hposted (.sameActive o d) (by simp [orderConstraints])
  have hpair := hposted (.pickupAndDelivery o d) (by simp [orderConstraints])
  have hvo := h.routes.active o (h.isVisit_owned hp (.inl rfl))
  have hvd := h.routes.active d (h.isVisit_owned hp (.inr rfl))
  cases hact : a.active o with
  | false =>
    refine .inr ⟨rfl, ?_⟩
    intro k v hv
    rw [h.stopsOf_eq, hno hv, List.nil_append]
    apply h.visits_of_none hp
    rintro i (hi | hi) hm
    · cases hi
      rw [hvo.mpr ⟨k, hm⟩] at hact
      cases hact
    · cases hi
      rw [hsame, hvd.mpr ⟨k, hm⟩] at hact
      cases hact
  | true =>
    refine .inl ⟨rfl, ?_⟩
    obtain ⟨k, hk⟩ := hpair hact (hsame ▸ hact)
    have hok : o ∈ path k := hk.subset (by simp)
    have hdk : d ∈ path k := hk.subset (by simp)
    obtain ⟨v, hv⟩ : ∃ v, input.vehicles[k]? = some v := by
      have hlt := (h.routes.visits k o hok).1
      simp only [routingModel, List.length_map, List.length_range] at hlt
      exact ⟨_, List.getElem?_eq_getElem hlt⟩
    refine ⟨k, v, hv, ?_, ?_⟩
    · obtain ⟨visits, hfst, hstops⟩ := h.visits_of hp
        (frozenStops input v.vehicleId).length hk (by
          intro i hi
          simp [OrderNodes.Owns, eq_comm])
      obtain ⟨⟨i, c⟩, rest, rfl, hi, hrest⟩ := List.map_eq_cons_iff.mp hfst
      obtain ⟨⟨j, c'⟩, rfl, hj⟩ := List.map_eq_singleton_iff.mp hrest
      change i = o at hi
      change j = d at hj
      subst hi hj
      rw [h.stopsOf_eq, hno hv, List.nil_append, hstops]
      exact .inl ⟨_, _, rfl, h.originStop hp rfl c, h.deliveryStop hp rfl c'⟩
    · intro k' v' hv' hne
      rw [h.stopsOf_eq, hno hv', List.nil_append]
      apply h.visits_of_none hp
      rintro i (hi | hi)
      · cases hi
        exact fun hm ↦ hne (h.path_disjoint hm hok)
      · cases hi
        exact fun hm ↦ hne (h.path_disjoint hm hdk)

/-- Every order is served on one vehicle, unless its origin node was dropped. -/
theorem order_cases (h : Solved input grouped own all a path) (hf : FrozenTasksAccepted input)
    {order : SolverOrder} {on : OrderNodes} (hp : (order, on) ∈ all) :
    ((∀ o, on.originNode = some o → a.active o = true) ∧ ∃ k v, h.ServedAt order k v) ∨
    (∃ o, on.originNode = some o ∧ a.active o = false ∧
      ∀ k v, input.vehicles[k]? = some v → h.stopsOf order v k = []) := by
  cases h.placed hp with
  | deliveryOnly d k hkind hreq =>
    exact .inl ⟨(fun o ho ↦ by cases ho), k, h.servedAt_deliveryOnly hf hp hkind hreq⟩
  | served kind t t' hkind ht ht' =>
    exact .inl ⟨(fun o ho ↦ by cases ho), h.servedAt_served hf hp ht ht'⟩
  | begun kind t d hkind ht ht' =>
    exact .inl ⟨(fun o ho ↦ by cases ho), h.servedAt_begun hf hp ht ht'⟩
  | whole kind o d hkind ht ht' =>
    rcases h.servedAt_whole hf hp hkind ht ht' with ⟨hact, hs⟩ | ⟨hact, hn⟩
    · refine .inl ⟨?_, hs⟩
      intro o' ho
      rw [← Option.some.inj ho]
      exact hact
    · exact .inr ⟨o, rfl, hact, hn⟩

/-! ### The assembled result -/

/-- The route of a vehicle has its frozen stops and those of its path. -/
theorem mem_buildRoutes (h : Solved input grouped own all a path) (route : SolverRoute) :
    route ∈ buildRoutes input grouped h.nodes h.model a ↔
      ∃ (k : Nat) (v : SolverVehicle) (last : SolverStop), input.vehicles[k]? = some v ∧
        (h.stops v k).getLast? = some last ∧
        route = ⟨v.vehicleId, h.stops v k, pathDistance input v.startLocationId (h.stops v k),
          last.departureTimeSeconds - v.availableFromSeconds⟩ := by
  have hstops {k : Nat} {v : SolverVehicle} (hv : input.vehicles[k]? = some v) :
      (frozenOn grouped v.vehicleId).map (·.stop) ++ visitStops h.nodes a
        ((frozenOn grouped v.vehicleId).map (·.stop)).length
        (walk (fun i ↦ decide (i ∈ h.model.ends)) a.next h.model.numNodes (startNode k)) =
      h.stops v k := by
    rw [h.routes.walk_eq (h.starts_getElem? hv) (h.ends_getElem? hv),
      frozenOn_eq h.grouped_ok, h.visitStops_eq]
    rfl
  simp only [buildRoutes, List.mem_filterMap, Prod.exists, List.mem_zipIdx_iff_getElem?]
  constructor
  · rintro ⟨v, k, hv, hb⟩
    rw [buildRoute, hstops hv] at hb
    cases hl : (h.stops v k).getLast? with
    | none =>
      simp only [hl] at hb
      cases hb
    | some last =>
      simp only [hl, Option.some.injEq] at hb
      exact ⟨k, v, last, hv, hl, hb.symm⟩
  · rintro ⟨k, v, last, hv, hl, rfl⟩
    refine ⟨v, k, hv, ?_⟩
    rw [buildRoute, hstops hv]
    simp only [hl]

private theorem map_filterMap_sublist {α β κ : Type} {f : α → Option β} {key : β → κ}
    {key' : α → κ} (hk : ∀ x y, f x = some y → key y = key' x) (xs : List α) :
    ((xs.filterMap f).map key).Sublist (xs.map key') := by
  induction xs with
  | nil => exact List.Sublist.refl _
  | cons x xs ih =>
    rw [List.filterMap_cons]
    cases hf : f x with
    | none => exact ih.cons _
    | some y =>
      simp only [List.map_cons, hk x y hf]
      exact ih.cons_cons _

/-- Vehicles have one route at most. -/
theorem buildRoutes_nodup (nodes : List Node) (m : RoutingModel DimensionName) :
    ((buildRoutes input grouped nodes m a).map (·.vehicleId)).Nodup := by
  have hid (vk : SolverVehicle × Nat) (route : SolverRoute)
      (hb : buildRoute input grouped nodes m a vk.1 vk.2 = some route) :
      route.vehicleId = vk.1.vehicleId := by
    unfold buildRoute at hb
    dsimp only at hb
    split at hb
    · cases hb
    · exact (congrArg SolverRoute.vehicleId (Option.some.inj hb)).symm
  have hsub := map_filterMap_sublist hid input.vehicles.zipIdx
  have hfst := congrArg (List.map (·.vehicleId)) (List.zipIdx_map_fst 0 input.vehicles)
  rw [List.map_map] at hfst
  apply List.Sublist.nodup hsub
  change (input.vehicles.zipIdx.map ((·.vehicleId) ∘ Prod.fst)).Nodup
  rw [hfst]
  exact input.vehicles_nodup

/-- The unassigned orders are those whose origin node was dropped. -/
theorem mem_unassignedOrders (u : SolverUnassignedOrder) :
    u ∈ unassignedOrders input grouped a all ↔
      ∃ p ∈ all, ∃ o, p.2.originNode = some o ∧ a.active o = false ∧
        u = ⟨p.1.orderId, unassignedReason input grouped p.1, none⟩ := by
  rw [unassignedOrders, List.mem_filterMap]
  apply exists_congr
  rintro ⟨order, on⟩
  apply and_congr_right
  intro _
  dsimp only
  cases on.originNode with
  | none => simp
  | some o =>
    constructor
    · intro hu
      dsimp only at hu
      split at hu
      · cases hu
      · next hact => exact ⟨o, rfl, by simpa using hact, (Option.some.inj hu).symm⟩
    · rintro ⟨o', ho', hact, rfl⟩
      dsimp only
      rw [Option.some.inj ho', hact]
      rfl

/-- An order is unassigned at most once. -/
theorem unassignedOrders_nodup (h : Solved input grouped own all a path) :
    ((unassignedOrders input grouped a all).map (·.orderId)).Nodup := by
  have hid (p : SolverOrder × OrderNodes) (u : SolverUnassignedOrder)
      (hu : (p.2.originNode.bind fun origin ↦ if a.active origin then none
        else some ⟨p.1.orderId, unassignedReason input grouped p.1, none⟩) = some u) :
      u.orderId = p.1.orderId := by
    obtain ⟨origin, -, hu⟩ := Option.bind_eq_some_iff.mp hu
    split at hu
    · cases hu
    · exact (congrArg SolverUnassignedOrder.orderId (Option.some.inj hu)).symm
  have hrows : unassignedOrders input grouped a all = all.filterMap fun p ↦
      p.2.originNode.bind fun origin ↦ if a.active origin then none
        else some ⟨p.1.orderId, unassignedReason input grouped p.1, none⟩ := by
    rw [unassignedOrders]
    congr 1
    funext p
    obtain ⟨order, own⟩ := p
    dsimp only
    cases own.originNode <;> rfl
  rw [hrows]
  exact (map_filterMap_sublist hid all).nodup h.placed_nodup

/-- The result `_solve` assembles. -/
def result (h : Solved input grouped own all a path) : SolverResult where
  status := .feasible
  routes := buildRoutes input grouped h.nodes h.model a
  unassignedOrders := unassignedOrders input grouped a all
  totalDistanceMeters :=
    ((buildRoutes input grouped h.nodes h.model a).map (·.distanceMeters)).sum
  totalDurationSeconds :=
    ((buildRoutes input grouped h.nodes h.model a).map (·.durationSeconds)).sum
  diagnostic := none

private theorem exists_route (h : Solved input grouped own all a path) {k : Nat}
    {v : SolverVehicle} (hv : input.vehicles[k]? = some v) {stop : SolverStop}
    (hs : stop ∈ h.stops v k) :
    ∃ route ∈ h.result.routes, route.vehicleId = v.vehicleId ∧ route.stops = h.stops v k := by
  cases hl : (h.stops v k).getLast? with
  | none =>
    rw [List.getLast?_eq_none_iff.mp hl] at hs
    cases hs
  | some last => exact ⟨_, (h.mem_buildRoutes _).mpr ⟨k, v, last, hv, hl, rfl⟩, rfl, rfl⟩

/-- Every order is unassigned once or served on one route. -/
theorem accounted (h : Solved input grouped own all a path) (hf : FrozenTasksAccepted input)
    {order : SolverOrder} (ho : order ∈ input.orders) : Accounted h.result order := by
  obtain ⟨on, hp⟩ := h.exists_placed ho
  have hstops {other : SolverRoute} (hr : other ∈ h.result.routes)
      (hv : other.Visits order.orderId) : ∃ k v, input.vehicles[k]? = some v ∧
        h.stopsOf order v k ≠ [] ∧ other.vehicleId = v.vehicleId := by
    obtain ⟨k, v, last, hk, -, rfl⟩ := (h.mem_buildRoutes other).mp hr
    obtain ⟨stop, hs, he⟩ := hv
    exact ⟨k, v, hk, List.ne_nil_of_mem (List.mem_filter.mpr ⟨hs, by simpa using he⟩), rfl⟩
  rcases h.order_cases hf hp with ⟨hact, k, v, hv, hserved, helse⟩ | ⟨o, hon, hact, hnone⟩
  · obtain ⟨stop, hs, -⟩ := servedBy_delivery hserved
    obtain ⟨route, hr, hid, hst⟩ := h.exists_route hv (List.mem_filter.mp hs).1
    refine .inr ⟨?_, route, hr, ?_, ?_⟩
    · apply List.count_eq_zero.mpr
      intro hm
      obtain ⟨u, hu, hue⟩ := List.mem_map.mp hm
      obtain ⟨q, hq, o, hqo, hqa, rfl⟩ := (mem_unassignedOrders u).mp hu
      rw [h.placed_unique hq hp hue] at hqo
      rw [hact o hqo] at hqa
      cases hqa
    · change ServedBy route.vehicleId order (route.stopsOf order.orderId)
      rw [hid, SolverRoute.stopsOf, hst]
      exact hserved
    · intro other hro hvis
      obtain ⟨k', v', hv', hne, hid'⟩ := hstops hro hvis
      have hk : k' = k := by
        apply Classical.byContradiction
        intro hkk
        exact hne (helse k' v' hv' hkk)
      subst hk
      rw [hv] at hv'
      cases hv'
      exact eq_of_key_eq (buildRoutes_nodup _ _) hro hr (hid'.trans hid.symm)
  · refine .inl ⟨?_, ?_⟩
    · apply Nat.le_antisymm (List.nodup_iff_count.mp h.unassignedOrders_nodup _)
      apply List.count_pos_iff.mpr
      exact List.mem_map.mpr ⟨_, (mem_unassignedOrders _).mpr ⟨_, hp, o, hon, hact, rfl⟩, rfl⟩
    · intro route hr hvis
      obtain ⟨k, v, hv, hne, -⟩ := hstops hr hvis
      exact hne (hnone k v hv)

/-- The assembled result is a feasible routing up to empty routes. -/
theorem routing (h : Solved input grouped own all a path) (hf : FrozenTasksAccepted input) :
    RoutingUpToEmptyRoutes input h.result := by
  refine ⟨?_, buildRoutes_nodup _ _, ?_, ?_, fun order ho ↦ h.accounted hf ho, ?_, rfl, rfl⟩
  · intro route hr
    obtain ⟨k, v, last, hv, hl, rfl⟩ := (h.mem_buildRoutes route).mp hr
    have hvm := List.mem_of_getElem? hv
    have hd := h.drivable hv (hf.prefixes v hvm) (⟨v.vehicleId, h.stops v k,
      pathDistance input v.startLocationId (h.stops v k),
      last.departureTimeSeconds - v.availableFromSeconds⟩) rfl
    refine ⟨v, hvm, rfl, hd, fun _ ↦ ⟨rfl, ?_⟩⟩
    intro last' hl'
    rw [hl] at hl'
    cases hl'
    have hfrom := (hd.available last (List.mem_of_getLast? hl)).1
    have harrival := last.arrival_le
    change ((last.departureTimeSeconds - v.availableFromSeconds : Nat) : Int) = _
    omega
  · intro route hr stop hs
    obtain ⟨k, v, last, hv, hl, rfl⟩ := (h.mem_buildRoutes route).mp hr
    rcases List.mem_append.mp hs with hs | hs
    · exact (hf.prefixes v (List.mem_of_getElem? hv)).known stop hs
    · obtain ⟨⟨i, c⟩, hic, rfl⟩ := List.mem_map.mp hs
      obtain ⟨p, hp, hown⟩ := h.exists_owner (List.fst_mem_of_mem_zipIdx hic)
      refine ⟨p.1, h.order_mem hp, ?_⟩
      change _ = (nodeAt h.nodes i).orderId.getD 0
      rw [h.orderId_owned hp hown]
      rfl
  · intro u hu
    obtain ⟨p, hp, o, -, -, rfl⟩ := (mem_unassignedOrders u).mp hu
    exact ⟨p.1, h.order_mem hp, rfl⟩
  · intro t ht
    obtain ⟨k, v, hv, hid⟩ := h.frozen_vehicle ht
    have hs : t.stop ∈ h.stops v k :=
      List.mem_append_left _ (mem_frozenStops.mpr ⟨t, ht, hid.symm, rfl⟩)
    obtain ⟨route, hr, hrid, hst⟩ := h.exists_route hv hs
    exact ⟨route, hr, hrid.trans hid, by rw [hst]; exact hs⟩

end Solved

/-- Without vehicles every order is unassigned once. -/
theorem withoutVehicles_routing (hf : input.frozenTasks = []) :
    RoutingUpToEmptyRoutes input (withoutVehicles input) := by
  have hw : withoutVehicles input = ⟨.feasible, [], input.orders.map fun order ↦
      ⟨order.orderId, .resourceUnavailable, some "No vehicle is available"⟩, 0, 0, none⟩ := by
    simp [withoutVehicles, hf]
  rw [hw]
  refine ⟨by simp, List.nodup_nil, by simp, ?_, ?_, by simp [hf], rfl, rfl⟩
  · intro u hu
    obtain ⟨order, ho, rfl⟩ := List.mem_map.mp hu
    exact ⟨order, ho, rfl⟩
  · intro order ho
    refine .inl ⟨?_, by simp⟩
    have hids : (input.orders.map fun o ↦ o.orderId).count order.orderId = 1 := by
      apply Nat.le_antisymm (List.nodup_iff_count.mp input.orders_nodup _)
      exact List.count_pos_iff.mpr (List.mem_map_of_mem ho)
    rw [SolverResult.unassignedCount, List.map_map]
    exact hids

/-- A result with status `FEASIBLE` comes from `_without_vehicles` or from an assignment. -/
theorem solve_feasible {search : RoutingSearch DimensionName}
    (hs : (solve search input).status = .feasible) :
    (input.frozenTasks = [] ∧ solve search input = withoutVehicles input) ∨
      ∃ (grouped : _) (own : _) (all : _) (a : _) (path : _)
        (h : Solved input grouped own all a path), solve search input = h.result := by
  unfold solve at hs ⊢
  split at hs
  · next result hr =>
    rw [solveInput] at hr
    split at hr
    · obtain rfl := Except.ok.inj hr
      refine .inl ⟨?_, rfl⟩
      unfold withoutVehicles at hs
      split at hs
      · cases hs
      · next hn => simpa using hn
    · obtain ⟨grouped, hg, hr⟩ := bind_eq_ok.mp hr
      obtain ⟨-, -, hr⟩ := bind_eq_ok.mp hr
      obtain ⟨⟨own, all⟩, ho, hr⟩ := bind_eq_ok.mp hr
      obtain ⟨found, ha, hr⟩ := bind_eq_ok.mp hr
      cases found with
      | none =>
        obtain rfl := Except.ok.inj hr
        cases hs
      | some a =>
        obtain rfl := Except.ok.inj hr
        obtain ⟨path, hroutes⟩ := search.sound _ a ha
        exact .inr ⟨grouped, own, all, a, path, ⟨hg, ho, hroutes⟩, rfl⟩
  · cases hs

/-- Every feasible result of the solver is accepted by the validator. -/
theorem solve_accepted (search : RoutingSearch DimensionName) (input : SolverInput)
    (hf : FrozenTasksAccepted input) (hs : (solve search input).status = .feasible) :
    validate input (solve search input) = [] := by
  rw [validate_eq_nil _ hs]
  rcases solve_feasible hs with ⟨hn, he⟩ | ⟨grouped, own, all, a, path, h, he⟩
  · rw [he]
    exact withoutVehicles_routing hn
  · rw [he]
    exact h.routing hf

/-- The pickup of an order that its vehicle has already made. -/
def heldTask : FrozenTask :=
  ⟨20, servedStop 10 1 .pickup 0 0 30 1⟩

/-- One vehicle that has picked up the only order at location 1, for location 2. -/
def heldInput : SolverInput where
  businessDate := 738000
  currentTime := 0
  orders := twoVehicleInput.orders
  vehicles := twoVehicleInput.vehicles.take 1
  frozenTasks := [heldTask]
  recoveryScope := none
  locationIds := [1, 2]
  distanceMatrixMeters := [[0, 100], [100, 0]]
  durationMatrixSeconds := [[0, 60], [60, 0]]
  checked := rfl

/-- Nodes 0 and 1 are the vehicle's start and end, node 2 is the delivery. -/
def heldAssignment : RoutingAssignment DimensionName where
  next i := if i = 0 then 2 else 1
  active _ := true
  vehicle _ := 0
  cumul
    | .time, i => if i = 0 then 30 else if i = 2 then 90 else 120
    | .capacity, i => if i = 1 then 0 else 1

/-- The model posted for `heldInput`, as far as its assignment depends on it. -/
def IsHeldModel (m : RoutingModel DimensionName) : Prop :=
  m.numNodes = 3 ∧ m.starts = [0] ∧ m.ends = [1] ∧
    m.constraints = [.cumulRange .time 0 30 30, .cumulRange .time 1 30 3600,
      .cumulRange .capacity 0 1 1, .cumulRange .time 2 0 900, .vehicleIs 2 0] ∧
    ((m.dimension .time).transit 0 2 = 60 ∧ (m.dimension .time).transit 2 1 = 30 ∧
      (m.dimension .time).slackMax = 3600 ∧ (m.dimension .time).capacity 0 = 3600) ∧
    (m.dimension .capacity).transit 0 2 = 0 ∧ (m.dimension .capacity).transit 2 1 = -1 ∧
      (m.dimension .capacity).slackMax = 0 ∧ (m.dimension .capacity).capacity 0 = 5

/-- Both of its parts are decided. -/
instance (m : RoutingModel DimensionName) : Decidable (IsHeldModel m) :=
  inferInstanceAs (Decidable (_ ∧ _))

/-- The assignment satisfies the model. -/
theorem heldAssignment_satisfies {m : RoutingModel DimensionName} (h : IsHeldModel m) :
    m.Satisfies heldAssignment := by
  obtain ⟨hn, hs, he, hc, ⟨ht₁, ht₂, ht₃, ht₄⟩, hl₁, hl₂, hl₃, hl₄⟩ := h
  have only {k s e : Nat} (hk : m.starts[k]? = some s) (hk' : m.ends[k]? = some e) :
      k = 0 ∧ s = 0 ∧ e = 1 := by
    rw [hs] at hk
    rw [he] at hk'
    cases k with
    | zero => exact ⟨rfl, (Option.some.inj hk).symm, (Option.some.inj hk').symm⟩
    | succ k => cases hk
  have visit {k i : Nat} (hi : i ∈ if k = 0 then [2] else []) : k = 0 ∧ i = 2 := by
    split at hi
    · next hk => exact ⟨hk, List.mem_singleton.mp hi⟩
    · cases hi
  have delivery {i : Nat} (hi : m.IsVisit i) : i = 2 := by
    obtain ⟨h₁, h₂, h₃⟩ := hi
    rw [hn] at h₁
    rw [hs, List.mem_singleton] at h₂
    rw [he, List.mem_singleton] at h₃
    omega
  refine ⟨fun k ↦ if k = 0 then [2] else [], ?_, ?_, ?_, ?_, ?_, ?_, ?_, ?_, ?_⟩
  · intro k s e hk hk'
    obtain ⟨rfl, rfl, rfl⟩ := only hk hk'
    exact ⟨rfl, rfl⟩
  · intro k i hi
    obtain ⟨rfl, rfl⟩ := visit hi
    simp [RoutingModel.IsVisit, hn, hs, he]
  · intro k
    split <;> decide
  · intro k i hi
    obtain ⟨rfl, rfl⟩ := visit hi
    rfl
  · intro i hi
    rw [delivery hi]
    exact ⟨fun _ ↦ ⟨0, by simp⟩, fun _ ↦ rfl⟩
  · intro i _ _
    rfl
  · intro d k s e hk hk'
    obtain ⟨rfl, rfl, rfl⟩ := only hk hk'
    cases d with
    | time =>
      exact ⟨⟨0, by omega, by omega, by rw [ht₁]; rfl⟩, 0, by omega, by omega, by rw [ht₂]; rfl⟩
    | capacity =>
      exact ⟨⟨0, by omega, by omega, by rw [hl₁]; rfl⟩, 0, by omega, by omega, by rw [hl₂]; rfl⟩
  · intro d k s e hk hk' i hi
    obtain ⟨rfl, rfl, rfl⟩ := only hk hk'
    have hi' : i = 0 ∨ i = 2 ∨ i = 1 := by simpa using hi
    cases d with
    | time =>
      rw [ht₄]
      rcases hi' with rfl | rfl | rfl <;> decide
    | capacity =>
      rw [hl₄]
      rcases hi' with rfl | rfl | rfl <;> decide
  · intro c hcm
    rw [hc] at hcm
    simp only [List.mem_cons, List.not_mem_nil, or_false] at hcm
    rcases hcm with rfl | rfl | rfl | rfl | rfl <;> simp [RoutingModel.Holds, heldAssignment]

/-- A search that answers the model of `heldInput`. -/
def heldSearch : RoutingSearch DimensionName where
  solve m := if IsHeldModel m then .ok (some heldAssignment) else .ok none
  sound := by
    intro m a h
    split at h
    · next hm =>
      cases h
      exact heldAssignment_satisfies hm
    · cases h

private theorem groupFrozenTasks_held :
    groupFrozenTasks heldInput = .ok [(20, [heldTask])] := by
  have hg : groupByKey FrozenTask.vehicleId heldInput.frozenTasks = [(20, [heldTask])] := rfl
  have hv : (heldInput.frozenTasks.any fun task ↦
      (vehicleIndex heldInput task.vehicleId).isNone) = false := by decide
  rw [groupFrozenTasks, hv, hg]
  simp only [List.map_cons, List.map_nil, List.mergeSort_singleton]
  rfl

private theorem solve_held_routes :
    (solve heldSearch heldInput).status = .feasible ∧
      (solve heldSearch heldInput).routes.map (·.stops.length) = [2] := by
  rw [solve, solveInput, groupFrozenTasks_held]
  decide

private theorem frozenTasksAccepted_held : FrozenTasksAccepted heldInput := by
  have hst : frozenStops heldInput 20 = [heldTask.stop] := by
    rw [← frozenOn_eq groupFrozenTasks_held]
    rfl
  refine ⟨?_, ?_, ?_⟩
  · intro v hv
    rw [List.mem_singleton.mp hv, hst]
    have hown (order : SolverOrder) (ho : order ∈ heldInput.orders) :
        OriginStop order heldTask.stop ∧ order.orderId = 10 := by
      rw [List.mem_singleton.mp ho]
      exact ⟨⟨rfl, rfl, rfl, rfl, rfl, by decide⟩, rfl⟩
    refine ⟨rfl, ?_, ?_, by decide, ?_, ?_⟩
    · intro stop hs
      rw [List.mem_singleton.mp hs]
      exact ⟨_, List.mem_singleton.mpr rfl, rfl⟩
    · intro order ho
      obtain ⟨hO, hid⟩ := hown order ho
      refine .inr (.inl ⟨heldTask.stop, ?_, hO⟩)
      rw [hid]
      rfl
    · intro stop hs
      rw [List.mem_singleton.mp hs]
      decide
    · exact ⟨by decide, trivial⟩
  · intro t ht t' ht' _
    rw [List.mem_singleton.mp ht, List.mem_singleton.mp ht']
  · intro t _ order ho _
    rw [List.mem_singleton.mp ho]
    decide

/-- The frozen pickup and the delivery after it pass the validator. -/
theorem solve_accepted_held :
    (solve heldSearch heldInput).routes.map (·.stops.length) = [2] ∧
      validate heldInput (solve heldSearch heldInput) = [] :=
  ⟨solve_held_routes.2,
    solve_accepted heldSearch heldInput frozenTasksAccepted_held solve_held_routes.1⟩

end ORToolsSolver

end PenroseRoute.Optimization
