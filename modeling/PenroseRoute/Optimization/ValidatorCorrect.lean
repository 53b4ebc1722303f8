import PenroseRoute.Optimization.FeasibleRouting

/-!
# What the validator accepts

Each check of `SolverResultValidator` raises nothing exactly when its part of
`RoutingUpToEmptyRoutes` holds; the loops are handled by induction with their running
variables. The validator accepts exactly the routings that are feasible up to empty
routes, which is how far it is sound.
-/

namespace PenroseRoute.Optimization

open PenroseRoute.Lib
open SolverResultValidator

variable {input : SolverInput}

/-! ### Stops of one route -/

/-- What the per-stop checks ask of a stop of a known order, load apart. -/
structure StopFits (vehicle : Option SolverVehicle) (order : SolverOrder) (stop : SolverStop) :
    Prop where
  service : stop.serviceDurationSeconds = expectedService order stop.stopType
  departure : stop.departureTimeSeconds =
    stop.arrivalTimeSeconds + expectedService order stop.stopType
  load : stop.loadChangeLoadUnits = expectedLoadChange order stop.stopType
  ready : stop.stopType ≠ .delivery → order.readyTimeSeconds ≤ stop.arrivalTimeSeconds
  window : stop.stopType = .delivery → order.deliveryWindowStartSeconds ≤ stop.arrivalTimeSeconds ∧
    stop.arrivalTimeSeconds ≤ order.deliveryWindowEndSeconds
  available : ∀ v ∈ vehicle, v.availableFromSeconds ≤ stop.arrivalTimeSeconds ∧
    stop.departureTimeSeconds ≤ v.availableUntilSeconds

/-- One iteration of the stop loop raises nothing. -/
theorem stopIssues_eq_nil (vehicle : Option SolverVehicle) (route : SolverRoute)
    (order : SolverOrder) (load : Int) (stop : SolverStop) :
    stopIssues vehicle route order load stop = [] ↔
      StopFits vehicle order stop ∧ ∀ v ∈ vehicle, 0 ≤ load ∧ load ≤ v.capacityLoadUnits := by
  have hk : (stop.stopType == .pickup || stop.stopType == .handover) = true ↔
      stop.stopType ≠ .delivery := by
    cases stop.stopType <;> decide
  simp only [stopIssues, List.append_eq_nil_iff, issueIf_eq_nil, Bool.or_eq_false_iff,
    bne_eq_false_iff_eq, Bool.and_eq_false_iff, decide_eq_false_iff_not, Nat.not_lt]
  constructor
  · rintro ⟨⟨⟨⟨⟨⟨hs, hd⟩, hl⟩, hc⟩, hr⟩, hw⟩, ha⟩
    refine ⟨⟨hs, hd, hl, ?_, ?_, ?_⟩, ?_⟩
    · intro hn
      rcases hr with hr | hr
      · exact absurd (hk.mpr hn) (by simp [hr])
      · exact hr
    · intro hn
      simpa [hn] using hw
    · intro v hv
      cases hv
      simpa using ha
    · intro v hv
      cases hv
      simpa using hc
  · rintro ⟨h, hc⟩
    refine ⟨⟨⟨⟨⟨⟨h.service, h.departure⟩, h.load⟩, ?_⟩, ?_⟩, ?_⟩, ?_⟩
    · cases vehicle with
      | none => rfl
      | some v => simpa using hc v rfl
    · by_cases hn : stop.stopType = .delivery
      · simp [hn]
      · exact .inr (h.ready hn)
    · by_cases hn : stop.stopType = .delivery
      · simpa [hn] using h.window hn
      · simp [hn]
    · cases vehicle with
      | none => rfl
      | some v => simpa using h.available v rfl

/-- The stop loop raises nothing: every stop is of a known order and fits, and the running
load stays within the vehicle's capacity. -/
theorem checkStops_eq_nil (vehicle : Option SolverVehicle) (route : SolverRoute) (load : Int)
    (stops : List SolverStop) :
    checkStops input vehicle route load stops = [] ↔
      (∀ stop ∈ stops, ∃ order, input.order? stop.orderId = some order ∧
        StopFits vehicle order stop) ∧
      ∀ v ∈ vehicle, RunningWithin 0 v.capacityLoadUnits load
        (stops.map (·.loadChangeLoadUnits)) := by
  induction stops generalizing load with
  | nil => simp [checkStops]
  | cons stop rest ih =>
    rw [checkStops]
    cases ho : input.order? stop.orderId with
    | none => simp [ho]
    | some order =>
      simp only [List.append_eq_nil_iff, stopIssues_eq_nil, ih, List.forall_mem_cons, ho,
        Option.some.injEq, exists_eq_left', List.map_cons, runningWithin_cons]
      constructor
      · rintro ⟨⟨hf, hc⟩, hr, hl⟩
        exact ⟨⟨hf, hr⟩, fun v hv ↦ ⟨hc v hv, hl v hv⟩⟩
      · rintro ⟨⟨hf, hr⟩, hl⟩
        exact ⟨⟨hf, fun v hv ↦ (hl v hv).1⟩, hr, fun v hv ↦ (hl v hv).2⟩

/-- The reachability loop raises nothing. -/
theorem checkTravel_eq_nil (route : SolverRoute) (location : UUID) (departure : Nat)
    (stops : List SolverStop) :
    checkTravel input route location departure stops = [] ↔
      Reaches input location departure stops := by
  induction stops generalizing location departure with
  | nil => simp [checkTravel, Reaches]
  | cons stop rest ih => simp [checkTravel, Reaches, ih]

/-- The matrix checks raise nothing on a route whose stops are in the matrix. -/
theorem checkMatrix_eq_nil (vehicle : SolverVehicle) (route : SolverRoute)
    (hl : ∀ stop ∈ route.stops, stop.locationId ∈ input.locationIds) :
    checkMatrix input (some vehicle) route = [] ↔
      (route.stops ≠ [] → Reaches input vehicle.startLocationId vehicle.availableFromSeconds
        route.stops ∧ DeclaresTotals input vehicle route) := by
  have hall : route.stops.all (fun stop ↦ input.locationIds.contains stop.locationId) = true := by
    simpa using hl
  cases hlast : route.stops.getLast? with
  | none =>
    have hn : route.stops = [] := List.getLast?_eq_none_iff.mp hlast
    simp [checkMatrix, hn]
  | some last =>
    have hn : route.stops ≠ [] := by
      intro h
      simp [h] at hlast
    simp only [checkMatrix, hlast, hall, if_true, List.append_eq_nil_iff, checkTravel_eq_nil,
      issueIf_eq_nil, bne_eq_false_iff_eq, ne_eq, hn, not_false_eq_true, forall_const]
    constructor
    · rintro ⟨⟨hr, hd⟩, hu⟩
      refine ⟨hr, hd, ?_⟩
      intro l h
      rw [hlast] at h
      cases h
      exact hu
    · rintro ⟨hr, hd, hu⟩
      exact ⟨⟨hr, hd⟩, hu last hlast⟩

/-! ### Orders of one route -/

/-- The origin kind and the origin location are present together. -/
theorem originType_cases (order : SolverOrder) :
    (originType order = none ∧ order.originLocation = none ∧ order.requiredVehicleId.isSome) ∨
    (∃ kind location, originType order = some kind ∧ kind ≠ .delivery ∧
      order.originLocation = some location ∧ order.requiredVehicleId = none) := by
  rcases order.origin_cases with ⟨loc, hp, hh, hr⟩ | ⟨loc, hp, hh, hr⟩ | ⟨v, hp, hh, hr⟩
  · exact .inr ⟨.pickup, loc, by simp [originType, hp], by decide,
      by simp [SolverOrder.originLocation, hp], hr⟩
  · exact .inr ⟨.handover, loc, by simp [originType, hp, hh], by decide,
      by simp [SolverOrder.originLocation, hp, hh], hr⟩
  · exact .inl ⟨by simp [originType, hp, hh], by simp [SolverOrder.originLocation, hp, hh],
      by simp [hr]⟩

/-- The checks of one dictionary entry raise nothing. -/
theorem ownIssues_eq_nil (vehicle : Option SolverVehicle) (orderId : UUID)
    (stops : List SolverStop) :
    ownIssues input vehicle orderId stops = [] ↔
      ∀ order, input.order? orderId = some order → orderIssues vehicle order stops = [] := by
  rw [ownIssues]
  cases input.order? orderId <;> simp

/-- The duplicate check and the order checks over one route's dictionary raise nothing. -/
theorem checkOrders_eq_nil (vehicle : Option SolverVehicle) (assigned : List UUID)
    {groups : List (UUID × List SolverStop)} (hd : (groups.map Prod.fst).Nodup) :
    (checkOrders input vehicle assigned groups).1 = [] ↔
      ∀ g ∈ groups, g.1 ∉ assigned ∧
        ∀ order, input.order? g.1 = some order → orderIssues vehicle order g.2 = [] := by
  induction groups generalizing assigned with
  | nil => simp [checkOrders]
  | cons g rest ih =>
    rcases g with ⟨orderId, stops⟩
    simp only [List.map_cons, List.nodup_cons, List.mem_map, not_exists, not_and] at hd
    have hfresh : ∀ g ∈ rest, (g.1 ∉ orderId :: assigned ↔ g.1 ∉ assigned) := by
      intro g hg
      simp [hd.1 g hg]
    simp only [checkOrders, List.append_eq_nil_iff, issueIf_eq_nil, ownIssues_eq_nil,
      ih _ hd.2, List.forall_mem_cons]
    constructor
    · rintro ⟨⟨hc, ho⟩, hr⟩
      refine ⟨⟨by simpa using hc, ho⟩, ?_⟩
      intro g hg
      exact ⟨(hfresh g hg).mp (hr g hg).1, (hr g hg).2⟩
    · rintro ⟨⟨hc, ho⟩, hr⟩
      refine ⟨⟨by simpa using hc, ho⟩, ?_⟩
      intro g hg
      exact ⟨(hfresh g hg).mpr (hr g hg).1, (hr g hg).2⟩

/-- After the loop the assigned ids are the earlier ones and the route's own. -/
theorem mem_checkOrders_assigned (vehicle : Option SolverVehicle) (assigned : List UUID)
    (groups : List (UUID × List SolverStop)) (orderId : UUID) :
    orderId ∈ (checkOrders input vehicle assigned groups).2 ↔
      orderId ∈ assigned ∨ orderId ∈ groups.map Prod.fst := by
  induction groups generalizing assigned with
  | nil => simp [checkOrders]
  | cons g rest ih =>
    rcases g with ⟨k, stops⟩
    simp only [checkOrders, ih, List.mem_cons, List.map_cons]
    constructor
    · rintro ((h | h) | h)
      · exact .inr (.inl h)
      · exact .inl h
      · exact .inr (.inr h)
    · rintro (h | h | h)
      · exact .inl (.inr h)
      · exact .inl (.inl h)
      · exact .inr h

/-- Sequence numbers 1..k increase along the route. -/
theorem pairwise_sequenceNo {stops : List SolverStop}
    (h : stops.map (·.sequenceNo) = List.range' 1 stops.length) :
    stops.Pairwise (fun a b ↦ a.sequenceNo < b.sequenceNo) := by
  have hs : (stops.map (·.sequenceNo)).Pairwise (· < ·) := by
    rw [h]
    exact List.pairwise_lt_range'
  exact List.pairwise_map.mp hs

private theorem StopFits.originStop {vehicle : Option SolverVehicle} {order : SolverOrder}
    {stop : SolverStop} (h : StopFits vehicle order stop)
    (hk : originType order = some stop.stopType) (hn : stop.stopType ≠ .delivery)
    (hl : order.originLocation = some stop.locationId) : OriginStop order stop := by
  refine ⟨hk, hl, h.service, h.departure, ?_, h.ready hn⟩
  rw [h.load]
  cases ht : stop.stopType with
  | delivery => exact absurd ht hn
  | pickup => rfl
  | handover => rfl

private theorem StopFits.deliveryStop {vehicle : Option SolverVehicle} {order : SolverOrder}
    {stop : SolverStop} (h : StopFits vehicle order stop) (hk : stop.stopType = .delivery)
    (hl : stop.locationId = order.deliveryLocationId) : DeliveryStop order stop := by
  have hs := h.service
  have hd := h.departure
  have hc := h.load
  rw [hk] at hs hd hc
  exact ⟨hk, hl, hs, hd, hc, h.window hk⟩

/-- Origins are not deliveries. -/
theorem OriginStop.ne_delivery {order : SolverOrder} {stop : SolverStop}
    (h : OriginStop order stop) : stop.stopType ≠ .delivery := by
  intro hd
  have hk := h.kind
  rw [hd] at hk
  rcases originType_cases order with ⟨hn, -⟩ | ⟨kind, loc, hs, hne, -⟩
  · rw [hn] at hk
    cases hk
  · rw [hs] at hk
    exact hne (Option.some.inj hk)

/-- What the order checks ask of an order's stops on a vehicle's route, in sequence. -/
def ServedBy (vehicleId : UUID) (order : SolverOrder) (stops : List SolverStop) : Prop :=
  (∃ origin delivery, stops = [origin, delivery] ∧
    OriginStop order origin ∧ DeliveryStop order delivery) ∨
  (order.originLocation = none ∧ order.requiredVehicleId = some vehicleId ∧
    ∃ delivery, stops = [delivery] ∧ DeliveryStop order delivery)

private theorem orderIssues_deliveryOnly (v : SolverVehicle) (order : SolverOrder)
    {stops : List SolverStop} (hn : originType order = none)
    (hf : ∀ stop ∈ stops, StopFits (some v) order stop) :
    orderIssues (some v) order stops = [] ↔
      order.requiredVehicleId = some v.vehicleId ∧
        ∃ delivery, stops = [delivery] ∧ DeliveryStop order delivery := by
  simp only [orderIssues, hn, List.append_eq_nil_iff, issueIf_eq_nil, Bool.or_eq_false_iff,
    bne_eq_false_iff_eq, Option.any_some]
  constructor
  · rintro ⟨⟨⟨hd, hs⟩, hl⟩, hr⟩
    obtain ⟨stop, rfl⟩ := List.length_eq_one_iff.mp hs
    have hk : stop.stopType = .delivery := by
      apply Classical.byContradiction
      intro hne
      simp [hne] at hd
    refine ⟨hr, stop, rfl, (hf stop (by simp)).deliveryStop hk ?_⟩
    simpa [hk] using hl
  · rintro ⟨hr, stop, rfl, hD⟩
    simp [hr, hD.kind, hD.location]

private theorem orderIssues_origin (v : SolverVehicle) (order : SolverOrder)
    {kind : SolverStopType} {stops : List SolverStop}
    (hk : originType order = some kind) (hne : kind ≠ .delivery)
    (hf : ∀ stop ∈ stops, StopFits (some v) order stop)
    (hp : stops.Pairwise (fun a b ↦ a.sequenceNo < b.sequenceNo)) :
    orderIssues (some v) order stops = [] ↔
      ∃ origin delivery, stops = [origin, delivery] ∧
        OriginStop order origin ∧ DeliveryStop order delivery := by
  simp only [orderIssues, hk]
  constructor
  · intro h
    split at h
    · next origin final a b ho hd =>
      simp only [List.append_eq_nil_iff, issueIf_eq_nil, bne_eq_false_iff_eq,
        decide_eq_false_iff_not, Nat.not_le] at h
      obtain ⟨⟨hl, hdl⟩, hlt⟩ := h
      have hab : a.sequenceNo < b.sequenceNo := by simpa using hp
      have hO : origin ∈ [a, b].filter (·.stopType == kind) := by simp [ho]
      have hD : final ∈ [a, b].filter (·.stopType == .delivery) := by simp [hd]
      obtain ⟨hOm, hOk⟩ := List.mem_filter.mp hO
      obtain ⟨hDm, hDk⟩ := List.mem_filter.mp hD
      have hOk' : origin.stopType = kind := by simpa using hOk
      have hDk' : final.stopType = .delivery := by simpa using hDk
      have hpair : origin = a ∧ final = b := by
        simp only [List.mem_cons, List.not_mem_nil, or_false] at hOm hDm
        rcases hOm with rfl | rfl <;> rcases hDm with rfl | rfl
        · exact absurd (hOk'.symm.trans hDk') hne
        · exact ⟨rfl, rfl⟩
        · omega
        · exact absurd (hOk'.symm.trans hDk') hne
      obtain ⟨rfl, rfl⟩ := hpair
      refine ⟨origin, final, rfl, (hf origin (by simp)).originStop ?_ ?_ hl.symm,
        (hf final (by simp)).deliveryStop hDk' hdl⟩
      · rw [hk, hOk']
      · rw [hOk']
        exact hne
    · cases h
  · rintro ⟨origin, delivery, rfl, hO, hD⟩
    have hok : origin.stopType = kind := by
      have := hO.kind
      rw [hk] at this
      exact (Option.some.inj this).symm
    have hlt : origin.sequenceNo < delivery.sequenceNo := by simpa using hp
    have ho : [origin, delivery].filter (·.stopType == kind) = [origin] := by
      simp [hok, hD.kind, Ne.symm hne]
    have hd : [origin, delivery].filter (·.stopType == .delivery) = [delivery] := by
      simp [hO.ne_delivery, hD.kind]
    rw [ho, hd]
    simp [hO.location, hD.location, hlt]

/-- The order checks raise nothing exactly when the route serves the order. -/
theorem orderIssues_eq_nil (v : SolverVehicle) (order : SolverOrder) {stops : List SolverStop}
    (hf : ∀ stop ∈ stops, StopFits (some v) order stop)
    (hp : stops.Pairwise (fun a b ↦ a.sequenceNo < b.sequenceNo)) :
    orderIssues (some v) order stops = [] ↔ ServedBy v.vehicleId order stops := by
  rcases originType_cases order with ⟨hn, hloc, -⟩ | ⟨kind, _, hk, hne, hloc, -⟩
  · rw [orderIssues_deliveryOnly v order hn hf, ServedBy]
    constructor
    · rintro ⟨hr, hs⟩
      exact .inr ⟨hloc, hr, hs⟩
    · rintro (⟨origin, delivery, -, hO, -⟩ | ⟨-, hr, hs⟩)
      · have := hO.kind
        rw [hn] at this
        cases this
      · exact ⟨hr, hs⟩
  · rw [orderIssues_origin v order hk hne hf hp, ServedBy]
    constructor
    · exact .inl
    · rintro (hs | ⟨hn, -⟩)
      · exact hs
      · rw [hloc] at hn
        cases hn

/-! ### One route -/

/-- What the checks ask of a route on its own. -/
structure RouteFits (input : SolverInput) (route : SolverRoute) : Prop where
  drivable : ∃ vehicle ∈ input.vehicles, vehicle.vehicleId = route.vehicleId ∧
    Drivable input vehicle route ∧ (route.stops ≠ [] → DeclaresTotals input vehicle route)
  served : ∀ stop ∈ route.stops, ∃ order ∈ input.orders, order.orderId = stop.orderId ∧
    ServedOn order route

/-- The dictionary of a route whose stops are all of known orders. -/
theorem mem_stopsByOrder {route : SolverRoute}
    (hk : ∀ stop ∈ route.stops, ∃ order, input.order? stop.orderId = some order) (orderId : UUID)
    (stops : List SolverStop) :
    (orderId, stops) ∈ stopsByOrder input route.stops ↔
      stops = route.stopsOf orderId ∧ route.Visits orderId := by
  have hall : route.stops.filter (fun stop ↦ (input.order? stop.orderId).isSome) = route.stops := by
    apply List.filter_eq_self.mpr
    intro stop hs
    obtain ⟨order, ho⟩ := hk stop hs
    simp [ho]
  rw [stopsByOrder, hall, mem_groupByKey]
  constructor
  · rintro ⟨rfl, hn⟩
    obtain ⟨stop, hs⟩ := List.exists_mem_of_ne_nil _ hn
    exact ⟨rfl, stop, (List.mem_filter.mp hs).1, by simpa using (List.mem_filter.mp hs).2⟩
  · rintro ⟨rfl, stop, hs, he⟩
    exact ⟨rfl, List.ne_nil_of_mem (List.mem_filter.mpr ⟨hs, by simpa using he⟩)⟩

private theorem ServedOn.stopFits {vehicle : SolverVehicle} {order : SolverOrder}
    {route : SolverRoute} (h : ServedOn order route) {stop : SolverStop}
    (hs : stop ∈ route.stops) (ho : stop.orderId = order.orderId)
    (ha : vehicle.availableFromSeconds ≤ stop.arrivalTimeSeconds ∧
      stop.departureTimeSeconds ≤ vehicle.availableUntilSeconds) :
    StopFits (some vehicle) order stop := by
  have hav : ∀ v ∈ some vehicle, v.availableFromSeconds ≤ stop.arrivalTimeSeconds ∧
      stop.departureTimeSeconds ≤ v.availableUntilSeconds := by
    intro v hv
    cases hv
    exact ha
  rcases h.stop_cases hs ho with hO | hD
  · refine ⟨hO.service, hO.departure, ?_, fun _ ↦ hO.ready, fun hd ↦ absurd hd hO.ne_delivery, hav⟩
    rw [hO.load]
    cases ht : stop.stopType with
    | delivery => exact absurd ht hO.ne_delivery
    | pickup => rfl
    | handover => rfl
  · have hk := hD.kind
    refine ⟨?_, ?_, ?_, fun hn ↦ absurd hk hn, fun _ ↦ hD.window, hav⟩
    · rw [hk]
      exact hD.service
    · rw [hk]
      exact hD.departure
    · rw [hk]
      exact hD.load

private theorem locations_mem {route : SolverRoute}
    (h : ∀ stop ∈ route.stops, ∃ order ∈ input.orders, order.orderId = stop.orderId ∧
      ServedOn order route) :
    ∀ stop ∈ route.stops, stop.locationId ∈ input.locationIds := by
  intro stop hs
  obtain ⟨order, hm, he, hsv⟩ := h stop hs
  rcases hsv.stop_cases hs he.symm with hO | hD
  · exact input.origin_mem hm hO.location
  · rw [hD.location]
    exact input.delivery_mem hm

/-- One iteration of the route loop raises nothing. -/
theorem checkRoute_eq_nil (routeVehicleIds assigned : List UUID) (route : SolverRoute) :
    (checkRoute input routeVehicleIds assigned route).1 = [] ↔
      RouteFits input route ∧ route.vehicleId ∉ routeVehicleIds ∧
        ∀ stop ∈ route.stops, stop.orderId ∉ assigned := by
  have hgroups : ((stopsByOrder input route.stops).map Prod.fst).Nodup :=
    nodup_keys_groupByKey _ _
  simp only [checkRoute, List.append_eq_nil_iff, issueIf_eq_nil, checkStops_eq_nil,
    checkOrders_eq_nil _ _ hgroups, Option.isNone_eq_false_iff, bne_eq_false_iff_eq]
  constructor
  · rintro ⟨⟨⟨⟨⟨hv, hnew⟩, hseq⟩, hstops, hload⟩, hmatrix⟩, horders⟩
    obtain ⟨vehicle, hvehicle⟩ := Option.isSome_iff_exists.mp hv
    obtain ⟨hvm, hvid⟩ := (input.vehicle?_eq_some_iff _ _).mp hvehicle
    rw [hvehicle] at hstops hload hmatrix horders
    have hknown : ∀ stop ∈ route.stops, ∃ order, input.order? stop.orderId = some order := by
      intro stop hs
      obtain ⟨order, ho, -⟩ := hstops stop hs
      exact ⟨order, ho⟩
    have hgroup : ∀ stop ∈ route.stops, ∃ order, input.order? stop.orderId = some order ∧
        stop.orderId ∉ assigned ∧ ServedOn order route := by
      intro stop hs
      obtain ⟨order, ho⟩ := hknown stop hs
      have he := ((input.order?_eq_some_iff _ _).mp ho).2
      have hm := (mem_stopsByOrder hknown stop.orderId (route.stopsOf stop.orderId)).mpr
        ⟨rfl, stop, hs, rfl⟩
      obtain ⟨hfresh, hissues⟩ := horders _ hm
      refine ⟨order, ho, hfresh, ?_⟩
      have hfits : ∀ s ∈ route.stopsOf stop.orderId, StopFits (some vehicle) order s := by
        intro s hsm
        obtain ⟨hsr, hso⟩ := List.mem_filter.mp hsm
        obtain ⟨order', ho', hf⟩ := hstops s hsr
        rw [of_decide_eq_true hso, ho] at ho'
        cases ho'
        exact hf
      have hpairs := (pairwise_sequenceNo hseq).filter (fun s ↦ s.orderId = stop.orderId)
      have hserved := (orderIssues_eq_nil vehicle order hfits hpairs).mp (hissues order ho)
      rw [hvid, ← he] at hserved
      exact hserved
    have hserved : ∀ stop ∈ route.stops, ∃ order ∈ input.orders,
        order.orderId = stop.orderId ∧ ServedOn order route := by
      intro stop hs
      obtain ⟨order, ho, -, hsv⟩ := hgroup stop hs
      obtain ⟨hm, he⟩ := (input.order?_eq_some_iff _ _).mp ho
      exact ⟨order, hm, he, hsv⟩
    have hreaches := (checkMatrix_eq_nil vehicle route (locations_mem hserved)).mp hmatrix
    refine ⟨⟨⟨vehicle, hvm, hvid, ⟨hseq, ?_, ?_, ?_⟩, ?_⟩, hserved⟩, by simpa using hnew, ?_⟩
    · exact hload vehicle rfl
    · intro stop hs
      obtain ⟨order, -, hf⟩ := hstops stop hs
      exact hf.available vehicle rfl
    · by_cases hn : route.stops = []
      · rw [hn]
        trivial
      · exact (hreaches hn).1
    · intro hn
      exact (hreaches hn).2
    · intro stop hs
      obtain ⟨order, -, hfresh, -⟩ := hgroup stop hs
      exact hfresh
  · rintro ⟨⟨⟨vehicle, hvm, hvid, hdrive, htotals⟩, hserved⟩, hnew, hfresh⟩
    have hvehicle := (input.vehicle?_eq_some_iff route.vehicleId vehicle).mpr ⟨hvm, hvid⟩
    have hknown : ∀ stop ∈ route.stops, ∃ order, input.order? stop.orderId = some order := by
      intro stop hs
      obtain ⟨order, hm, he, -⟩ := hserved stop hs
      exact ⟨order, (input.order?_eq_some_iff _ _).mpr ⟨hm, he⟩⟩
    have hfit : ∀ stop ∈ route.stops, ∀ order, input.order? stop.orderId = some order →
        ServedOn order route ∧ StopFits (some vehicle) order stop := by
      intro stop hs order ho
      obtain ⟨order', hm, he, hsv⟩ := hserved stop hs
      rw [(input.order?_eq_some_iff _ _).mpr ⟨hm, he⟩] at ho
      cases ho
      exact ⟨hsv, hsv.stopFits hs he.symm (hdrive.available stop hs)⟩
    rw [hvehicle]
    refine ⟨⟨⟨⟨⟨rfl, by simpa using hnew⟩, hdrive.sequence⟩, ?_, ?_⟩, ?_⟩, ?_⟩
    · intro stop hs
      obtain ⟨order, ho⟩ := hknown stop hs
      exact ⟨order, ho, (hfit stop hs order ho).2⟩
    · intro v hv
      cases hv
      exact hdrive.load
    · exact (checkMatrix_eq_nil vehicle route (locations_mem hserved)).mpr fun hn ↦
        ⟨hdrive.reaches, htotals hn⟩
    · rintro ⟨orderId, stops⟩ hg
      obtain ⟨rfl, stop, hs, rfl⟩ := (mem_stopsByOrder hknown _ _).mp hg
      refine ⟨hfresh stop hs, ?_⟩
      intro order ho
      have he : order.orderId = stop.orderId := ((input.order?_eq_some_iff _ _).mp ho).2
      have hpairs := (pairwise_sequenceNo hdrive.sequence).filter
        (fun s ↦ s.orderId = stop.orderId)
      refine (orderIssues_eq_nil vehicle order ?_ hpairs).mpr ?_
      · intro s hsm
        obtain ⟨hsr, hso⟩ := List.mem_filter.mp hsm
        have hso' : s.orderId = stop.orderId := of_decide_eq_true hso
        exact (hfit s hsr order (by rw [hso']; exact ho)).2
      · rw [hvid, ← he]
        exact (hfit stop hs order ho).1

end PenroseRoute.Optimization
