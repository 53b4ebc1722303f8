import PenroseRoute.Incidents.Workflow
import PenroseRoute.Recovery.NewStops

/-!
# Absolute times of new stops

The solver input counts whole seconds from the current time, truncated and never negative, and
the candidate converts back. This module says which limits of an order survive both
conversions.
-/

namespace PenroseRoute.Recovery

open PenroseRoute.Db PenroseRoute.Lib PenroseRoute.Operations PenroseRoute.Optimization

/-! ### Whole seconds from now -/

/-- A time that `seconds` does not make earlier: it has come, or it is whole seconds away. -/
def Lossless (currentTime value : Instant) : Prop :=
  value ≤ currentTime ∨ (value - currentTime) % 1000000 = 0

/-- Times are compared. -/
instance (currentTime value : Instant) : Decidable (Lossless currentTime value) :=
  inferInstanceAs (Decidable (_ ∨ _))

/-- Nothing is lost of a whole number of seconds, nor of the past. -/
theorem lossless_iff (currentTime value : Int) :
    Lossless currentTime value ↔
      value ≤ currentTime ∨ (value - currentTime) % 1000000 = 0 := Iff.rfl

/-- The seconds until a time, and what `seconds` cuts off. -/
theorem seconds_spec (currentTime value : Int) :
    (value ≤ currentTime ∧ seconds currentTime value = 0) ∨
      (currentTime ≤ value ∧ currentTime + timedelta (seconds currentTime value) =
        value - (value - currentTime) % 1000000) := by
  by_cases h : value ≤ currentTime
  · left
    refine ⟨h, ?_⟩
    rw [seconds, totalSeconds, Int.toNat_eq_zero]
    have hle := Int.tdiv_le_tdiv (c := 1000000) (by decide) (Int.sub_nonpos_of_le h)
    rwa [Int.zero_tdiv] at hle
  · right
    have hnonneg : 0 ≤ value - currentTime := by omega
    have hdiv : ((seconds currentTime value : Nat) : Int) = (value - currentTime) / 1000000 := by
      rw [seconds, totalSeconds, Int.tdiv_eq_ediv_of_nonneg hnonneg]
      exact Int.toNat_of_nonneg (Int.ediv_nonneg hnonneg (by decide))
    rw [timedelta, hdiv]
    omega

/-- Counting from the current time reaches a time exactly when nothing was cut off. -/
theorem le_seconds_iff (currentTime value : Int) :
    value ≤ currentTime + timedelta (seconds currentTime value) ↔
      Lossless currentTime value := by
  rw [lossless_iff]
  rcases seconds_spec currentTime value with ⟨h, hs⟩ | ⟨h, hs⟩
  · rw [hs, timedelta]
    omega
  · rw [hs]
    omega

/-- A stop that is late enough in seconds is late enough, unless it uses what was cut off. -/
theorem le_arrival_iff (currentTime value : Int) {arrival : Nat}
    (h : seconds currentTime value ≤ arrival) :
    value ≤ currentTime + timedelta arrival ↔
      Lossless currentTime value ∨ arrival ≠ seconds currentTime value := by
  by_cases he : arrival = seconds currentTime value
  · rw [he, le_seconds_iff]
    exact ⟨.inl, fun h ↦ h.resolve_right fun hne ↦ hne rfl⟩
  · have hlt : seconds currentTime value + 1 ≤ arrival := by omega
    refine ⟨fun _ ↦ .inr he, fun _ ↦ ?_⟩
    have hspec := seconds_spec currentTime value
    rw [timedelta] at hspec ⊢
    omega

/-- A stop that is early enough in seconds is early enough, unless the time has passed. -/
theorem arrival_le_iff (currentTime value : Int) {arrival : Nat}
    (h : arrival ≤ seconds currentTime value) :
    currentTime + timedelta arrival ≤ value ↔ currentTime ≤ value := by
  have hspec := seconds_spec currentTime value
  rw [timedelta] at hspec ⊢
  omega

/-! ### Limits -/

/-- A new stop at a time that its order allows. -/
structure RespectsLimits (order : RecoveryOrderFact) (stop : RouteStop) : Prop where
  delivery : stop.stopType = .delivery → order.deliveryWindowStartAt ≤ stop.plannedArrivalAt ∧
    stop.plannedArrivalAt ≤ order.deliveryWindowEndAt
  pickup : stop.stopType = .pickup → order.pickupReadyAt ≤ stop.plannedArrivalAt

/-- The limits of an order survive the conversion for a solver stop: a delivery window that has
not closed, and no arrival in a second that was cut off. -/
structure LimitsSurvive (currentTime : Instant) (order : RecoveryOrderFact)
    (stop : SolverStop) : Prop where
  delivery : stop.stopType = .delivery → currentTime ≤ order.deliveryWindowEndAt ∧
    (Lossless currentTime order.deliveryWindowStartAt ∨
      stop.arrivalTimeSeconds ≠ seconds currentTime order.deliveryWindowStartAt)
  pickup : stop.stopType = .pickup → Lossless currentTime order.pickupReadyAt ∨
    stop.arrivalTimeSeconds ≠ seconds currentTime order.pickupReadyAt

/-- A solver stop that the validator accepts is late and early enough in seconds. -/
theorem seconds_of_accepted {context : RecoveryContext} {matrix : RoutingMatrix}
    {input : SolverInput} {result : SolverResult}
    (hinput : buildRecoverySolverInput context matrix = .ok input)
    (hdriven : RoutesDriven input result) {solver : SolverRoute} (hs : solver ∈ result.routes)
    {solverStop : SolverStop} (hstop : solverStop ∈ solver.stops) {order : RecoveryOrderFact}
    (ho : context.targetOrder? solverStop.orderId = some order) :
    (solverStop.stopType = .delivery →
      seconds context.currentTime order.deliveryWindowStartAt ≤ solverStop.arrivalTimeSeconds ∧
        solverStop.arrivalTimeSeconds ≤ seconds context.currentTime order.deliveryWindowEndAt) ∧
    (solverStop.stopType = .pickup →
      seconds context.currentTime order.pickupReadyAt ≤ solverStop.arrivalTimeSeconds) := by
  obtain ⟨solverOrder, hmem, hid, hcase⟩ := hdriven.stops solver hs solverStop hstop
  have hfields := targetOrder?_fields hinput ho hmem hid
  constructor
  · intro hd
    rcases hcase with horigin | hdelivery
    · exact absurd hd horigin.ne_delivery
    · have hwindow := hdelivery.window
      rw [hfields] at hwindow
      exact hwindow
  · intro hp
    rcases hcase with horigin | hdelivery
    · have hkind := horigin.kind
      have hready := horigin.ready
      rw [hp, SolverResultValidator.originType] at hkind
      rw [hfields] at hkind hready
      cases hh : order.handoverRequired with
      | false =>
        rw [solverOrderFields, hh] at hready
        exact hready
      | true =>
        rw [solverOrderFields, hh] at hkind
        revert hkind
        cases order.handoverLocationId <;> exact fun hkind ↦ by cases hkind
    · rw [hdelivery.kind] at hp
      cases hp

/-- For every context and every result that the validator accepts for it: the new stops respect
the limits of their orders exactly when these survive the conversion to seconds and back. -/
theorem createCandidate_limits_iff {db db' : Database} {context : RecoveryContext}
    {matrix : RoutingMatrix} {input : SolverInput} {result : SolverResult} {roads : RoadRoutes}
    {candidate : DeliveryPlan}
    (hinput : buildRecoverySolverInput context matrix = .ok input)
    (hvalid : SolverResultValidator.validate input result = [])
    (hcreated : createCandidate db context result roads = .ok (db', candidate)) :
    (∀ route ∈ candidate.routes, ∀ stop ∈ route.newStops, ∀ order,
      context.targetOrder? stop.orderId = some order → RespectsLimits order stop) ↔
    ∀ solver ∈ result.routes, ∀ stop ∈ solver.stops, ∀ order,
      context.targetOrder? stop.orderId = some order →
        LimitsSurvive context.currentTime order stop := by
  have hdriven := routesDriven_of_validate hvalid
  refine (createCandidate_ok hcreated).1.forall_newStops_iff hdriven.vehicles ?_
  intro solver hs solverStop hstop order ho id sequence precedence
  obtain ⟨hdelivery, hpickup⟩ := seconds_of_accepted hinput hdriven hs hstop ho
  have hstart := fun hd ↦ le_arrival_iff context.currentTime order.deliveryWindowStartAt
    (hdelivery hd).1
  have hend := fun hd ↦ arrival_le_iff context.currentTime order.deliveryWindowEndAt
    (hdelivery hd).2
  have hready := fun hp ↦ le_arrival_iff context.currentTime order.pickupReadyAt (hpickup hp)
  constructor
  · intro h
    refine ⟨fun hd ↦ ?_, fun hp ↦ (hready hp).mp (h.pickup hp)⟩
    exact ⟨(hend hd).mp (h.delivery hd).2, (hstart hd).mp (h.delivery hd).1⟩
  · intro h
    refine ⟨fun hd ↦ ?_, fun hp ↦ (hready hp).mpr (h.pickup hp)⟩
    exact ⟨(hstart hd).mpr (h.delivery hd).2, (hend hd).mpr (h.delivery hd).1⟩

/-! ### A delayed merchant -/

/-- All distances and travel times between different places are equal. -/
def uniformMatrix (locationIds : List UUID) : RoutingMatrix where
  locationIds := locationIds
  distanceMatrixMeters := locationIds.map fun a ↦ locationIds.map fun b ↦ if a = b then 0 else 100
  durationMatrixSeconds := locationIds.map fun a ↦ locationIds.map fun b ↦ if a = b then 0 else 60

/-- Vehicle 10 serves an order of merchant 8 and vehicle 20 one of merchant 7; neither has
started. -/
def delayDatabase : Database :=
  { handoverDatabase 1 2 with
    orders := [scenarioOrder 31 2 .planned, { scenarioOrder 32 3 .planned with merchantId := 8 }]
    vehicles := [⟨10, "V10", 5, .available, 1, 0⟩, ⟨20, "V20", 5, .available, 1, 0⟩]
    drivers := [⟨11, .available⟩, ⟨21, .available⟩]
    assignments := [⟨12, 10, 11, .planned, 0, none, none, none⟩,
      ⟨22, 20, 21, .planned, 0, none, none, none⟩]
    merchants := [7, 8]
    plans := [{ handoverBase 1 2 with
      routes := [
        scenarioRoute 41 1 10 3 .planned [scenarioStop 51 32 1 1 .pickup none false,
          scenarioStop 52 32 3 2 .delivery (some 51) false],
        scenarioRoute 42 2 20 2 .planned [scenarioStop 53 31 1 1 .pickup none false,
          scenarioStop 54 31 2 2 .delivery (some 53) false]] }]
    incidents := [] }

/-- One order served by one vehicle as soon as its goods are ready. -/
def delayResult (orderId vehicleId deliveryLocationId : UUID) : SolverResult where
  status := .feasible
  routes := [{
    vehicleId := vehicleId
    stops := [servedStop orderId 1 .pickup 0 780 60 1,
      servedStop orderId deliveryLocationId .delivery 1 900 60 (-1)]
    distanceMeters := 100
    durationSeconds := 960 }]
  unassignedOrders := []
  totalDistanceMeters := 100
  totalDurationSeconds := 960
  diagnostic := none

/-- Merchant 7 has reported a new ready time. -/
def delayedDatabase (updatedReadyAt : Instant) : Database :=
  match Incidents.MerchantDelayWorkflow.assessDelay 600 delayDatabase 738000 7 updatedReadyAt 0
    true with
  | .ok (db, _) => db
  | .error _ => delayDatabase

/-- The context of that incident when the goods are ready in 13 minutes and 0.4 seconds. -/
def fractionContext : RecoveryContext :=
  (materializeRecoveryContext (delayedDatabase 900400000) 100 .affectedRoute
    120000000).toOption.get rfl

/-- The solver input of that context. -/
def fractionInput : SolverInput :=
  (buildRecoverySolverInput fractionContext
    (uniformMatrix fractionContext.locations)).toOption.get rfl

/-- The database and the candidate that `_create_candidate` makes of it. -/
def fractionCandidate : Database × DeliveryPlan :=
  (createCandidate (delayedDatabase 900400000) fractionContext (delayResult 31 20 2)
    none).toOption.get rfl

/-- The 0.4 seconds are cut off: an accepted result picks the goods up before they are ready. -/
theorem fraction_pickup_too_early :
    materializeRecoveryContext (delayedDatabase 900400000) 100 .affectedRoute 120000000 =
        .ok fractionContext ∧
      buildRecoverySolverInput fractionContext (uniformMatrix fractionContext.locations) =
        .ok fractionInput ∧
      Accepted fractionInput (delayResult 31 20 2) ∧ (delayResult 31 20 2).NoEmptyRoute ∧
      createCandidate (delayedDatabase 900400000) fractionContext (delayResult 31 20 2) none =
        .ok fractionCandidate ∧
      ∃ route ∈ fractionCandidate.2.routes, ∃ stop ∈ route.newStops,
        ∃ order ∈ fractionContext.targetOrders,
          fractionContext.targetOrder? stop.orderId = some order ∧
            stop.stopType = .pickup ∧ stop.plannedArrivalAt < order.pickupReadyAt := by
  refine ⟨rfl, rfl, ⟨rfl, rfl, by decide +kernel⟩, ?_, rfl, by decide +kernel⟩
  intro route hr
  rw [List.mem_singleton.mp hr]
  decide

/-- The context of that incident when the goods are ready in 13 minutes. -/
def wholeSecondContext : RecoveryContext :=
  (materializeRecoveryContext (delayedDatabase 900000000) 100 .affectedRoute
    120000000).toOption.get rfl

/-- The solver input of that context. -/
def wholeSecondInput : SolverInput :=
  (buildRecoverySolverInput wholeSecondContext
    (uniformMatrix wholeSecondContext.locations)).toOption.get rfl

/-- The database and the candidate that `_create_candidate` makes of it. -/
def wholeSecondCandidate : Database × DeliveryPlan :=
  (createCandidate (delayedDatabase 900000000) wholeSecondContext (delayResult 31 20 2)
    none).toOption.get rfl

/-- With whole seconds nothing is cut off, and the new stops respect the limits. -/
theorem wholeSecond_limits_respected :
    (∀ route ∈ wholeSecondCandidate.2.routes, ∀ stop ∈ route.newStops, ∀ order,
      wholeSecondContext.targetOrder? stop.orderId = some order → RespectsLimits order stop) ∧
    wholeSecondCandidate.2.routes.map (fun route ↦ route.newStops.map (·.plannedArrivalAt)) =
      [[], [900000000, 1020000000]] := by
  have hinput : buildRecoverySolverInput wholeSecondContext
      (uniformMatrix wholeSecondContext.locations) = .ok wholeSecondInput := rfl
  have hvalid : SolverResultValidator.validate wholeSecondInput (delayResult 31 20 2) = [] := by
    decide +kernel
  have hcreated : createCandidate (delayedDatabase 900000000) wholeSecondContext
      (delayResult 31 20 2) none = .ok (wholeSecondCandidate.1, wholeSecondCandidate.2) := rfl
  refine ⟨(createCandidate_limits_iff hinput hvalid hcreated).mpr ?_, by decide +kernel⟩
  have htimes : ∀ order ∈ wholeSecondContext.targetOrders,
      wholeSecondContext.currentTime ≤ order.deliveryWindowEndAt ∧
        Lossless wholeSecondContext.currentTime order.deliveryWindowStartAt ∧
        Lossless wholeSecondContext.currentTime order.pickupReadyAt := by
    decide +kernel
  intro solver _ stop _ order ho
  obtain ⟨hend, hstart, hready⟩ := htimes order (List.mem_of_find?_eq_some ho)
  exact ⟨fun _ ↦ ⟨hend, .inl hstart⟩, fun _ ↦ .inl hready⟩

end PenroseRoute.Recovery
