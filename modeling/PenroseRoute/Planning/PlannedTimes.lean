import PenroseRoute.Planning.FinalizedRows
import PenroseRoute.Planning.RoadRoutes
import PenroseRoute.Recovery.CandidateTimes

/-!
# Absolute times of a generated plan

The input counts whole seconds from the current time of the facts, cut off, and the finalizer
converts back. This module says which limits of the orders and of the assignments survive both
conversions.
-/

namespace PenroseRoute.Planning

open PenroseRoute.Db PenroseRoute.Lib PenroseRoute.Operations PenroseRoute.Optimization
open PenroseRoute.Recovery

variable {facts : PlanningFacts} {matrix : RoutingMatrix} {input : SolverInput}
  {result : SolverResult} {roads : RoadRoutes}

/-! ### Limits in seconds -/

/-- A second that the input gets is the one that a recovery would count. -/
theorem seconds_of_secondsFromCurrent {value : Instant} {n : Nat}
    (h : secondsFromCurrent facts value = .ok n) : seconds facts.currentTime value = n := by
  unfold secondsFromCurrent at h
  dsimp only at h
  split at h
  · cases h
  · exact Except.ok.inj h

/-- The limits of an order in the input. -/
theorem planningSolverOrder_times {fact : PlanningOrderFact} {order : SolverOrder}
    (h : planningSolverOrder facts fact = .ok order) :
    order.readyTimeSeconds = seconds facts.currentTime fact.pickupReadyAt ∧
      order.deliveryWindowStartSeconds = seconds facts.currentTime fact.deliveryWindowStartAt ∧
      order.deliveryWindowEndSeconds = seconds facts.currentTime fact.deliveryWindowEndAt := by
  obtain ⟨ready, hready, h⟩ := bind_eq_ok.mp h
  obtain ⟨opens, hopens, h⟩ := bind_eq_ok.mp h
  obtain ⟨closes, hcloses, h⟩ := bind_eq_ok.mp h
  have hfields := SolverOrder.make_ok ((valueError_eq_ok _ _).mp h)
  rw [seconds_of_secondsFromCurrent hready, seconds_of_secondsFromCurrent hopens,
    seconds_of_secondsFromCurrent hcloses, hfields]
  exact ⟨rfl, rfl, rfl⟩

/-- The availability of a vehicle in the input. -/
theorem planningSolverVehicle_times {pair : VehicleDriverPairFact} {vehicle : SolverVehicle}
    (h : planningSolverVehicle facts pair = .ok vehicle) :
    vehicle.availableFromSeconds = seconds facts.currentTime pair.assignedFromAt ∧
      vehicle.availableUntilSeconds =
        seconds facts.currentTime (pair.assignedUntilAt.getD (planningEnd facts)) := by
  obtain ⟨starts, hstarts, h⟩ := bind_eq_ok.mp h
  obtain ⟨ends, hends, h⟩ := bind_eq_ok.mp h
  have hfields := SolverVehicle.make_ok ((valueError_eq_ok _ _).mp h)
  rw [seconds_of_secondsFromCurrent hstarts, seconds_of_secondsFromCurrent hends, hfields]
  exact ⟨rfl, rfl⟩

/-! ### Limits of the plan -/

/-- A stop at a time that its order and the assignment of its vehicle allow. -/
structure RespectsLimits (facts : PlanningFacts) (vehicleId : UUID) (stop : RouteStop) : Prop where
  pickup : stop.stopType = .pickup → ∀ order, facts.order? stop.orderId = some order →
    order.pickupReadyAt ≤ stop.plannedArrivalAt
  delivery : stop.stopType = .delivery → ∀ order, facts.order? stop.orderId = some order →
    order.deliveryWindowStartAt ≤ stop.plannedArrivalAt ∧
      stop.plannedArrivalAt ≤ order.deliveryWindowEndAt
  assignment : ∀ pair, facts.pair? vehicleId = some pair →
    pair.assignedFromAt ≤ stop.plannedArrivalAt ∧
      ∀ assignedUntilAt, pair.assignedUntilAt = some assignedUntilAt →
        stop.plannedDepartureAt ≤ assignedUntilAt

/-- An arrival does not use what was cut off from a time. -/
def NotCut (facts : PlanningFacts) (value : Instant) (arrival : Nat) : Prop :=
  Lossless facts.currentTime value ∨ arrival ≠ seconds facts.currentTime value

/-- The limits of an order and of an assignment survive the conversion for a solver stop. -/
structure LimitsSurvive (facts : PlanningFacts) (vehicleId : UUID) (stop : SolverStop) : Prop where
  pickup : stop.stopType = .pickup → ∀ order, facts.order? stop.orderId = some order →
    NotCut facts order.pickupReadyAt stop.arrivalTimeSeconds
  delivery : stop.stopType = .delivery → ∀ order, facts.order? stop.orderId = some order →
    NotCut facts order.deliveryWindowStartAt stop.arrivalTimeSeconds ∧
      facts.currentTime ≤ order.deliveryWindowEndAt
  assignment : ∀ pair, facts.pair? vehicleId = some pair →
    NotCut facts pair.assignedFromAt stop.arrivalTimeSeconds ∧
      ∀ assignedUntilAt, pair.assignedUntilAt = some assignedUntilAt →
        facts.currentTime ≤ assignedUntilAt

/-- What the validator asks of a stop, in the times of the facts. -/
structure AcceptedTimes (facts : PlanningFacts) (vehicleId : UUID) (stop : SolverStop) : Prop where
  pickup : stop.stopType = .pickup → ∀ order, facts.order? stop.orderId = some order →
    seconds facts.currentTime order.pickupReadyAt ≤ stop.arrivalTimeSeconds
  delivery : stop.stopType = .delivery → ∀ order, facts.order? stop.orderId = some order →
    seconds facts.currentTime order.deliveryWindowStartAt ≤ stop.arrivalTimeSeconds ∧
      stop.arrivalTimeSeconds ≤ seconds facts.currentTime order.deliveryWindowEndAt
  assignment : ∀ pair, facts.pair? vehicleId = some pair →
    seconds facts.currentTime pair.assignedFromAt ≤ stop.arrivalTimeSeconds ∧
      ∀ assignedUntilAt, pair.assignedUntilAt = some assignedUntilAt →
        stop.departureTimeSeconds ≤ seconds facts.currentTime assignedUntilAt

namespace Finalizable

variable {solverRoute : SolverRoute} {solverStop : SolverStop}

private theorem order_eq (h : Finalizable facts input result roads) {order : PlanningOrderFact}
    {solverOrder : SolverOrder} (ho : facts.order? solverStop.orderId = some order)
    (hmem : solverOrder ∈ input.orders) (hid : solverOrder.orderId = solverStop.orderId) :
    planningSolverOrder facts order = .ok solverOrder := by
  obtain ⟨hin, hoid⟩ := h.plannable.order?_eq_some.mp ho
  obtain ⟨fact, hfact, hmake⟩ := exists_of_forall₂_right h.orders hmem
  have hsame : fact = order := by
    refine eq_of_key_eq h.plannable.orderIds hfact hin ?_
    rw [(planningSolverOrder_fields hmake).1, hid, hoid]
  exact hsame ▸ hmake

/-- An accepted stop keeps to the limits in seconds. -/
theorem acceptedTimes (h : Finalizable facts input result roads)
    (hsolver : solverRoute ∈ result.routes) (hstop : solverStop ∈ solverRoute.stops) :
    AcceptedTimes facts solverRoute.vehicleId solverStop := by
  obtain ⟨solverOrder, hmem, hid, -, hcase⟩ := h.routing.stop_cases hsolver hstop
  refine ⟨fun hp order ho ↦ ?_, fun hd order ho ↦ ?_, fun pair hpair ↦ ?_⟩
  · have htimes := planningSolverOrder_times (h.order_eq ho hmem hid)
    rcases hcase with horigin | hdelivery
    · rw [← htimes.1]
      exact horigin.ready
    · rw [hdelivery.kind] at hp
      cases hp
  · have htimes := planningSolverOrder_times (h.order_eq ho hmem hid)
    rcases hcase with horigin | hdelivery
    · exact absurd hd horigin.ne_delivery
    · rw [← htimes.2.1, ← htimes.2.2]
      exact hdelivery.window
  · obtain ⟨hp, hpid⟩ := h.plannable.pair?_eq_some.mp hpair
    obtain ⟨vehicle, hv, hvid, hdrive, -⟩ := h.routing.drivable solverRoute hsolver
    obtain ⟨pair', hp', hmake⟩ := exists_of_forall₂_right h.vehicles hv
    have hsame : pair' = pair := by
      refine eq_of_key_eq h.plannable.vehicleIds hp' hp ?_
      rw [(planningSolverVehicle_fields hmake).1, hvid, hpid]
    obtain ⟨hfrom, huntil⟩ := planningSolverVehicle_times (hsame ▸ hmake)
    obtain ⟨hearly, hlate⟩ := hdrive.available solverStop hstop
    rw [hfrom] at hearly
    refine ⟨hearly, fun assignedUntilAt hsome ↦ ?_⟩
    rw [huntil, hsome, Option.getD_some] at hlate
    exact hlate

end Finalizable

/-- A stop of the plan respects its limits exactly when they survive for its solver stop. -/
theorem respectsLimits_iff {vehicleId : UUID} {solverStop : SolverStop} {stop : RouteStop}
    (haccepted : AcceptedTimes facts vehicleId solverStop)
    (hstop : FinalizedAs facts solverStop stop) :
    RespectsLimits facts vehicleId stop ↔ LimitsSurvive facts vehicleId solverStop := by
  obtain ⟨order, horder, hmade⟩ := hstop
  have hid : stop.orderId = solverStop.orderId := by rw [hmade]; rfl
  have hkind : stop.stopType = solverStop.stopType := by rw [hmade]; rfl
  have harrival : stop.plannedArrivalAt =
      facts.currentTime + timedelta solverStop.arrivalTimeSeconds := by rw [hmade]; rfl
  have hdeparture : stop.plannedDepartureAt =
      facts.currentTime + timedelta solverStop.departureTimeSeconds := by rw [hmade]; rfl
  constructor
  · intro h
    refine ⟨fun hp order ho ↦ ?_, fun hd order ho ↦ ?_, fun pair hpair ↦ ?_⟩
    · have hle := h.pickup (hkind.trans hp) order (hid ▸ ho)
      rw [harrival] at hle
      exact (le_arrival_iff _ _ (haccepted.pickup hp order ho)).mp hle
    · obtain ⟨hopens, hcloses⟩ := h.delivery (hkind.trans hd) order (hid ▸ ho)
      rw [harrival] at hopens hcloses
      obtain ⟨hafter, hbefore⟩ := haccepted.delivery hd order ho
      exact ⟨(le_arrival_iff _ _ hafter).mp hopens, (arrival_le_iff _ _ hbefore).mp hcloses⟩
    · obtain ⟨hstarts, hends⟩ := h.assignment pair hpair
      obtain ⟨hafter, hbefore⟩ := haccepted.assignment pair hpair
      rw [harrival] at hstarts
      refine ⟨(le_arrival_iff _ _ hafter).mp hstarts, fun assignedUntilAt hsome ↦ ?_⟩
      have hle := hends assignedUntilAt hsome
      rw [hdeparture] at hle
      exact (arrival_le_iff _ _ (hbefore assignedUntilAt hsome)).mp hle
  · intro h
    refine ⟨fun hp order ho ↦ ?_, fun hd order ho ↦ ?_, fun pair hpair ↦ ?_⟩
    · rw [hkind] at hp
      rw [hid] at ho
      rw [harrival]
      exact (le_arrival_iff _ _ (haccepted.pickup hp order ho)).mpr (h.pickup hp order ho)
    · rw [hkind] at hd
      rw [hid] at ho
      rw [harrival]
      obtain ⟨hopens, hcloses⟩ := h.delivery hd order ho
      obtain ⟨hafter, hbefore⟩ := haccepted.delivery hd order ho
      exact ⟨(le_arrival_iff _ _ hafter).mpr hopens, (arrival_le_iff _ _ hbefore).mpr hcloses⟩
    · obtain ⟨hstarts, hends⟩ := h.assignment pair hpair
      obtain ⟨hafter, hbefore⟩ := haccepted.assignment pair hpair
      rw [harrival, hdeparture]
      refine ⟨(le_arrival_iff _ _ hafter).mpr hstarts, fun assignedUntilAt hsome ↦ ?_⟩
      exact (arrival_le_iff _ _ (hbefore assignedUntilAt hsome)).mpr (hends assignedUntilAt hsome)

/-- For all facts that can be planned and every result that the validator accepts for them: the
stops of the plan respect the limits of their orders and assignments exactly when these survive the
conversion to seconds and back. -/
theorem finalize_limits_iff {db : Database} {activatedAt : Option Instant} {plan : DeliveryPlan}
    (hfacts : validatePlanningFacts facts = [])
    (hinput : buildSolverInput facts matrix = .ok input)
    (hvalid : SolverResultValidator.validate input result = [])
    (hplan : finalize db facts result activatedAt roads = .ok plan) :
    (∀ route ∈ plan.routes, ∀ stop ∈ route.stops, RespectsLimits facts route.vehicleId stop) ↔
      ∀ solverRoute ∈ result.routes, ∀ solverStop ∈ solverRoute.stops,
        LimitsSurvive facts solverRoute.vehicleId solverStop := by
  have hstatus : result.status = .feasible := by
    obtain ⟨hchecks, -⟩ := unit_bind_eq_ok.mp hplan
    rw [raiseFirst_cons_eq_ok, bne_eq_false_iff_eq] at hchecks
    exact hchecks.1
  obtain ⟨input', h⟩ :=
    Writable.finalizable ⟨hfacts, ⟨matrix, input, hinput, hvalid⟩, hstatus⟩ hplan
  obtain ⟨hroutes, -⟩ := finalize_ok hplan
  have hvehicle : ∀ {solverRoute route}, FinalizedRoute facts roads solverRoute route →
      route.vehicleId = solverRoute.vehicleId := fun hr ↦ h.vehicleId hr
  constructor
  · intro hrespects solverRoute hsolver solverStop hsolverStop
    obtain ⟨route, hroute, hmade⟩ := exists_of_forall₂_left hroutes hsolver
    obtain ⟨stop, hstop, hstopMade⟩ := exists_of_forall₂_left hmade.stops hsolverStop
    rw [← respectsLimits_iff (h.acceptedTimes hsolver hsolverStop) hstopMade, ← hvehicle hmade]
    exact hrespects route hroute stop hstop
  · intro hsurvive route hroute stop hstop
    obtain ⟨solverRoute, hsolver, hmade⟩ := exists_of_forall₂_right hroutes hroute
    obtain ⟨solverStop, hsolverStop, hstopMade⟩ := exists_of_forall₂_right hmade.stops hstop
    rw [hvehicle hmade, respectsLimits_iff (h.acceptedTimes hsolver hsolverStop) hstopMade]
    exact hsurvive solverRoute hsolver solverStop hsolverStop

/-! ### Half a second -/

private def servedPlan (facts : PlanningFacts) : Option DeliveryPlan :=
  (finalize ⟨[], [], [], [], [], [], [], [], 100⟩ facts oneServedResult none none).toOption

/-- Whole seconds survive, so the plan of the served order respects its limits. -/
theorem finalize_limits_oneServed :
    ∃ plan, servedPlan twoOrderFacts = some plan ∧ (plan.routes.flatMap (·.stops)).length = 2 ∧
      ∀ route ∈ plan.routes, ∀ stop ∈ route.stops,
        RespectsLimits twoOrderFacts route.vehicleId stop := by
  have hinput : buildSolverInput twoOrderFacts twoPlaceMatrix = .ok twoOrderInput := by
    rw [twoOrderInput]
    exact eq_ok_get _
  obtain ⟨plan, hplan⟩ : ∃ plan, finalize ⟨[], [], [], [], [], [], [], [], 100⟩ twoOrderFacts
      oneServedResult none none = .ok plan := ⟨_, eq_ok_get (by decide +kernel)⟩
  have hcount : (servedPlan twoOrderFacts).map (fun plan ↦ (plan.routes.flatMap (·.stops)).length) =
      some 2 := by decide +kernel
  have hserved : servedPlan twoOrderFacts = some plan := by
    rw [servedPlan, hplan]
    rfl
  rw [hserved, Option.map_some, Option.some.injEq] at hcount
  refine ⟨plan, hserved, hcount, (finalize_limits_iff (by decide +kernel) hinput (by decide +kernel)
    hplan).mpr ?_⟩
  have horders : ∀ order ∈ twoOrderFacts.orders, Lossless 0 order.pickupReadyAt ∧
      Lossless 0 order.deliveryWindowStartAt ∧ (0 : Int) ≤ order.deliveryWindowEndAt := by
    decide +kernel
  have hpairs : ∀ pair ∈ twoOrderFacts.vehicleDriverPairs, Lossless 0 pair.assignedFromAt ∧
      pair.assignedUntilAt = none := by
    decide +kernel
  have hplannable : Plannable twoOrderFacts := validatePlanningFacts_eq_nil.mp (by decide +kernel)
  intro solverRoute _ solverStop _
  refine ⟨fun _ order ho ↦ ?_, fun _ order ho ↦ ?_, fun pair hpair ↦ ?_⟩
  · exact .inl (horders order (hplannable.order?_eq_some.mp ho).1).1
  · obtain ⟨-, hopens, hcloses⟩ := horders order (hplannable.order?_eq_some.mp ho).1
    exact ⟨.inl hopens, hcloses⟩
  · obtain ⟨hstarts, hends⟩ := hpairs pair (hplannable.pair?_eq_some.mp hpair).1
    exact ⟨.inl hstarts, fun _ hsome ↦ by rw [hends] at hsome; cases hsome⟩

-- The goods are ready half a second after the start of the assignment.
private def halfSecondFacts : PlanningFacts :=
  { twoOrderFacts with
    orders := twoOrderFacts.orders.map fun order ↦ { order with pickupReadyAt := 500000 } }

private def halfSecondInput : SolverInput :=
  (buildSolverInput halfSecondFacts twoPlaceMatrix).toOption.get (by decide +kernel)

/-- The half second is cut off, and the accepted plan picks the goods up before they are ready. -/
theorem pickup_half_second_early :
    validatePlanningFacts halfSecondFacts = [] ∧
      buildSolverInput halfSecondFacts twoPlaceMatrix = .ok halfSecondInput ∧
      SolverResultValidator.validate halfSecondInput oneServedResult = [] ∧
      ∃ plan, finalize ⟨[], [], [], [], [], [], [], [], 100⟩ halfSecondFacts oneServedResult none
          none = .ok plan ∧
        ¬ ∀ route ∈ plan.routes, ∀ stop ∈ route.stops,
          RespectsLimits halfSecondFacts route.vehicleId stop := by
  have hinput : buildSolverInput halfSecondFacts twoPlaceMatrix = .ok halfSecondInput := by
    rw [halfSecondInput]
    exact eq_ok_get _
  have hvalid : SolverResultValidator.validate halfSecondInput oneServedResult = [] := by
    decide +kernel
  have hearly : (servedPlan halfSecondFacts).any fun plan ↦ plan.routes.any fun route ↦
      route.stops.any fun stop ↦ stop.stopType == .pickup &&
        (halfSecondFacts.order? stop.orderId).any fun order ↦
          decide (stop.plannedArrivalAt < order.pickupReadyAt) := by
    decide +kernel
  refine ⟨by decide +kernel, hinput, hvalid, ?_⟩
  obtain ⟨plan, hplan⟩ : ∃ plan, finalize ⟨[], [], [], [], [], [], [], [], 100⟩ halfSecondFacts
      oneServedResult none none = .ok plan := ⟨_, eq_ok_get (by decide +kernel)⟩
  refine ⟨plan, hplan, fun hrespects ↦ ?_⟩
  rw [servedPlan, hplan] at hearly
  simp only [Except.toOption, Option.any_some, List.any_eq_true, Bool.and_eq_true, beq_iff_eq,
    Option.any_eq_true, decide_eq_true_eq] at hearly
  obtain ⟨route, hroute, stop, hstop, hpickup, order, horder, hlt⟩ := hearly
  exact absurd ((hrespects route hroute stop hstop).pickup hpickup order horder)
    (Int.not_le.mpr hlt)

end PenroseRoute.Planning
