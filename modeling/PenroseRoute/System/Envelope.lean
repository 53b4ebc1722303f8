import PenroseRoute.Incidents.DelayShift
import PenroseRoute.Recovery.CandidateEnvelope
import PenroseRoute.System.Roads

/-!
# Planned times over runs

The planned times of every route hold those of its stops in every state of a run, as long as no
propagated delay moves a stop past the planned end of its route, which is not moved, and no
candidate keeps a stop that is planned to be over after the planned end of its changed route.
-/

namespace PenroseRoute.System

open PenroseRoute.Db PenroseRoute.Lib PenroseRoute.Operations PenroseRoute.Recovery
open PenroseRoute.Incidents PenroseRoute.Lifecycle PenroseRoute.Optimization
open PenroseRoute.Planning
open StopExecutionService MerchantDelayWorkflow

/-- Before any execution: every plan is one that `PlanFinalizer` has written for an accepted
result. -/
structure Written (s : SysState) : Prop where
  initial : s.Initial
  written : ∀ plan ∈ s.db.plans, ∃ db facts result roads activatedAt written,
    Writable facts result ∧ finalize db facts result activatedAt roads = .ok written ∧
      plan.routes = written.routes

/-- Every route that a propagated delay reaches can take it by its planned end. -/
def DelayTaken (context : MerchantIncidentContext) (updatedReadyAt : Instant) : Prop :=
  ∀ route ∈ context.plan.routes, context.routeIds.contains route.id = true →
    TakesDelay ((context.orders.filter (·.isDirect)).map (·.order.id)) updatedReadyAt
      (context.cutoff route.id) route

/-- The routes of the plan are gone through. -/
instance (context : MerchantIncidentContext) (updatedReadyAt : Instant) :
    Decidable (DelayTaken context updatedReadyAt) :=
  inferInstanceAs (Decidable (∀ route ∈ context.plan.routes, _ → TakesDelay _ _ _ route))

/-- A delay is propagated only where it can be taken, and every result that is persisted keeps
the stops of changed routes in time. -/
def StaysInTime (s : SysState) : Action → Prop
  | .assessDelay businessDate merchantId updatedReadyAt _ _ =>
    ∀ context ∈ (resolveMerchantIncidentContext s.db businessDate merchantId).toOption,
      openMerchantIncident? s.db context.plan.id merchantId = none →
        Propagates context updatedReadyAt → DelayTaken context updatedReadyAt
  | .continueRun index services _ => ∀ run ∈ s.runs[index]?,
    ∀ option ∈ solutions services run, KeptInTime option.1 option.2
  | _ => True

/-- A report is decided by its context. -/
instance decidableDelay (s : SysState) (businessDate : BusinessDate) (merchantId : UUID)
    (updatedReadyAt eventTime : Instant) (explicitIncident : Bool) : Decidable (StaysInTime s
      (.assessDelay businessDate merchantId updatedReadyAt eventTime explicitIncident)) :=
  inferInstanceAs (Decidable
    (∀ context ∈ (resolveMerchantIncidentContext s.db businessDate merchantId).toOption,
      openMerchantIncident? s.db context.plan.id merchantId = none →
        Propagates context updatedReadyAt → DelayTaken context updatedReadyAt))

/-- The run that goes on is looked up. -/
instance decidableKept (s : SysState) (index : Nat) (services : WorkflowServices)
    (now : Instant) : Decidable (StaysInTime s (.continueRun index services now)) :=
  inferInstanceAs (Decidable (∀ run ∈ s.runs[index]?,
    ∀ option ∈ solutions services run, KeptInTime option.1 option.2))

variable {settings : Settings} {s : SysState} {plan plan' : DeliveryPlan}

/-- The planned times of every route of a plan hold those of its stops. -/
def Enveloped (plan : DeliveryPlan) : Prop := ∀ route ∈ plan.routes, TimeEnvelope route

/-- What the planned times of a route and its stops are. -/
def plannedTimes (route : VehicleRoute) : Instant × Instant × Int × List Instant :=
  (route.plannedStartAt, route.plannedEndAt, route.durationSeconds,
    route.stops.map (·.plannedDepartureAt))

/-! ### What keeps an envelope -/

/-- Plans with the same planned times have envelopes alike. -/
theorem enveloped_of_times (h : Enveloped plan)
    (he : plan'.routes.map plannedTimes = plan.routes.map plannedTimes) : Enveloped plan' := by
  intro route hr
  have hmem : plannedTimes route ∈ plan.routes.map plannedTimes := by
    rw [← he]
    exact List.mem_map_of_mem hr
  obtain ⟨old, hold, hsame⟩ := List.mem_map.mp hmem
  obtain ⟨hstart, hsame⟩ := Prod.mk.inj hsame
  obtain ⟨hend, hsame⟩ := Prod.mk.inj hsame
  obtain ⟨hduration, hdepartures⟩ := Prod.mk.inj hsame
  obtain ⟨hstarted, hlong, hdeparted⟩ := h old hold
  refine ⟨?_, ?_, fun stop hs ↦ ?_⟩
  · rw [← hstart, ← hend]
    exact hstarted
  · rw [← hduration]
    exact hlong
  · have hdeparture : stop.plannedDepartureAt ∈ old.stops.map (·.plannedDepartureAt) := by
      rw [hdepartures]
      exact List.mem_map_of_mem hs
    obtain ⟨stop', hs', hsame'⟩ := List.mem_map.mp hdeparture
    rw [← hend, ← hsame']
    exact hdeparted stop' hs'

/-- A transition keeps the planned times of every plan. -/
theorem times_movedPlan {base : DeliveryPlan} {route : VehicleRoute} {stop : RouteStop}
    {target : StopStatus} {eventTime : Instant} :
    (movedPlan base route stop target eventTime plan).routes.map plannedTimes =
      plan.routes.map plannedTimes :=
  map_routes_movedPlan (f := (·.plannedDepartureAt))
    (g := fun route departures ↦ (route.plannedStartAt, route.plannedEndAt, route.durationSeconds,
      departures)) (fun _ _ _ _ ↦ rfl) (fun _ _ _ _ _ _ ↦ rfl) target

/-- A plan whose delay can be taken keeps its envelope, and no other one does. -/
theorem enveloped_shiftPlan_iff {context : MerchantIncidentContext} {updatedReadyAt : Instant}
    (h : Enveloped context.plan) :
    Enveloped (shiftPlan context updatedReadyAt context.plan) ↔
      DelayTaken context updatedReadyAt := by
  constructor
  · intro hall route hr hreached
    refine (shiftStops_departed_iff (h route hr).departed).mp ?_
    have hmem := List.mem_map_of_mem hr (f := fun route : VehicleRoute ↦
      if context.routeIds.contains route.id then
        { route with
          stops := shiftStops ((context.orders.filter (·.isDirect)).map (·.order.id))
            updatedReadyAt (context.cutoff route.id) 0 route.stops }
      else route)
    rw [if_pos hreached] at hmem
    exact (hall _ hmem).departed
  · intro htaken route hr
    obtain ⟨old, hold, rfl⟩ := List.mem_map.mp hr
    obtain ⟨hstarted, hduration, hdeparted⟩ := h old hold
    split
    · next hreached =>
      exact ⟨hstarted, hduration,
        (shiftStops_departed_iff hdeparted).mpr (htaken old hold hreached)⟩
    · exact ⟨hstarted, hduration, hdeparted⟩

/-- A context has the routes of its base plan, with the stops in sequence. -/
theorem departed_of_read {db : Database} {incident : Incident} {scope : ReplanningScope}
    {operationalTime : Instant} {context : RecoveryContext}
    (hread : ReadFrom db incident plan scope operationalTime context) (h : Enveloped plan) :
    ∀ route ∈ context.routes, ∀ stop ∈ route.stops,
      stop.plannedDepartureAt ≤ route.plannedEndAt := by
  intro route hr stop hs
  rw [hread.routes] at hr
  obtain ⟨old, hold, rfl⟩ := List.mem_map.mp hr
  rw [List.mem_insertionSort] at hold
  rw [routeSnapshot] at hs ⊢
  exact (h old hold).departed stop ((List.mem_insertionSort _).mp hs)

/-- What the database has checked of a route and the departures of its stops are an envelope. -/
theorem envelope_of_checks {route : VehicleRoute} (h : route.checks = true)
    (hdeparted : ∀ stop ∈ route.stops, stop.plannedDepartureAt ≤ route.plannedEndAt) :
    TimeEnvelope route := by
  simp only [VehicleRoute.checks, Bool.and_eq_true, decide_eq_true_eq] at h
  obtain ⟨⟨⟨⟨⟨⟨-, hstarted⟩, hduration⟩, -⟩, -⟩, -⟩, -⟩ := h
  exact ⟨hstarted, hduration, hdeparted⟩

/-! ### Runs -/

/-- A written plan has an envelope. -/
theorem Written.enveloped (h : Written s) : ∀ plan ∈ s.db.plans, Enveloped plan := by
  intro plan hp route hr
  obtain ⟨db, facts, result, roads, activatedAt, written, hwritable, hfinal, hroutes⟩ :=
    h.written plan hp
  obtain ⟨input, hfinalizable⟩ := hwritable.finalizable hfinal
  rw [hroutes] at hr
  obtain ⟨solver, hsolver, hmade⟩ := exists_of_forall₂_right (finalize_ok hfinal).1 hr
  exact (hfinalizable.envelope hsolver hmade).1

/-- Every transaction that stays in time leaves envelopes. -/
theorem enveloped_apply {action : Action} (hids : (s.db.plans.map (·.id)).Nodup)
    (h : ∀ plan ∈ s.db.plans, Enveloped plan) (htime : StaysInTime s action) :
    ∀ plan ∈ (s.apply settings action).db.plans, Enveloped plan := by
  intro plan hp
  cases apply_source settings s action hp with
  | kept hold hroutes =>
    rw [Enveloped, hroutes]
    exact h _ hold
  | moved hold hc => exact enveloped_of_times (h _ hold) times_movedPlan
  | @shifted _ _ _ _ _ context old hold hresolved hpropagates hunreported hid =>
    have hcurrent := (currentPlan?_mem (resolveMerchantIncidentContext_ok hresolved)).1
    obtain rfl : old = context.plan := eq_of_key_eq hids hold hcurrent hid
    refine (enveloped_shiftPlan_iff (h _ hold)).mpr (htime context ?_ hunreported hpropagates)
    rw [hresolved]
    rfl
  | persisted hrun hpersisted =>
    obtain ⟨context, result, roads, hp⟩ := hpersisted
    obtain ⟨incident, base, -, hb, hread⟩ := materializeRecoveryContext_ok hp.read
    obtain ⟨nextId, hroutes⟩ := hp.persisted
    obtain ⟨matrix, input, -, haccepted⟩ := hp.accepted
    have hbase := departed_of_read hread (h base (plan?_mem hb).1)
    have hdeparted := (persistCandidateRoutes_departed_iff hbase
      (routesDriven_of_validate haccepted.valid) hroutes).mpr
        (htime _ hrun (context, result) hp.solution)
    exact fun route hr ↦ envelope_of_checks (hp.checks route hr) (hdeparted route hr)

/-- In every state of a run from written plans in which delays are propagated only where they can
be taken and changed routes keep their stops in time: no route of any plan starts after its
planned end or has a negative duration, and none of its stops is over after its planned end. -/
theorem planned_times_enveloped (h : Reachable (SysState.apply settings) Written StaysInTime s) :
    ∀ plan ∈ s.db.plans, ∀ route ∈ plan.routes, TimeEnvelope route := by
  have hall : LifecycleOk s ∧ ∀ plan ∈ s.db.plans, Enveloped plan := by
    refine Reachable.invariant
      (I := fun s ↦ LifecycleOk s ∧ ∀ plan ∈ s.db.plans, Enveloped plan)
      (fun s hs ↦ ⟨.initial hs.initial, hs.enveloped⟩) (fun s action hs ha ↦ ?_) h
    exact ⟨hs.1.apply settings action, enveloped_apply hs.1.sound.planIds hs.2 ha⟩
  exact hall.2

/-! ### A delay that can be taken, and one that cannot -/

/-- The order is picked up a minute after its goods are ready. -/
def laterServedResult : SolverResult where
  status := .feasible
  routes := [{
    vehicleId := 20
    stops := [servedStop 10 1 .pickup 0 60 30 4,
      servedStop 10 2 .delivery 1 150 30 (-4)]
    distanceMeters := 100
    durationSeconds := 180 }]
  unassignedOrders := [⟨11, .capacityInfeasible, none⟩]
  totalDistanceMeters := 100
  totalDurationSeconds := 180
  diagnostic := none

/-- The plan that is written for it. -/
def laterServedPlan : DeliveryPlan :=
  (finalize ⟨[], [], [], [], [], [], [], [], 100⟩ twoOrderFacts laterServedResult (some 0)
    none).toOption.get (by decide +kernel)

/-- That plan is CURRENT. -/
def laterServedStart : SysState :=
  { roadStart with db := { roadStart.db with plans := [laterServedPlan] } }

/-- The pickup at a time and the breakdown of the vehicle behind it. -/
def pickUpAndBreakDown (arrival departure : Instant) : List Action :=
  [.arrive 103 arrival, .startService 103 arrival, .complete 103 departure,
    .reportUnavailable 738000 20 departure .recorded]

/-- The goods are ready half a minute later. -/
def shortDelay : Action := .assessDelay 738000 1 30000000 0 true

/-- The goods are ready two minutes later. -/
def longDelay : Action := .assessDelay 738000 1 120000000 0 true

/-- A transaction of the first recovery, in which vehicle 21 is used a minute later. -/
def recoverBy (now : Instant) : Action := .continueRun 0 (straightServices 21 60 200) now

/-- The state in which the recovery has started after the short delay. -/
def delayedBreakdown : SysState :=
  (shortDelay :: pickUpAndBreakDown 60000000 90000000 ++ [Action.startRecovery 201 100000000]).foldl
    (SysState.apply scenarioSettings) laterServedStart

/-- The recovery has a candidate. -/
def delayedCandidate : SysState :=
  [recoverBy 100000000, recoverBy 100000000, recoverBy 100000000].foldl
    (SysState.apply scenarioSettings) delayedBreakdown

/-- The state after the long delay. -/
def longDelayed : SysState := [longDelay].foldl (SysState.apply scenarioSettings) laterServedStart

/-- The pickup is a minute early, and the vehicle breaks down at once. -/
def earlyCandidate : SysState :=
  (pickUpAndBreakDown 0 30000000 ++ [Action.startRecovery 200 40000000, recoverBy 40000000,
    recoverBy 40000000, recoverBy 40000000]).foldl (SysState.apply scenarioSettings)
      laterServedStart

/-- The later scenario begins as written. -/
theorem laterServedStart_written : Written laterServedStart where
  initial := ⟨rfl, rfl, rfl, rfl, rfl, rfl, rfl, by decide, by decide +kernel, by decide +kernel⟩
  written plan hp := by
    rw [List.mem_singleton.mp hp]
    refine ⟨⟨[], [], [], [], [], [], [], [], 100⟩, twoOrderFacts, laterServedResult, none, some 0,
      laterServedPlan, ⟨by decide +kernel, ⟨twoPlaceMatrix, twoOrderInput, ?_, ?_⟩, rfl⟩, ?_, rfl⟩
    · rw [twoOrderInput]
      exact eq_ok_get _
    · decide +kernel
    · rw [laterServedPlan]
      exact eq_ok_get _

/-- The delayed candidate is reached in time. -/
theorem delayedCandidate_reachable :
    Reachable (SysState.apply scenarioSettings) Written StaysInTime delayedCandidate := by
  have hdelayed : Reachable (SysState.apply scenarioSettings) Written StaysInTime
      (laterServedStart.apply scenarioSettings shortDelay) := by
    refine .step _ (.init laterServedStart_written) ?_
    rw [shortDelay]
    decide +kernel
  have hbroken : Reachable (SysState.apply scenarioSettings) Written StaysInTime
      delayedBreakdown := by
    rw [delayedBreakdown, List.cons_append, List.foldl_cons]
    refine Reachable.run hdelayed
      (pickUpAndBreakDown 60000000 90000000 ++ [Action.startRecovery 201 100000000])
      fun s action ha ↦ ?_
    simp only [pickUpAndBreakDown, List.cons_append, List.nil_append, List.mem_cons,
      List.not_mem_nil, or_false] at ha
    rcases ha with rfl | rfl | rfl | rfl | rfl <;> trivial
  rw [delayedCandidate, List.foldl_cons, List.foldl_cons, List.foldl_cons, List.foldl_nil]
  refine .step _ (.step _ (.step _ hbroken ?_) ?_) ?_
  all_goals
    rw [recoverBy]
    decide +kernel

/-- The short delay moves nothing, and the candidate has the completed pickup and the handover. -/
theorem delayed_candidate_enveloped :
    (∀ plan ∈ delayedCandidate.db.plans, ∀ route ∈ plan.routes, TimeEnvelope route) ∧
      (delayedCandidate.db.plans.flatMap (·.routes)).map (fun route ↦
        (route.vehicleId, route.plannedEndAt, route.stops.map (·.plannedDepartureAt))) =
          [(20, 180000000, [90000000, 180000000]), (20, 100000000, [90000000]),
            (21, 280000000, [190000000, 280000000])] :=
  ⟨planned_times_enveloped delayedCandidate_reachable, by decide +kernel⟩

/-- A long delay moves the delivery of the CURRENT plan past the planned end of its route, and
without any delay a candidate keeps the early pickup of a route that ends before it. -/
theorem planned_times_not_enveloped :
    (Reachable (SysState.apply scenarioSettings) Written (fun _ _ ↦ True) longDelayed ∧
      ∃ plan ∈ longDelayed.db.plans, plan.status = .current ∧ ∃ route ∈ plan.routes,
        ¬ TimeEnvelope route) ∧
    Reachable (SysState.apply scenarioSettings) Written (fun _ _ ↦ True) earlyCandidate ∧
      ∃ plan ∈ earlyCandidate.db.plans, plan.status = .candidate ∧ ∃ route ∈ plan.routes,
        ¬ TimeEnvelope route := by
  have hlate : ∀ {route : VehicleRoute}, (∃ stop ∈ route.stops,
      route.plannedEndAt < stop.plannedDepartureAt) → ¬ TimeEnvelope route := by
    rintro route ⟨stop, hs, hlt⟩ h
    exact absurd (h.departed stop hs) (not_le.mpr hlt)
  refine ⟨⟨.run (.init laterServedStart_written) _ fun _ _ _ ↦ trivial, ?_⟩,
    .run (.init laterServedStart_written) _ fun _ _ _ ↦ trivial, ?_⟩
  · have hfound : ∃ plan ∈ longDelayed.db.plans, plan.status = .current ∧ ∃ route ∈ plan.routes,
        ∃ stop ∈ route.stops, route.plannedEndAt < stop.plannedDepartureAt := by decide +kernel
    obtain ⟨plan, hp, hstatus, route, hr, hstop⟩ := hfound
    exact ⟨plan, hp, hstatus, route, hr, hlate hstop⟩
  · have hfound : ∃ plan ∈ earlyCandidate.db.plans, plan.status = .candidate ∧
        ∃ route ∈ plan.routes, ∃ stop ∈ route.stops,
          route.plannedEndAt < stop.plannedDepartureAt := by decide +kernel
    obtain ⟨plan, hp, hstatus, route, hr, hstop⟩ := hfound
    exact ⟨plan, hp, hstatus, route, hr, hlate hstop⟩

end PenroseRoute.System
