import PenroseRoute.Recovery.Inheritance

/-!
# Plans under way

How a CURRENT plan gets to where it is: it was generated with all stops PLANNED, or it is an
approved candidate of a plan that was under way itself, and since then the stop machine has been
called. In all these states the stops of every route are worked off in order, orders have only
moved forwards, and a route on which a stop was completed is settled. A repeated call refreshes the
alerts again and leaves everything else.
-/

namespace PenroseRoute.Recovery

open PenroseRoute.Db PenroseRoute.Lib PenroseRoute.Operations PenroseRoute.Optimization

/-- The CURRENT plans with their databases, from generation over calls and approvals. Nothing is
asked of a result: the candidate of any solver result goes on where its base plan was. -/
inductive Underway (thresholdSeconds : Int) : Database → UUID → Prop
  /-- A generated plan. -/
  | generated {db : Database} {plan : DeliveryPlan} (planIds : (db.plans.map (·.id)).Nodup)
      (mem : plan ∈ db.plans) (current : plan.status = .current) (untouched : plan.Untouched) :
      Underway thresholdSeconds db plan.id
  /-- A call of the stop machine, refused or not. -/
  | call {s : AlertService.State} {planId : UUID} (h : Underway thresholdSeconds s.db planId)
      (call : Call) : Underway thresholdSeconds (call.perform thresholdSeconds s).db planId
  /-- Anything else that leaves the work of the plan and moves no order back. -/
  | meanwhile {db db' : Database} {plan plan' : DeliveryPlan}
      (h : Underway thresholdSeconds db plan.id) (mem : plan ∈ db.plans)
      (planIds : (db'.plans.map (·.id)).Nodup) (mem' : plan' ∈ db'.plans)
      (id : plan'.id = plan.id) (current : plan'.status = .current)
      (work : plan'.work = plan.work) (forward : OrdersForward db db') :
      Underway thresholdSeconds db' plan.id
  /-- The approval of a candidate: its context was read when the base plan was under way. -/
  | approved {db db₀ db₁ db' : Database} {incidentId : UUID} {scope : ReplanningScope}
      {operationalTime : Instant} {context : RecoveryContext} {result : SolverResult}
      {roads : RoadRoutes} {candidate : DeliveryPlan}
      (h : Underway thresholdSeconds db context.basePlanId)
      (read : materializeRecoveryContext db incidentId scope operationalTime = .ok context)
      (created : createCandidate db₀ context result roads = .ok (db₁, candidate))
      (planIds : (db'.plans.map (·.id)).Nodup)
      (mem : { candidate with status := .current } ∈ db'.plans)
      (forward : OrdersForward db db') : Underway thresholdSeconds db' candidate.id

variable {thresholdSeconds : Int} {db : Database} {s : AlertService.State} {planId : UUID}

/-- A plan under way is executed in order. -/
theorem Underway.executed (h : Underway thresholdSeconds db planId) :
    (db.plans.map (·.id)).Nodup ∧ ∃ plan ∈ db.plans, plan.id = planId ∧
      plan.status = .current ∧ plan.Executed db := by
  induction h with
  | generated planIds mem current untouched =>
    exact ⟨planIds, _, mem, rfl, current, executed_of_untouched untouched _⟩
  | call _ call ih =>
    obtain ⟨hids, plan, hp, hid, hcurrent, he⟩ := ih
    obtain ⟨plan', hserved⟩ := perform_served hids hp he thresholdSeconds call
    exact ⟨hserved.planIds, plan', hserved.mem, hserved.served.id.trans hid,
      hserved.served.status.trans hcurrent, hserved.executed⟩
  | meanwhile _ mem planIds mem' id current work forward ih =>
    obtain ⟨hids, own, hown, hid, -, he⟩ := ih
    have hsame := eq_of_key_eq hids hown mem hid
    subst hsame
    exact ⟨planIds, _, mem', id, current, executed_of_work he work forward⟩
  | @approved db db₀ db₁ db' _ _ _ context _ _ candidate _ read created planIds mem forward ih =>
    obtain ⟨hids, own, hown, hid, -, he⟩ := ih
    obtain ⟨incident, base, -, hb, hr⟩ := materializeRecoveryContext_ok read
    have hsame := eq_of_key_eq hids hown (List.mem_of_find?_eq_some hb)
      (hid.trans hr.basePlanId)
    subst hsame
    have hcandidate := (createCandidate_ok created).1.executed hr he forward
    exact ⟨planIds, _, mem, rfl, rfl, hcandidate.routeIds, hcandidate.routes,
      hcandidate.delivered⟩

/-- What a sequence of calls leaves of a plan of a database. -/
structure StopRun (thresholdSeconds : Int) (s s' : AlertService.State)
    (plan plan' : DeliveryPlan) : Prop where
  id : plan'.id = plan.id
  current : plan'.status = .current
  workedOff : ∀ route ∈ plan'.routes, WorkedOff route.stops
  forward : OrdersForward s.db s'.db
  delivered : ∀ route ∈ plan'.routes, ∀ stop ∈ route.stops, stop.stopType = .delivery →
    stop.status = .completed → Delivered s'.db stop.orderId
  settled : ∀ route ∈ plan.routes, ∀ route' ∈ plan'.routes, route'.id = route.id →
    CompletedSince route route' → Settled route'
  /-- A repeated action changes risk flags and alerts only, as the refresh at its end does. -/
  reached : ∀ (call : Call) (own : DeliveryPlan) (route : VehicleRoute) (stop : RouteStop),
    s'.db.lockedStop? call.stopId = some (own, route, stop) → stop.status = call.action.target →
      AlertService.SameFacts s'.db (call.perform thresholdSeconds s').db ∧
        (call.perform thresholdSeconds s' = s' ∨
          call.perform thresholdSeconds s' = call.refresh thresholdSeconds s' own.businessDate)
  /-- Repeated at once and refreshed at no later time it changes nothing. -/
  replayed : AlertService.Sound s.tables → ∀ call again : Call,
    call.Evaluated thresholdSeconds s' → again.stopId = call.stopId →
      again.action = call.action → again.refreshedAt ≤ call.refreshedAt →
        again.perform thresholdSeconds (call.perform thresholdSeconds s') =
          call.perform thresholdSeconds s'
  refused : ∀ (call : Call) (error : AppError), call.run thresholdSeconds s' = .error error →
    call.perform thresholdSeconds s' = s'

/-- The stop machine over any sequence of calls, for every plan under way. -/
theorem stop_machine (h : Underway thresholdSeconds s.db planId) {plan : DeliveryPlan}
    (hp : plan ∈ s.db.plans) (hid : plan.id = planId) (calls : List Call) :
    ∃ plan' ∈ (calls.foldl (Call.perform thresholdSeconds) s).db.plans,
      StopRun thresholdSeconds s (calls.foldl (Call.perform thresholdSeconds) s) plan plan' := by
  obtain ⟨hids, own, hown, hownId, hcurrent, he⟩ := h.executed
  have hsame := eq_of_key_eq hids hown hp (hownId.trans hid.symm)
  subst hsame
  obtain ⟨plan', hserved⟩ := performs_served hids hp he thresholdSeconds calls
  refine ⟨plan', hserved.mem, hserved.served.id, hserved.served.status.trans hcurrent, ?_,
    hserved.forward, hserved.executed.delivered, ?_, ?_, ?_, ?_⟩
  · exact fun route hr ↦ executed_workedOff (hserved.executed.routes route hr)
  · exact fun route hr route' hr' hid hc ↦ hserved.served.settled he hr hr' hid hc
  · intro call own route stop hl hs
    have hrepeat := @Call.perform_of_reached thresholdSeconds _ call _ _ _ hl hs
    refine ⟨?_, hrepeat⟩
    rcases hrepeat with hkept | hrefreshed
    · rw [hkept]
      exact .refl _
    · rw [hrefreshed]
      exact refresh_sameFacts _ _ _ _
  · exact fun hsound call again hev hstop haction hle ↦
      Call.perform_again (performs_sound hsound thresholdSeconds calls) hev hstop haction hle
  · exact fun call error herror ↦ Call.perform_of_error herror

/-! ### The candidate of a late order -/

/-- The database after the approval of the candidate for the delayed order. -/
def approvedDatabase : Database :=
  { wholeSecondCandidate.1 with
    plans := wholeSecondCandidate.1.plans.map fun plan ↦
      { plan with status := if plan.id = 40 then .superseded else .current }
    nextId := 200 }

/-- The same with alert tables in which nothing has been raised yet. -/
def approvedState : AlertService.State := ⟨approvedDatabase, ⟨[], [], 0, 0⟩⟩

/-- Vehicle 20 picks the delayed order up and delivers it; the first call comes too early, and
the last one repeats what was done. -/
def deliveryCalls : List Call :=
  [⟨.complete, 106, 900000000, 900000000⟩, ⟨.arrive, 106, 900000000, 900000000⟩,
    ⟨.startService, 106, 910000000, 910000000⟩, ⟨.complete, 106, 960000000, 960000000⟩,
    ⟨.arrive, 107, 1020000000, 1020000000⟩, ⟨.startService, 107, 1020000000, 1020000000⟩,
    ⟨.complete, 107, 1080000000, 1080000000⟩, ⟨.complete, 107, 1090000000, 1090000000⟩]

/-- The approved candidate is under way. -/
theorem approvedState_underway : Underway 600 approvedState.db wholeSecondCandidate.2.id := by
  have hread : materializeRecoveryContext (delayedDatabase 900000000) 100 .affectedRoute
      120000000 = .ok wholeSecondContext := rfl
  have hcreated : createCandidate (delayedDatabase 900000000) wholeSecondContext
      (delayResult 31 20 2) none = .ok (wholeSecondCandidate.1, wholeSecondCandidate.2) := rfl
  have hbase : Underway 600 (delayedDatabase 900000000) 40 :=
    @Underway.generated 600 _ ((delayedDatabase 900000000).plans.head (by decide +kernel))
      (by decide +kernel) (List.head_mem _) rfl ⟨by decide +kernel, by decide +kernel,
        by decide +kernel, by decide +kernel⟩
  have hforward : OrdersForward (delayedDatabase 900000000) approvedDatabase := by
    have horders : approvedDatabase.orders = (delayedDatabase 900000000).orders := rfl
    intro id order ho
    rw [Database.order?, horders]
    exact ⟨order, ho, Nat.le_refl _⟩
  have hmem : { wholeSecondCandidate.2 with status := .current } ∈ approvedDatabase.plans := by
    decide +kernel
  exact .approved hbase hread hcreated (by decide +kernel) hmem hforward

/-- The calls leave the route of the candidate COMPLETED. -/
theorem deliveryCalls_stop_machine :
    (∃ plan' ∈ (deliveryCalls.foldl (Call.perform 600) approvedState).db.plans,
      StopRun 600 approvedState (deliveryCalls.foldl (Call.perform 600) approvedState)
        { wholeSecondCandidate.2 with status := .current } plan') ∧
    (deliveryCalls.foldl (Call.perform 600) approvedState).db.plans.map (fun plan ↦
      plan.routes.map fun route ↦ (route.status, route.stops.map (·.status))) =
        [[(.planned, [.planned, .planned]), (.planned, [.planned, .planned])],
          [(.planned, [.planned, .planned]), (.completed, [.completed, .completed])]] := by
  have hmem : { wholeSecondCandidate.2 with status := .current } ∈ approvedState.db.plans := by
    decide +kernel
  exact ⟨stop_machine approvedState_underway hmem rfl deliveryCalls, by decide +kernel⟩

/-- Vehicle 20 arrives at the pickup in time. -/
def arrivedState : AlertService.State :=
  Call.perform 600 approvedState ⟨.arrive, 106, 900000000, 900000000⟩

/-- The arrival is reported once more, two hours later. -/
def lateRepeat : Call := ⟨.arrive, 106, 8100000000, 8100000000⟩

/-- The repeated arrival changes nothing of the plan, but it raises alerts. -/
theorem repeated_arrival_raises_alert :
    Underway 600 arrivedState.db wholeSecondCandidate.2.id ∧
      ¬ ∀ (call : Call) (own : DeliveryPlan) (route : VehicleRoute) (stop : RouteStop),
        arrivedState.db.lockedStop? call.stopId = some (own, route, stop) →
          stop.status = call.action.target → call.perform 600 arrivedState = arrivedState := by
  refine ⟨.call approvedState_underway _, fun hall ↦ ?_⟩
  have hsome : (arrivedState.db.lockedStop? 106).isSome := by decide +kernel
  obtain ⟨⟨own, route, stop⟩, hl⟩ := Option.isSome_iff_exists.mp hsome
  have hreached : (arrivedState.db.lockedStop? 106).all (·.2.2.status == .arrived) = true := by
    decide +kernel
  rw [hl, Option.all_some, beq_iff_eq] at hreached
  have hsame := congrArg (·.tables.alerts.length) (hall lateRepeat own route stop hl hreached)
  exact absurd hsame (by decide +kernel)

end PenroseRoute.Recovery
