import PenroseRoute.Recovery.FrozenWork
import PenroseRoute.Recovery.SolverContract
import PenroseRoute.System.StopRules

/-!
# Completed work over runs

What a recovery leaves alone in every state of a run: the COMPLETED stops of its base plan
always, the COMPLETED orders unless the incident lists them as affected. Such orders are
targets without a look at what has become of them since the report.
-/

namespace PenroseRoute.System

open PenroseRoute.Db PenroseRoute.Lib PenroseRoute.Operations PenroseRoute.Recovery
open PenroseRoute.Incidents PenroseRoute.Lifecycle PenroseRoute.Optimization

/-- A COMPLETED order of the database. -/
def IsCompleted (db : Database) (orderId : UUID) : Prop :=
  ∃ order, db.order? orderId = some order ∧ order.executionStatus = .completed

/-- No COMPLETED order is a target or gets a new stop, and every candidate has each COMPLETED
stop of the base plan exactly once, on the same vehicle and behind the same predecessor. -/
structure CompletedFrozen (db : Database) (context : RecoveryContext) : Prop where
  notTarget : ∀ orderId, IsCompleted db orderId → orderId ∉ context.targetOrderIds
  noNewStop : ∀ matrix input result, buildRecoverySolverInput context matrix = .ok input →
    Accepted input result → ∀ db₁ roads db₂ candidate,
      createCandidate db₁ context result roads = .ok (db₂, candidate) →
        ∀ route ∈ candidate.routes, ∀ stop ∈ route.newStops, ¬ IsCompleted db stop.orderId
  kept : ∀ matrix input result, buildRecoverySolverInput context matrix = .ok input →
    Accepted input result → ∀ db₁ roads db₂ candidate,
      createCandidate db₁ context result roads = .ok (db₂, candidate) →
        ∀ base, db.plan? context.basePlanId = some base → ∀ route ∈ base.routes,
          ∀ stop ∈ route.stops, stop.status = .completed → KeptOnce candidate route stop

/-- No order that the incident lists for replanning has been completed since. -/
def AffectedOpen (db : Database) (incidentId : UUID) : Prop :=
  ∀ incident, db.incident? incidentId = some incident → ∀ item ∈ affectedOrders incident,
    ¬ IsCompleted db item.orderId

variable {settings : Settings} {s : SysState} {db : Database} {incident : Incident}
  {base : DeliveryPlan} {scope : ReplanningScope} {operationalTime : Instant}
  {context : RecoveryContext}

/-- A target is an affected order or one that is still open. -/
theorem mem_targetIds {orderId : UUID} (h : orderId ∈ targetIds db incident base scope) :
    orderId ∈ (affectedOrders incident).map (·.orderId) ∨
      (db.order? orderId).any (·.executionStatus != .completed) = true := by
  rw [targetIds, List.mem_insertionSort, List.mem_dedup, List.mem_append] at h
  refine h.imp_right fun hm ↦ ?_
  obtain ⟨membership, hmem, rfl⟩ := List.mem_map.mp hm
  have hopen := (List.mem_filter.mp hmem).2
  rw [Bool.and_eq_true, stillOpen] at hopen
  exact hopen.2

/-- Every affected order is a target. -/
theorem targetIds_of_affected {item : IncidentAffectedOrder} (h : item ∈ affectedOrders incident) :
    item.orderId ∈ targetIds db incident base scope := by
  rw [targetIds, List.mem_insertionSort, List.mem_dedup, List.mem_append]
  exact .inl (List.mem_map_of_mem h)

/-- For every state of a run from a draft and every context read from it: completed work is
frozen exactly when no order that the incident lists for replanning has been completed. -/
theorem completedFrozen_iff (h : DraftedRun settings s) {incidentId : UUID}
    (hread : materializeRecoveryContext s.db incidentId scope operationalTime = .ok context) :
    CompletedFrozen s.db context ↔ AffectedOpen s.db incidentId := by
  obtain ⟨incident, base, hi, hb, hr⟩ := materializeRecoveryContext_ok hread
  have hbase := h.ok.2 base (plan?_mem hb).1
  constructor
  · intro hfrozen other hother item hitem hdone
    rw [hi, Option.some.injEq] at hother
    subst hother
    refine hfrozen.notTarget item.orderId hdone ?_
    rw [hr.targetOrderIds_eq]
    exact targetIds_of_affected hitem
  · intro hopen
    have htarget : ∀ orderId, IsCompleted s.db orderId → orderId ∉ context.targetOrderIds := by
      rintro orderId ⟨order, ho, hdone⟩ hm
      rw [hr.targetOrderIds_eq] at hm
      rcases mem_targetIds hm with haffected | hstill
      · obtain ⟨item, hitem, rfl⟩ := List.mem_map.mp haffected
        exact hopen incident hi item hitem ⟨order, ho, hdone⟩
      · rw [ho, Option.any_some, hdone] at hstill
        cases hstill
    refine ⟨htarget, ?_, ?_⟩
    · intro matrix input result hinput hacc db₁ roads db₂ candidate hc route hroute stop hs hdone
      obtain ⟨-, -, -, solverStop, -, fact, hfact, hnew⟩ :=
        (createCandidate_ok hc).1.solver_of_newStop
        hacc.routing.vehicles hroute hs
      obtain ⟨hmem, hid⟩ := targetOrder?_mem hfact
      have horder : stop.orderId = solverStop.orderId := congrArg (·.orderId) hnew
      refine htarget stop.orderId hdone (List.mem_map.mpr ⟨fact, hmem, ?_⟩)
      rw [horder, hid]
    · intro matrix input result hinput hacc db₁ roads db₂ candidate hc plan hplan route hroute stop
        hs hdone
      have hid : base.id = context.basePlanId := hr.basePlanId.symm
      have hsame : plan = base := by
        have hplanId : base.id = incident.deliveryPlanId := eq_of_beq (List.find?_some hb :)
        rw [← hid, hplanId, hb, Option.some.injEq] at hplan
        exact hplan.symm
      subst hsame
      refine (createCandidate_ok hc).1.keptOnce hr hbase.executed.routes hbase.linked
        hacc.routing.vehicles hroute (mem_preservedStops.mpr ⟨hs, fun _ ↦ hdone⟩)

/-! ### An order that is completed after the report -/

/-- Vehicle 10 delivers order 32, which is not affected by the delay of merchant 7. -/
def deliverOther : List Action :=
  [.arrive 51 60000000, .startService 51 60000000, .complete 51 90000000,
    .arrive 52 100000000, .startService 52 100000000, .complete 52 110000000]

/-- The state after that delivery. -/
def otherState : SysState := deliverOther.foldl (SysState.apply scenarioSettings) reportedState

/-- The context of the delay, with all orders in its scope. -/
def otherContext : RecoveryContext :=
  (materializeRecoveryContext otherState.db 100 .allRemaining 120000000).toOption.get
    (by decide +kernel)

/-- The delivered order 32 and its stops are left alone. -/
theorem other_order_frozen :
    CompletedFrozen otherState.db otherContext ∧ IsCompleted otherState.db 32 ∧
      otherContext.targetOrderIds = [31, 33] := by
  have hread : materializeRecoveryContext otherState.db 100 .allRemaining 120000000 =
      .ok otherContext := by
    rw [otherContext]
    exact eq_ok_get _
  have hrun : DraftedRun scenarioSettings otherState :=
    Reachable.run reportedState_run deliverOther fun _ _ _ ↦ trivial
  have hopen : (otherState.db.incident? 100).all (fun incident ↦
      (affectedOrders incident).all fun item ↦
        !(otherState.db.order? item.orderId).any (·.executionStatus == .completed)) = true := by
    decide +kernel
  have hdone : (otherState.db.order? 32).any (·.executionStatus == .completed) = true := by
    decide +kernel
  refine ⟨(completedFrozen_iff hrun hread).mpr ?_, ?_, by decide +kernel⟩
  · rintro incident hi item hitem ⟨order, ho, hs⟩
    rw [hi, Option.all_some, List.all_eq_true] at hopen
    have hitem' := hopen item hitem
    rw [ho, Option.any_some, hs] at hitem'
    cases hitem'
  · obtain ⟨order, ho, hs⟩ := (Option.any_eq_true _ _).mp hdone
    exact ⟨order, ho, eq_of_beq hs⟩

/-- Order 31 goes through its whole execution after the report. -/
def finishFirst : List Action :=
  [.advanceExecution 31 .pickupInProgress, .advanceExecution 31 .pickedUp,
    .advanceExecution 31 .delivering, .advanceExecution 31 .completed]

/-- The state after that. -/
def finishedState : SysState := finishFirst.foldl (SysState.apply scenarioSettings) reportedState

/-- The context of the delay. -/
def finishedContext : RecoveryContext :=
  (materializeRecoveryContext finishedState.db 100 .affectedRoute 120000000).toOption.get
    (by decide +kernel)

/-- The solver input of that context. -/
def finishedInput : SolverInput :=
  (buildRecoverySolverInput finishedContext (uniformMatrix finishedContext.locations)).toOption.get
    (by decide +kernel)

/-- The database and the candidate that `_create_candidate` makes of it. -/
def finishedCandidate : Database × DeliveryPlan :=
  (createCandidate finishedState.db finishedContext laterOrderResult none).toOption.get
    (by decide +kernel)

/-- The COMPLETED order 31 is a target and is planned again from its pickup. -/
theorem completed_order_replanned :
    DraftedRun scenarioSettings finishedState ∧
      materializeRecoveryContext finishedState.db 100 .affectedRoute 120000000 =
        .ok finishedContext ∧
      buildRecoverySolverInput finishedContext (uniformMatrix finishedContext.locations) =
        .ok finishedInput ∧
      Accepted finishedInput laterOrderResult ∧
      createCandidate finishedState.db finishedContext laterOrderResult none =
        .ok finishedCandidate ∧
      IsCompleted finishedState.db 31 ∧ 31 ∈ finishedContext.targetOrderIds ∧
      (∃ route ∈ finishedCandidate.2.routes, ∃ stop ∈ route.newStops, stop.orderId = 31 ∧
        stop.stopType = .pickup) ∧
      ¬ CompletedFrozen finishedState.db finishedContext := by
  have hdone : (finishedState.db.order? 31).any (·.executionStatus == .completed) = true := by
    decide +kernel
  have hcompleted : IsCompleted finishedState.db 31 := by
    obtain ⟨order, ho, hs⟩ := (Option.any_eq_true _ _).mp hdone
    exact ⟨order, ho, eq_of_beq hs⟩
  have htarget : 31 ∈ finishedContext.targetOrderIds := by decide +kernel
  refine ⟨Reachable.run reportedState_run finishFirst fun _ _ _ ↦ trivial, ?_, ?_,
    ⟨rfl, rfl, by decide +kernel⟩, ?_, hcompleted, htarget, by decide +kernel,
    fun h ↦ h.notTarget 31 hcompleted htarget⟩
  · rw [finishedContext]
    exact eq_ok_get _
  · rw [finishedInput]
    exact eq_ok_get _
  · rw [finishedCandidate]
    exact eq_ok_get _

end PenroseRoute.System
