import PenroseRoute.Lifecycle.Persisted
import PenroseRoute.System.Changes

/-!
# Where routes come from

After a transaction every plan has the routes of a plan before it, as they were, moved by a
stop transition or shifted by the delay of a merchant, or the routes of a candidate that a step
of a run has persisted.
-/

namespace PenroseRoute.System

open PenroseRoute.Db PenroseRoute.Lib PenroseRoute.Operations PenroseRoute.Recovery
open PenroseRoute.Incidents PenroseRoute.Lifecycle
open StopExecutionService MerchantDelayWorkflow

/-- The delay of a merchant is stored, propagated and not replanned. -/
def Propagates (context : MerchantIncidentContext) (updatedReadyAt : Instant) : Prop :=
  0 < totalSeconds (updatedReadyAt - context.originalReadyAt) ∧
    totalSeconds (updatedReadyAt - context.originalReadyAt) =
      roundedSeconds (updatedReadyAt - context.originalReadyAt) ∧
    (600 < totalSeconds (updatedReadyAt - context.originalReadyAt) →
      (context.orders.filterMap fun item ↦
        assessMerchantOrder item.routeId item.order item.isDirect true) = [])

/-- Each of its parts is decided. -/
instance (context : MerchantIncidentContext) (updatedReadyAt : Instant) :
    Decidable (Propagates context updatedReadyAt) :=
  inferInstanceAs (Decidable (_ ∧ _ ∧ (_ → _ = [])))

/-- Where the routes of a plan after a transaction come from. -/
inductive Source (s : SysState) : Action → DeliveryPlan → Prop where
  | kept {action : Action} {old plan : DeliveryPlan} (h : old ∈ s.db.plans)
      (routes : plan.routes = old.routes) : Source s action plan
  | moved {call : Action} {action : StopAction} {stopId : UUID} {occurredAt : Instant}
      {base old : DeliveryPlan} {route : VehicleRoute} {stop : RouteStop} (h : old ∈ s.db.plans)
      (checked : Checked s.db stopId action.expected action.target occurredAt base route stop) :
      Source s call (movedPlan base route stop action.target occurredAt old)
  | shifted {businessDate : BusinessDate} {merchantId : UUID} {updatedReadyAt eventTime : Instant}
      {explicitIncident : Bool} {context : MerchantIncidentContext} {old : DeliveryPlan}
      (h : old ∈ s.db.plans)
      (resolved : resolveMerchantIncidentContext s.db businessDate merchantId = .ok context)
      (propagates : Propagates context updatedReadyAt)
      (unreported : openMerchantIncident? s.db context.plan.id merchantId = none)
      (id : old.id = context.plan.id) :
      Source s (.assessDelay businessDate merchantId updatedReadyAt eventTime explicitIncident)
        (shiftPlan context updatedReadyAt old)
  | persisted {index : Nat} {services : WorkflowServices} {now : Instant} {run : Run}
      {plan : DeliveryPlan} (h : s.runs[index]? = some run)
      (routes : IsPersisted s.db services run plan.routes) :
      Source s (.continueRun index services now) plan

variable {settings : Settings} {s : SysState} {action : Action} {plan : DeliveryPlan}

private theorem source_of_plans {db' : Database} (h : Plans s.db db' []) (hp : plan ∈ db'.plans) :
    Source s action plan := by
  rcases h.routes hp with ⟨old, hold, hroutes⟩ | ⟨candidate, hc, -⟩
  · exact .kept hold hroutes
  · cases hc

private theorem source_of_call (stopAction : StopAction) {stopId : UUID} {occurredAt : Instant}
    {db' : Database} {result : StopExecutionResult}
    (h : transition settings.thresholdSeconds s.db stopId stopAction.expected stopAction.target
      occurredAt = .ok (db', result)) (hp : plan ∈ db'.plans) : Source s action plan := by
  rcases transition_ok h with ⟨rfl, -⟩ | ⟨base, route, stop, hc, rfl⟩
  · exact .kept hp rfl
  · rw [plans_applyTransition] at hp
    obtain ⟨old, hold, rfl⟩ := List.mem_map.mp hp
    exact .moved hold hc

/-- A reported delay shifts its plan at most where it is propagated. -/
theorem assessDelay_plans {thresholdSeconds : Int} {db db' : Database}
    {businessDate : BusinessDate} {merchantId : UUID} {updatedReadyAt eventTime : Instant}
    {explicitIncident : Bool} {incidentId : Option UUID}
    (h : assessDelay thresholdSeconds db businessDate merchantId updatedReadyAt eventTime
      explicitIncident = .ok (db', incidentId)) :
    db'.plans = db.plans ∨ ∃ context,
      resolveMerchantIncidentContext db businessDate merchantId = .ok context ∧
      Propagates context updatedReadyAt ∧
      openMerchantIncident? db context.plan.id merchantId = none ∧
      db'.plans = updateWhere db.plans (·.id == context.plan.id)
        (shiftPlan context updatedReadyAt) := by
  obtain ⟨context, hc, h⟩ := bind_eq_ok.mp h
  dsimp only at h
  split at h
  · obtain ⟨-, h⟩ := unit_bind_eq_ok.mp h
    cases h
    exact .inl rfl
  · next hdelay =>
    obtain ⟨hopen, h⟩ := unit_bind_eq_ok.mp h
    rw [raiseFirst_cons_eq_ok, Option.isSome_eq_false_iff, Option.isNone_iff_eq_none] at hopen
    obtain ⟨hvalue, h⟩ := unit_bind_eq_ok.mp h
    rw [raiseFirst_cons_eq_ok, Bool.not_eq_false'] at hvalue
    split at h
    · cases h
      exact .inl rfl
    · next hreplan =>
      cases h
      refine .inr ⟨context, hc, ⟨by omega, beq_iff_eq.mp hvalue.1, fun hlong ↦ ?_⟩, hopen.1, rfl⟩
      have hprovisional : decide (totalSeconds (updatedReadyAt - context.originalReadyAt) > 600) =
          true := decide_eq_true hlong
      rw [hprovisional, Bool.true_and, bne_iff_ne, not_not] at hreplan
      exact hreplan

/-- The routes of every plan after a transaction come from one of these sources. -/
theorem apply_source (settings : Settings) (s : SysState) (action : Action)
    (hp : plan ∈ (s.apply settings action).db.plans) : Source s action plan := by
  have hcommit : ∀ {α : Type} {outcome : Except AppError α} {f : α → SysState},
      plan ∈ (s.commit outcome f).db.plans →
        (∀ a, outcome = .ok a → plan ∈ (f a).db.plans → Source s action plan) →
          Source s action plan := by
    intro α outcome f hp hok
    cases outcome with
    | ok a => exact hok a rfl hp
    | error error => exact .kept hp rfl
  cases action with
  | arrive stopId occurredAt => exact hcommit hp fun r hr hm ↦ source_of_call .arrive hr hm
  | startService stopId occurredAt =>
    exact hcommit hp fun r hr hm ↦ source_of_call .startService hr hm
  | complete stopId occurredAt =>
    refine hcommit hp fun r hr hm ↦ ?_
    rw [(s.noteCompletion_eq stopId { s with db := r.1 }).1] at hm
    exact source_of_call .complete hr hm
  | advanceExecution orderId target =>
    refine hcommit hp fun db hr hm ↦ ?_
    have hsame : db.plans = s.db.plans := by
      obtain rfl | ⟨order, -, -, rfl⟩ := Resources.advanceExecution_ok hr <;> rfl
    rw [hsame] at hm
    exact .kept hm rfl
  | refreshAlerts riskOf => exact .kept hp rfl
  | reportUnavailable businessDate vehicleId eventTime location =>
    refine hcommit hp fun ⟨db, _⟩ hr hm ↦ ?_
    obtain ⟨context, locationId, -, -, -, -, he⟩ := VehicleIncidentWorkflow.reportUnavailable_ok hr
    dsimp only at he hm
    rw [he] at hm
    exact .kept hm rfl
  | assessDelay businessDate merchantId updatedReadyAt eventTime explicitIncident =>
    refine hcommit hp fun ⟨db, _⟩ hr hm ↦ ?_
    dsimp only at hm
    rcases assessDelay_plans hr with hsame |
      ⟨context, hresolved, hpropagates, hunreported, hplans⟩
    · rw [hsame] at hm
      exact .kept hm rfl
    · rw [hplans] at hm
      obtain ⟨old, hold, ⟨hid, rfl⟩ | ⟨-, rfl⟩⟩ := mem_updateWhere.mp hm
      · exact .shifted hold hresolved hpropagates hunreported (eq_of_beq hid)
      · exact .kept hold rfl
  | startRecovery incidentId now =>
    exact hcommit hp fun r hr hm ↦ source_of_plans (start_plans hr) hm
  | startOptions incidentId maxCandidates regenerate now =>
    exact hcommit hp fun r hr hm ↦ source_of_plans (startOptions_plans hr) hm
  | continueRun index services now =>
    rw [SysState.apply] at hp
    split at hp
    · exact .kept hp rfl
    · next run hrun =>
      obtain ⟨added, hplans, hadded⟩ :=
        step_persisted services settings.fingerprint s.db now run
      rcases hplans.routes hp with ⟨old, hold, hroutes⟩ | ⟨candidate, hc, hroutes⟩
      · exact .kept hold hroutes
      · refine .persisted hrun ?_
        rw [hroutes]
        exact hadded candidate hc
  | decide services recoveryId decision reason now =>
    exact hcommit hp fun db hr hm ↦ source_of_plans (decide_plans hr) hm
  | modify recoveryId reason =>
    exact hcommit hp fun r hr hm ↦ source_of_plans (modify_plans hr) hm

end PenroseRoute.System
