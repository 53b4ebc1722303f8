import PenroseRoute.Lifecycle.InForce
import PenroseRoute.Operations.StopMachine
import PenroseRoute.System.Lifecycle

/-!
# What a transaction changes

Every transaction of the system does one of a few things to the database. An invariant of stops,
orders, vehicles and plans is shown once for each of them.
-/

namespace PenroseRoute.System

open PenroseRoute.Db PenroseRoute.Lib PenroseRoute.Operations PenroseRoute.Recovery
open PenroseRoute.Incidents PenroseRoute.Lifecycle PenroseRoute.Optimization
open StopExecutionService

/-- The action of a call of the stop machine. -/
def Action.ofCall : StopAction → (stopId : UUID) → (occurredAt : Instant) → Action
  | .arrive, stopId, occurredAt => .arrive stopId occurredAt
  | .startService, stopId, occurredAt => .startService stopId occurredAt
  | .complete, stopId, occurredAt => .complete stopId occurredAt

/-- What an action makes of the database: nothing, the move of a stop, the status of an order,
risk flags, one of the two reports, planning that leaves the CURRENT plans, or an approval. -/
inductive Effect (settings : Settings) (db : Database) : Action → Database → Prop where
  | idle (action : Action) : Effect settings db action db
  | moved {action : StopAction} {stopId : UUID} {occurredAt : Instant} {plan : DeliveryPlan}
      {route : VehicleRoute} {stop : RouteStop} {call : Action}
      (hcall : call = .ofCall action stopId occurredAt)
      (h : Checked db stopId action.expected action.target occurredAt plan route stop) :
      Effect settings db call (applyTransition settings.thresholdSeconds db plan route stop
        action.target occurredAt)
  | advanced {orderId : UUID} {target : OrderExecutionStatus} {db' : Database}
      (h : Resources.advanceExecution db orderId target = .ok db') :
      Effect settings db (.advanceExecution orderId target) db'
  | flagged (riskOf : UUID → OrderRiskStatus) : Effect settings db (.refreshAlerts riskOf)
      { db with
        orders := db.orders.map fun order ↦ { order with riskStatus := riskOf order.id } }
  | reported {businessDate : BusinessDate} {vehicleId incidentId : UUID} {eventTime : Instant}
      {location : VehicleIncidentWorkflow.BreakdownLocation} {db' : Database}
      (h : VehicleIncidentWorkflow.reportUnavailable db businessDate vehicleId eventTime
        location = .ok (db', incidentId)) :
      Effect settings db (.reportUnavailable businessDate vehicleId eventTime location) db'
  | delayed {businessDate : BusinessDate} {merchantId : UUID} {updatedReadyAt eventTime : Instant}
      {explicitIncident : Bool} {incidentId : Option UUID} {db' : Database}
      (h : MerchantDelayWorkflow.assessDelay settings.thresholdSeconds db businessDate merchantId
        updatedReadyAt eventTime explicitIncident = .ok (db', incidentId)) :
      Effect settings db
        (.assessDelay businessDate merchantId updatedReadyAt eventTime explicitIncident) db'
  | planned {db' : Database} {added : List DeliveryPlan} (action : Action)
      (plans : Plans db db' added)
      (made : ∀ candidate ∈ added, ∃ incidentId context result,
        Made db incidentId context result candidate)
      (current : SameCurrent db db') : Effect settings db action db'
  | approved {services : Services} {recoveryId : UUID} {reason : String} {now : Instant}
      {reviewable : Decisions.Reviewable} (h : Decisions.Locked db recoveryId reviewable)
      (facts : Decisions.validateOptionFacts settings.fingerprint db reviewable.recovery
        reviewable.incident = .ok ())
      (schedule : Decisions.validateSchedule services db reviewable now = .ok ()) :
      Effect settings db (.decide services recoveryId .approve reason now)
        (Decisions.applyApproval db reviewable)

/-- The effect of an action on the way from one state to another. -/
abbrev Leads (settings : Settings) (s : SysState) (action : Action) (s' : SysState) : Prop :=
  Effect settings s.db action s'.db

variable {settings : Settings} {s : SysState}

private theorem call_effect (action : StopAction) {stopId : UUID} {occurredAt : Instant}
    {db' : Database} {result : StopExecutionResult} {call : Action}
    (hcall : call = .ofCall action stopId occurredAt)
    (h : transition settings.thresholdSeconds s.db stopId action.expected action.target
      occurredAt = .ok (db', result)) : Effect settings s.db call db' := by
  rcases transition_ok h with ⟨rfl, -⟩ | ⟨plan, route, stop, hc, rfl⟩
  · exact .idle call
  · exact .moved hcall hc

private theorem planned_nil {db' : Database} (action : Action) (plans : Plans s.db db' [])
    (current : SameCurrent s.db db') : Effect settings s.db action db' :=
  .planned action plans (fun _ hc ↦ by cases hc) current

/-- Every action has one of these effects. -/
theorem LifecycleOk.effect (h : LifecycleOk s) (settings : Settings) (action : Action) :
    Leads settings s action (s.apply settings action) := by
  cases action with
  | arrive stopId occurredAt =>
    refine SysState.commit_ind (.idle _) fun r hr ↦ ?_
    exact call_effect .arrive rfl hr
  | startService stopId occurredAt =>
    refine SysState.commit_ind (.idle _) fun r hr ↦ ?_
    exact call_effect .startService rfl hr
  | complete stopId occurredAt =>
    refine SysState.commit_ind (.idle _) fun r hr ↦ ?_
    rw [Leads, (s.noteCompletion_eq stopId { s with db := r.1 }).1]
    exact call_effect .complete rfl hr
  | advanceExecution orderId target =>
    exact SysState.commit_ind (.idle _) fun _ hr ↦ .advanced hr
  | refreshAlerts riskOf => exact .flagged riskOf
  | reportUnavailable businessDate vehicleId eventTime location =>
    exact SysState.commit_ind (.idle _) fun _ hr ↦ .reported hr
  | assessDelay businessDate merchantId updatedReadyAt eventTime explicitIncident =>
    exact SysState.commit_ind (.idle _) fun _ hr ↦ .delayed hr
  | startRecovery incidentId now =>
    exact SysState.commit_ind (.idle _) fun _ hr ↦
      planned_nil _ (start_plans hr) (start_sameCurrent hr)
  | startOptions incidentId maxCandidates regenerate now =>
    exact SysState.commit_ind (.idle _) fun _ hr ↦
      planned_nil _ (startOptions_plans hr) (startOptions_sameCurrent h.sound hr)
  | continueRun index services now =>
    rw [SysState.apply]
    split
    · exact .idle _
    · next run hrun =>
      have hheld := h.held run (List.mem_of_getElem? hrun)
      obtain ⟨added, hplans⟩ : ∃ added, RunPlans settings.fingerprint s.db
          (run.step services settings.fingerprint s.db now).1 run added :=
        step_plans h.sound hheld services now
      refine .planned _ hplans.plans ?_ (step_sameCurrent h.sound hheld services now)
      intro candidate hc
      obtain ⟨context, result, hm⟩ := hplans.made candidate hc
      exact ⟨run.incidentId, context, result, hm⟩
  | decide services recoveryId decision reason now =>
    refine SysState.commit_ind (.idle _) fun db hr ↦ ?_
    obtain ⟨reviewable, hl, ⟨rfl, hfacts, -, hschedule, rfl⟩ | ⟨-, rfl⟩⟩ := Decisions.decide_ok hr
    · exact .approved hl hfacts hschedule
    · exact planned_nil _ (decide_plans hr) (applyRejection_sameCurrent h.sound hl)
  | modify recoveryId reason =>
    exact SysState.commit_ind (.idle _) fun _ hr ↦
      planned_nil _ (modify_plans hr) (modify_sameCurrent h.sound hr)

end PenroseRoute.System
