import PenroseRoute.Recovery.CandidateTimes
import PenroseRoute.System.Attempts

/-!
# Incidents that share a plan

An approval replaces the plan that every incident of the date was reported on. The services
guard against the old plan: an incident that an approval of another one has left behind can
neither be recovered nor have its pending candidates decided.
-/

namespace PenroseRoute.System

open PenroseRoute.Db PenroseRoute.Lib PenroseRoute.Recovery PenroseRoute.Lifecycle
open PenroseRoute.Optimization

/-! ### Left behind -/

/-- The incident refers to the CURRENT plan of its date. -/
def InForce (db : Database) (incident : Incident) : Prop :=
  ∃ plan, db.plan? incident.deliveryPlanId = some plan ∧
    db.currentPlan? plan.businessDate = some plan

/-- A recovery of another incident of the same plan has been approved. -/
def Stranded (db : Database) (incident : Incident) : Prop :=
  ∃ plan, db.plan? incident.deliveryPlanId = some plan ∧ plan.status = .superseded ∧
    ∃ attempt ∈ db.recoveryPlans, Approved attempt ∧ attempt.baseDeliveryPlanId = plan.id ∧
      attempt.incidentId ≠ incident.id

/-- Nothing can be done for an incident any more: no workflow reads its context, and every
decision of a pending candidate is refused. -/
structure Refused (settings : Settings) (db : Database) (incident : Incident) : Prop where
  read : ∀ scope now context,
    materializeRecoveryContext db incident.id scope now ≠ .ok context
  start : ∀ now started, RecoveryWorkflow.start db incident.id now ≠ .ok started
  startOptions : ∀ maxCandidates regenerate now started,
    RecoveryOptionsWorkflow.start db incident.id maxCandidates regenerate now ≠ .ok started
  decide : ∀ attempt ∈ db.attempts incident.id, attempt.isPending = true →
    ∀ services decision reason now, decision ≠ .modify → Decisions.isBlank reason = false →
      Decisions.decide services settings.fingerprint db attempt.id decision reason now =
        .error (.conflict "BASE_PLAN_NOT_CURRENT")
  modify : ∀ attempt ∈ db.attempts incident.id, attempt.isPending = true →
    ∀ reason, Decisions.isBlank reason = false →
      Decisions.modify settings.fingerprint db attempt.id reason =
        .error (.conflict "BASE_PLAN_NOT_CURRENT")

/-- The owner of a pending candidate: an open incident, and the plan that it refers to. -/
structure PendingOn (db : Database) (attempt : RecoveryPlan) (incident : Incident)
    (candidate : DeliveryPlan) : Prop where
  incidentId : incident.id = attempt.incidentId
  incidentOpen : incident.status ≠ .resolved
  owned : attempt.candidateDeliveryPlanId = some candidate.id
  status : candidate.status = .candidate
  parent : candidate.parentPlanId = some incident.deliveryPlanId

variable {settings : Settings} {s : SysState} {db : Database}

/-! ### What holds of every incident -/

/-- The base plan of an attempt is the plan of its incident. -/
theorem incident_of_attempt (hl : (ledgerOf db).Sound) {attempt : RecoveryPlan}
    (ha : attempt ∈ db.recoveryPlans) : ∃ incident ∈ db.incidents,
      incident.id = attempt.incidentId ∧
        incident.deliveryPlanId = attempt.baseDeliveryPlanId := by
  have hkey := hl.numbered.owner (keyOf attempt) (List.mem_map.mpr ⟨attempt, ha, rfl⟩)
  obtain ⟨header, hheader, hkey⟩ := List.mem_map.mp hkey
  obtain ⟨incident, hi, rfl⟩ := List.mem_map.mp hheader
  rw [Prod.mk.injEq] at hkey
  exact ⟨incident, hi, hkey.1, hkey.2⟩

/-- The row of a plan with a status. -/
theorem plan_of_hasPlan (hl : (ledgerOf db).Sound) {id : UUID} {status : DeliveryPlanStatus}
    (h : (ledgerOf db).HasPlan id status) : ∃ plan, db.plan? id = some plan ∧
      plan ∈ db.plans ∧ plan.status = status := by
  obtain ⟨header, hheader, hid, hstatus⟩ := h
  obtain ⟨plan, hp, rfl⟩ := List.mem_map.mp hheader
  refine ⟨plan, ?_, hp, hstatus⟩
  rw [← hid]
  exact hl.plan? hp

/-- The CURRENT plan of a date is found. -/
theorem currentPlan?_of_mem (hl : (ledgerOf db).Sound) {plan : DeliveryPlan}
    (hp : plan ∈ db.plans) (hs : plan.status = .current) :
    db.currentPlan? plan.businessDate = some plan := by
  cases hf : db.currentPlan? plan.businessDate with
  | none =>
    rw [Database.currentPlan?, List.find?_eq_none] at hf
    refine absurd ?_ (hf plan hp)
    rw [hs, beq_self_eq_true, beq_self_eq_true]
    rfl
  | some other =>
    obtain ⟨ho, hdate, hstatus⟩ := currentPlan?_mem hf
    have hsame := hl.reviewed.currentOnce (headerOf other) (headerOf_mem ho) (headerOf plan)
      (headerOf_mem hp) hstatus hs hdate
    have hother := hl.plan? ho
    have hid : other.id = plan.id := congrArg PlanHeader.id hsame
    rw [hid, hl.plan? hp, Option.some.injEq] at hother
    rw [hother]

/-- An open incident refers to the CURRENT plan or has been left behind. -/
theorem inForce_or_stranded (hl : (ledgerOf db).Sound) {incident : Incident}
    (hi : incident ∈ db.incidents) (ho : incident.status ≠ .resolved) :
    InForce db incident ∨ Stranded db incident := by
  rcases hl.reviewed.inForce _ (incidentHeaderOf_mem hi) with hcurrent | ⟨hsuperseded, happroved⟩
  · obtain ⟨plan, hf, hp, hs⟩ := plan_of_hasPlan hl hcurrent
    exact .inl ⟨plan, hf, currentPlan?_of_mem hl hp hs⟩
  · obtain ⟨plan, hf, -, hs⟩ := plan_of_hasPlan hl hsuperseded
    obtain ⟨attempt, ha, hd, hbase⟩ := happroved
    refine .inr ⟨plan, hf, hs, attempt, ha, hd, hbase.trans (plan?_mem hf).2.symm, fun he ↦ ho ?_⟩
    exact hl.reviewed.approvedResolved attempt ha hd _ (incidentHeaderOf_mem hi) he.symm

/-- A context is read on the CURRENT plan only. -/
theorem Stranded.read (hl : (ledgerOf db).Sound) {incident : Incident}
    (hi : incident ∈ db.incidents) (h : Stranded db incident) (scope : ReplanningScope)
    (now : Instant) (context : RecoveryContext) :
    materializeRecoveryContext db incident.id scope now ≠ .ok context := by
  intro hc
  obtain ⟨plan, hf, hs, -⟩ := h
  obtain ⟨other, base, ho, hb, hread⟩ := materializeRecoveryContext_ok hc
  rw [hl.incident? hi, Option.some.injEq] at ho
  rw [← ho, hf, Option.some.injEq] at hb
  have hcurrent := hread.current
  rw [← hb, hs] at hcurrent
  cases hcurrent

/-- The base plan is the first thing that a decision checks of a pending attempt. -/
theorem Stranded.lockReviewable (hl : (ledgerOf db).Sound) {incident : Incident}
    (hi : incident ∈ db.incidents) (h : Stranded db incident) {attempt : RecoveryPlan}
    (ha : attempt ∈ db.attempts incident.id) (hp : attempt.isPending = true)
    (fingerprint : RecoveryContext → Nat) (validateFacts : Bool) :
    Decisions.lockReviewable fingerprint db attempt.id validateFacts =
      .error (.conflict "BASE_PLAN_NOT_CURRENT") := by
  obtain ⟨hmem, hid⟩ := mem_attempts.mp ha
  obtain ⟨plan, hf, hs, -⟩ := h
  obtain ⟨owner, howner, hoid, hbase⟩ := incident_of_attempt hl hmem
  have hsame := hl.incident? howner
  rw [hoid, hid, hl.incident? hi, Option.some.injEq] at hsame
  rw [← hsame] at hbase
  have hdecided : (attempt.status == .decided) = false := by
    rw [isPending_iff.mp hp]
    rfl
  rw [Decisions.lockReviewable, hl.recoveryPlan? hmem, orRaise]
  simp only [bind, Except.bind, hdecided, hp, raiseFirst, Bool.not_true]
  rw [← hbase, hf, Option.filter_some, hs]
  rfl

/-- Every service refuses an incident that has been left behind. -/
theorem Stranded.refused (hl : (ledgerOf db).Sound) {incident : Incident}
    (hi : incident ∈ db.incidents) (h : Stranded db incident) :
    Refused settings db incident where
  read := h.read hl hi
  start now started hstart := by
    obtain ⟨other, ho, hstart⟩ := bind_eq_ok.mp hstart
    obtain ⟨-, hstart⟩ := unit_bind_eq_ok.mp hstart
    obtain ⟨context, hc, -⟩ := bind_eq_ok.mp hstart
    exact h.read hl hi _ _ context hc
  startOptions maxCandidates regenerate now started hstart := by
    obtain ⟨other, ho, hstart⟩ := bind_eq_ok.mp hstart
    obtain ⟨-, hstart⟩ := unit_bind_eq_ok.mp hstart
    obtain ⟨context, hc, -⟩ := bind_eq_ok.mp hstart
    exact h.read hl hi _ _ context hc
  decide attempt ha hp services decision reason now hd hr := by
    rw [Decisions.decide, hr, beq_false_of_ne hd, h.lockReviewable hl hi ha hp]
    rfl
  modify attempt ha hp reason hr := by
    rw [Decisions.modify, hr, h.lockReviewable hl hi ha hp]
    rfl

/-- In every reachable state an open incident refers to the CURRENT plan of its date, unless an
approval of another incident of the same plan has left it behind; every pending candidate has
the plan of its open incident as its parent; and what is left behind is refused everywhere. -/
theorem open_incident_in_force_or_stranded (h : ReachableState settings s) :
    (∀ incident ∈ s.db.incidents, incident.status ≠ .resolved →
      InForce s.db incident ∨ (Stranded s.db incident ∧ Refused settings s.db incident)) ∧
    ∀ attempt ∈ s.db.recoveryPlans, attempt.isPending = true → ∃ incident ∈ s.db.incidents,
      ∃ candidate ∈ s.db.plans, PendingOn s.db attempt incident candidate := by
  have hl := h.lifecycle.sound
  constructor
  · intro incident hi ho
    exact (inForce_or_stranded hl hi ho).imp_right fun hs ↦ ⟨hs, hs.refused hl hi⟩
  · intro attempt ha hp
    obtain ⟨incident, hi, hid, hbase⟩ := incident_of_attempt hl ha
    obtain ⟨-, -, -, header, hheader, howned, hstatus, hparent⟩ :=
      (hl.reviewed.shaped attempt ha).pending hp
    obtain ⟨candidate, hc, rfl⟩ := List.mem_map.mp hheader
    refine ⟨incident, hi, candidate, hc, hid, ?_, howned, hstatus, ?_⟩
    · exact hl.reviewed.pendingOpen attempt ha hp _ (incidentHeaderOf_mem hi) hid
    · rw [hbase]
      exact hparent

/-! ### Two delayed merchants -/

/-- A solver that keeps each of the two orders on its own vehicle. -/
def delayServices : WorkflowServices where
  buildDistanceTimeMatrix locationIds := .ok (uniformMatrix locationIds)
  solve input :=
    let vehicleIds := input.vehicles.map (·.vehicleId)
    if input.orders.map (·.orderId) = [31] ∧ vehicleIds.contains 20 then delayResult 31 20 2
    else if input.orders.map (·.orderId) = [32] ∧ vehicleIds.contains 10 then delayResult 32 10 3
    else infeasible "No route"
  buildRoute := none
  agent := none

/-- Before the delays. -/
def delayStart : SysState where
  db := delayDatabase
  runs := []
  limits := []
  approvals := []
  overtaken := []
  carried := []

/-- Both merchants are late, a candidate is made for each of them, and the first is approved. -/
def approveOneOfTwo : List Action :=
  [.assessDelay 738000 7 900000000 0 true, .assessDelay 738000 8 900000000 0 true,
    .startOptions 100 twoCandidates false 0, .startOptions 101 twoCandidates false 0,
    .continueRun 0 delayServices 0, .continueRun 0 delayServices 0,
    .continueRun 0 delayServices 0, .continueRun 1 delayServices 0,
    .continueRun 1 delayServices 0, .continueRun 1 delayServices 0,
    .decide delayServices.toServices 102 .approve "approved" 120000000]

/-- The state after the approval. -/
def strandedState : SysState := approveOneOfTwo.foldl (SysState.apply scenarioSettings) delayStart

/-- The stranding scenario is reached. -/
theorem strandedState_reachable : ReachableState scenarioSettings strandedState :=
  Reachable.run (.init ⟨rfl, rfl, rfl, rfl, rfl, rfl, rfl, by decide, by decide, by decide⟩)
    approveOneOfTwo fun _ _ _ ↦ trivial

/-- The approval for the first merchant strands the incident of the second one: its plan is not
CURRENT any more, and neither is the parent of its pending candidate. -/
theorem approval_strands_other_incident :
    ReachableState scenarioSettings strandedState ∧
      (∃ incident ∈ strandedState.db.incidents, incident.status ≠ .resolved ∧
        ∀ plan ∈ strandedState.db.plans, plan.id = incident.deliveryPlanId →
          plan.status ≠ .current) ∧
      ∃ attempt ∈ strandedState.db.recoveryPlans, attempt.isPending = true ∧
        ∃ candidate ∈ strandedState.db.plans,
          attempt.candidateDeliveryPlanId = some candidate.id ∧
          candidate.status = .candidate ∧ ∀ parent ∈ strandedState.db.plans,
            candidate.parentPlanId = some parent.id → parent.status ≠ .current :=
  ⟨strandedState_reachable, by decide +kernel, by decide +kernel⟩

/-- In that state the services refuse the second incident. -/
theorem stranded_incident_refused :
    (∀ incident ∈ strandedState.db.incidents, incident.status ≠ .resolved →
      Refused scenarioSettings strandedState.db incident) ∧
    strandedState.db.incidents.map (fun incident ↦ (incident.id, incident.status)) =
      [(100, .resolved), (101, .review)] := by
  refine ⟨fun incident hi ho ↦ ?_, by decide +kernel⟩
  have hplans : ∀ incident ∈ strandedState.db.incidents,
      (strandedState.db.plan? incident.deliveryPlanId).all (·.status != .current) = true := by
    decide +kernel
  rcases (open_incident_in_force_or_stranded strandedState_reachable).1 incident hi ho with
    ⟨plan, hf, hc⟩ | ⟨-, hr⟩
  · have hs := hplans incident hi
    rw [hf, Option.all_some, (currentPlan?_mem hc).2.2] at hs
    cases hs
  · exact hr

end PenroseRoute.System
