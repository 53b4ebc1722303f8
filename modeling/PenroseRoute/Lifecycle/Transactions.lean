import PenroseRoute.Incidents.Workflow
import PenroseRoute.Lifecycle.Abstraction
import PenroseRoute.Resources.Orders

/-!
# Transactions as moves

Every transaction of the services is a series of moves of the ledger. A run keeps its attempt in
flight while it works on it, and a transaction of a run names that attempt.
-/

namespace PenroseRoute.Lifecycle

open PenroseRoute.Db PenroseRoute.Lib PenroseRoute.Recovery PenroseRoute.Operations
open PenroseRoute.Incidents

variable {db db' : Database}

/-! ### Runs and their attempts -/

/-- A run at this point works on an attempt in flight. -/
def working : RunPoint → Bool
  | .expanding _ => false
  | .returned => false
  | .raised _ => false
  | _ => true

/-- An attempt is the one that a run works on. -/
structure AttemptOf (run : Run) (attempt : RecoveryPlan) : Prop where
  id : attempt.id = run.attemptId
  incidentId : attempt.incidentId = run.incidentId
  attemptNo : attempt.attemptNo = run.attemptNo

/-- The ledger has the attempt of a run, in flight while the run works on it. -/
structure Held (l : Ledger) (run : Run) : Prop where
  fresh : run.attemptId < l.nextId
  inFlight : working run.point = true →
    ∃ attempt ∈ l.attempts, AttemptOf run attempt ∧ attempt.inFlight = true
  expanding : ∀ context, run.point = .expanding context → ∃ attempt ∈ l.attempts,
    AttemptOf run attempt ∧ attempt.status = .draft ∧ attempt.solverStatus.isSome ∧
      attempt.candidateDeliveryPlanId = none

/-- A run that does not work on its attempt any more. -/
theorem Held.ended {l : Ledger} {run : Run} (hfresh : run.attemptId < l.nextId)
    (hw : working run.point = false) (he : ∀ context, run.point ≠ .expanding context) :
    Held l run where
  fresh := hfresh
  inFlight h := by rw [hw] at h; cases h
  expanding context h := absurd h (he context)

/-- The same run at another point where it works on its attempt. -/
theorem Held.move {l : Ledger} {run : Run} {point : RunPoint} (h : Held l run)
    (hw : working run.point = true) (he : ∀ context, point ≠ .expanding context) :
    Held l { run with point := point } where
  fresh := h.fresh
  inFlight _ := by
    obtain ⟨attempt, ha, ⟨hid, hi, hno⟩, hf⟩ := h.inFlight hw
    exact ⟨attempt, ha, ⟨hid, hi, hno⟩, hf⟩
  expanding context hp := absurd hp (he context)

/-- Moves of others keep what a run has. -/
theorem Held.keep {own : Option UUID} {l l' : Ledger} {run : Run} (h : Held l run)
    (m : Moves own l l') (hk : l.keys.Numbered) (hne : own ≠ some run.attemptId) :
    Held l' run where
  fresh := Nat.lt_of_lt_of_le h.fresh m.nextId_le
  inFlight hw := by
    obtain ⟨attempt, ha, hof, hf⟩ := h.inFlight hw
    refine ⟨attempt, m.draft_mem hk ha (inFlight_iff.mp hf).1 ?_, hof, hf⟩
    rwa [hof.id]
  expanding context hp := by
    obtain ⟨attempt, ha, hof, hs, hrest⟩ := h.expanding context hp
    refine ⟨attempt, m.draft_mem hk ha hs ?_, hof, hs, hrest⟩
    rwa [hof.id]

/-! ### Contexts -/

/-- What a context says about the ledger that it was read from. -/
structure ContextOf (l : Ledger) (id : UUID) (context : RecoveryContext) : Prop where
  incidentId : context.incidentId = id
  incidentOpen : l.Open id
  owner : ∃ incident ∈ l.incidents, incident.id = id ∧
    incident.deliveryPlanId = context.basePlanId

/-- The owner of a new attempt in a context. -/
theorem ContextOf.ownerOf {l : Ledger} {id : UUID} {context : RecoveryContext}
    (h : ContextOf l id context) : ∃ incident ∈ l.incidents, incident.id = context.incidentId ∧
      incident.deliveryPlanId = context.basePlanId := by
  rw [h.incidentId]
  exact h.owner

/-- A context that is read is one of its incident. -/
theorem contextOf_materialize (h : (ledgerOf db).Sound) {incidentId : UUID}
    {scope : ReplanningScope} {now : Instant} {context : RecoveryContext}
    (hc : materializeRecoveryContext db incidentId scope now = .ok context) :
    ContextOf (ledgerOf db) incidentId context := by
  obtain ⟨incident, plan, hi, hp, hread⟩ := materializeRecoveryContext_ok hc
  obtain ⟨himem, hid⟩ := incident?_mem hi
  have hpid := (plan?_mem hp).2
  have hstatus := hread.guards
  rw [incidentGuards, raiseFirst_cons_eq_ok] at hstatus
  have hs : incident.status ≠ .resolved := by
    intro hs
    have := hstatus.1
    rw [hs] at this
    exact absurd this (by decide)
  refine ⟨hread.incidentId.trans hid, h.open_of_incident? hi hs, ?_⟩
  exact ⟨incidentHeaderOf incident, incidentHeaderOf_mem himem, hid,
    hpid.symm.trans hread.basePlanId.symm⟩

/-- The base plan of a context is the one that its incident was reported on. -/
theorem assertBaseStillCurrent_ok {incidentId basePlanId : UUID}
    (h : RecoveryWorkflow.assertBaseStillCurrent db incidentId basePlanId = .ok ()) :
    ∃ incident ∈ (ledgerOf db).incidents, incident.id = incidentId ∧
      incident.deliveryPlanId = basePlanId := by
  obtain ⟨incident, hi, h⟩ := bind_eq_ok.mp h
  rw [orRaise_eq_ok] at hi
  rw [raiseFirst_cons_eq_ok, Bool.or_eq_false_iff, bne_eq_false_iff_eq] at h
  obtain ⟨himem, hid⟩ := incident?_mem hi
  exact ⟨incidentHeaderOf incident, incidentHeaderOf_mem himem, hid, h.1.1⟩

/-! ### Reserving attempts -/

/-- Adding an attempt appends its row. -/
theorem addRecoveryPlan_ok {attempt : RecoveryPlan}
    (h : RecoveryWorkflow.addRecoveryPlan db attempt = .ok db') :
    (∀ other ∈ db.recoveryPlans, other.incidentId = attempt.incidentId →
      other.attemptNo ≠ attempt.attemptNo) ∧
    db' = { db with
      recoveryPlans := db.recoveryPlans ++ [attempt]
      nextId := db.nextId + 1 } := by
  obtain ⟨hu, h⟩ := unit_bind_eq_ok.mp h
  cases h
  refine ⟨?_, rfl⟩
  intro other ho hi hno
  rw [raiseFirst_cons_eq_ok, List.any_eq_false] at hu
  refine hu.1 other ?_ (beq_iff_eq.mpr hno)
  rw [Database.attempts, List.mem_insertionSort, List.mem_filter]
  exact ⟨ho, beq_iff_eq.mpr hi⟩

/-- An attempt that is added is a fresh one. -/
theorem fresh_newAttempt (context : RecoveryContext) (id attemptNo : Nat)
    (previousId : Option UUID) :
    Fresh (RecoveryWorkflow.newAttempt context id attemptNo previousId) :=
  ⟨rfl, rfl, rfl, rfl⟩

/-- A fresh attempt is in flight. -/
theorem Fresh.inFlight {attempt : RecoveryPlan} (h : Fresh attempt) : attempt.inFlight = true :=
  inFlight_iff.mpr ⟨h.status, h.solverStatus⟩

/-- A run that starts with a reserved attempt has it in flight. -/
theorem held_reserved (l : Ledger) {run : Run} {attempt : RecoveryPlan} (hfresh : Fresh attempt)
    (hid : attempt.id = l.nextId) (hof : AttemptOf run attempt)
    (he : ∀ context, run.point ≠ .expanding context) :
    Held { l with
      attempts := l.attempts ++ [attempt]
      nextId := l.nextId + 1 } run where
  fresh := by
    rw [← hof.id, hid]
    exact Nat.lt_succ_self _
  inFlight _ :=
    ⟨attempt, List.mem_append_right _ (List.mem_singleton.mpr rfl), hof, hfresh.inFlight⟩
  expanding context hp := absurd hp (he context)

/-- A transaction that starts a run: others see moves, and the run has a new attempt. -/
structure Starts (l l' : Ledger) (run : Run) : Prop where
  moves : Moves none l l'
  held : Held l' run
  new : l.nextId ≤ run.attemptId

/-- Moves and then the reservation of an attempt for a run. -/
theorem starts_reserved {l l' : Ledger} {run : Run} {attempt : RecoveryPlan} (m : Moves none l l')
    (hnextId : l'.nextId = l.nextId) (hfresh : Fresh attempt) (hid : attempt.id = l'.nextId)
    (hnext : l'.Next attempt) (hidle : l'.Idle attempt.incidentId) (hof : AttemptOf run attempt)
    (he : ∀ context, run.point ≠ .expanding context) :
    Starts l { l' with
      attempts := l'.attempts ++ [attempt]
      nextId := l'.nextId + 1 } run where
  moves := m.tail (.reserve l' attempt hid hfresh hnext hidle)
  held := held_reserved l' hfresh hid hof he
  new := by rw [← hof.id, hid, hnextId]

/-- A further move behind a start. -/
theorem Starts.tail {l l' l'' : Ledger} {run : Run} (h : Starts l l' run) (hl : l.Sound)
    (m : Move none l' l'') : Starts l l'' run where
  moves := h.moves.tail m
  held := h.held.keep m.moves (h.moves.sound hl).numbered fun hn ↦ (by cases hn)
  new := h.new

/-- `RecoveryWorkflow.start` reserves the first attempt. -/
theorem start_moves (h : (ledgerOf db).Sound) {incidentId : UUID} {now : Instant} {run : Run}
    (hs : RecoveryWorkflow.start db incidentId now = .ok (db', run)) :
    Starts (ledgerOf db) (ledgerOf db') run := by
  obtain ⟨incident, hi, hs⟩ := bind_eq_ok.mp hs
  obtain ⟨hguards, hs⟩ := unit_bind_eq_ok.mp hs
  obtain ⟨context, hc, hs⟩ := bind_eq_ok.mp hs
  obtain ⟨reserved, hr, hs⟩ := bind_eq_ok.mp hs
  cases hs
  obtain ⟨-, rfl⟩ := addRecoveryPlan_ok hr
  have hof := contextOf_materialize h hc
  have hnone : (ledgerOf db).attemptsOf incidentId = [] := by
    rw [raiseFirst_cons_eq_ok, raiseFirst_cons_eq_ok, bne_eq_false_iff_eq] at hguards
    rw [← h.attempts_eq]
    exact hguards.2.1
  have hnext : (ledgerOf db).Next (RecoveryWorkflow.newAttempt context db.nextId 1 none) := by
    refine Ledger.next_first ?_ rfl rfl hof.ownerOf
    exact (congrArg _ hof.incidentId).trans hnone
  have hidle : (ledgerOf db).Idle context.incidentId := by
    intro attempt ha hai
    have hmem : attempt ∈ (ledgerOf db).attemptsOf incidentId :=
      List.mem_filter.mpr ⟨ha, beq_iff_eq.mpr (hai.trans hof.incidentId)⟩
    rw [hnone] at hmem
    cases hmem
  exact starts_reserved (.refl _) rfl (fresh_newAttempt ..) rfl hnext hidle
    ⟨rfl, hof.incidentId, rfl⟩ fun _ he ↦ (by cases he)

/-- How `closeAttempts` retires an attempt. -/
theorem retired_close (attempt : RecoveryPlan) :
    Retired attempt (RecoveryOptionsWorkflow.close attempt) where
  key := rfl
  candidate := rfl
  solverStatus := rfl
  status := .inl ⟨rfl, .reject, rfl, by decide⟩

/-- Closing pending attempts retires them. -/
theorem closeAttempts_moves {own : Option UUID} (closing : RecoveryPlan → Bool)
    (hpending : ∀ attempt ∈ db.recoveryPlans, closing attempt = true → attempt.isPending = true) :
    Moves own (ledgerOf db) (ledgerOf (RecoveryOptionsWorkflow.closeAttempts db closing)) := by
  rw [ledgerOf_closeAttempts]
  exact moves_retire _ retired_close hpending

/-- Closed attempts are not pending, and nothing else changes. -/
theorem mem_closeAttempts {closing : RecoveryPlan → Bool} {attempt : RecoveryPlan}
    (ha : attempt ∈ (RecoveryOptionsWorkflow.closeAttempts db closing).recoveryPlans) :
    (attempt.isPending = false ∧ attempt.inFlight = false) ∨
      (attempt ∈ db.recoveryPlans ∧ closing attempt = false) := by
  obtain ⟨old, hold, ⟨-, rfl⟩ | ⟨hc, rfl⟩⟩ := mem_updateWhere.mp ha
  · exact .inl ⟨rfl, rfl⟩
  · exact .inr ⟨hold, hc⟩

/-- Ledgers with the same keys have as many attempts of an incident. -/
theorem attemptsOf_length_of_keys {l l' : Ledger} (hk : l'.keys = l.keys) (incidentId : UUID) :
    (l'.attemptsOf incidentId).length = (l.attemptsOf incidentId).length := by
  have hmap := congrArg (fun k : Keys ↦ (k.attemptsOf incidentId).length) hk
  simpa [Ledger.keys_attemptsOf] using hmap

/-- Ledgers with the same keys have the same attempts, up to what can change of them. -/
theorem exists_attempt_of_keys {l l' : Ledger} (hk : l'.keys = l.keys) {attempt : RecoveryPlan}
    (ha : attempt ∈ l.attempts) : ∃ same ∈ l'.attempts, keyOf same = keyOf attempt := by
  have hmem : keyOf attempt ∈ l'.keys.attempts := by
    rw [hk]
    exact List.mem_map.mpr ⟨attempt, ha, rfl⟩
  exact List.mem_map.mp hmem

/-- Closing attempts keeps all keys. -/
theorem keys_closeAttempts (closing : RecoveryPlan → Bool) :
    (ledgerOf (RecoveryOptionsWorkflow.closeAttempts db closing)).keys = (ledgerOf db).keys := by
  rw [ledgerOf_closeAttempts,
    Ledger.keys_updateAttempts _ _ fun attempt ↦ (retired_close attempt).key, Ledger.keys_setPlans]

/-- `RecoveryOptionsWorkflow.start` closes what is pending and reserves an attempt. -/
theorem startOptions_moves (h : (ledgerOf db).Sound) {incidentId : UUID}
    {maxCandidates : CandidateLimit} {regenerate : Bool} {now : Instant} {run : Run}
    (hs : RecoveryOptionsWorkflow.start db incidentId maxCandidates regenerate now =
      .ok (db', run)) : Starts (ledgerOf db) (ledgerOf db') run := by
  obtain ⟨incident, hi, hs⟩ := bind_eq_ok.mp hs
  obtain ⟨hguards, hs⟩ := unit_bind_eq_ok.mp hs
  obtain ⟨context, hc, hs⟩ := bind_eq_ok.mp hs
  obtain ⟨reserved, hr, hs⟩ := bind_eq_ok.mp hs
  cases hs
  obtain ⟨-, rfl⟩ := addRecoveryPlan_ok hr
  have hof := contextOf_materialize h hc
  let closed := RecoveryOptionsWorkflow.closeAttempts db fun attempt ↦
    attempt.incidentId == incidentId && attempt.isPending
  have hclosed : Moves none (ledgerOf db) (ledgerOf closed) :=
    closeAttempts_moves _ fun attempt _ hc ↦ (Bool.and_eq_true_iff.mp hc).2
  have hkeys : (ledgerOf closed).keys = (ledgerOf db).keys := keys_closeAttempts _
  rw [raiseFirst_cons_eq_ok, List.any_eq_false] at hguards
  have hidle : (ledgerOf closed).Idle context.incidentId := by
    intro attempt ha hai
    rcases mem_closeAttempts ha with ⟨hp, hf⟩ | ⟨hmem, hopen⟩
    · exact ⟨hf, hp⟩
    · rw [hof.incidentId] at hai
      rw [hai, beq_self_eq_true, Bool.true_and] at hopen
      refine ⟨Bool.eq_false_iff.mpr (hguards.1 attempt ?_), hopen⟩
      rw [h.attempts_eq]
      exact List.mem_filter.mpr ⟨hmem, beq_iff_eq.mpr hai⟩
  have hnext : (ledgerOf closed).Next (RecoveryWorkflow.newAttempt context db.nextId
      ((db.attempts incidentId).getLast?.elim 1 (·.attemptNo + 1))
      ((db.attempts incidentId).getLast?.map (·.id))) := by
    have hlen := attemptsOf_length_of_keys hkeys incidentId
    rw [← hof.incidentId] at hlen
    cases hl : (db.attempts incidentId).getLast? with
    | none =>
      rw [List.getLast?_eq_none_iff, h.attempts_eq, ← hof.incidentId] at hl
      rw [hl, List.length_nil, List.length_eq_zero_iff] at hlen
      exact Ledger.next_first hlen rfl rfl hof.ownerOf
    | some last =>
      obtain ⟨hmem, hli, hno⟩ := h.getLast?_attempts hl
      obtain ⟨before, hb, hbk⟩ := exists_attempt_of_keys hkeys hmem
      have hbi : before.incidentId = context.incidentId :=
        (congrArg AttemptKey.incidentId hbk).trans (hli.trans hof.incidentId.symm)
      refine Ledger.next_later hb hbi ?_ rfl ?_ hof.ownerOf
      · rw [hno, ← hof.incidentId]
        exact hlen.symm
      · exact congrArg some (congrArg AttemptKey.id hbk).symm
  let run : Run := ⟨.options maxCandidates, incidentId, db.nextId,
    (db.attempts incidentId).getLast?.elim 1 (·.attemptNo + 1), .buffering context⟩
  have hrun : AttemptOf run (RecoveryWorkflow.newAttempt context db.nextId
    ((db.attempts incidentId).getLast?.elim 1 (·.attemptNo + 1))
    ((db.attempts incidentId).getLast?.map (·.id))) := ⟨rfl, hof.incidentId, rfl⟩
  have hstarts := starts_reserved hclosed rfl (fresh_newAttempt ..) rfl hnext hidle hrun
    fun _ he ↦ (by cases he)
  rw [ledgerOf_updateIncident_status]
  exact hstarts.tail h (.touch _ incidentId .replanning (by decide) hof.incidentOpen)

/-! ### Execution and reports -/

/-- A stop that moves on changes nothing that the ledger sees. -/
theorem ledgerOf_transition {thresholdSeconds : Int} {stopId : UUID} {expected target : StopStatus}
    {eventTime : Instant} {result : StopExecutionResult}
    (h : StopExecutionService.transition thresholdSeconds db stopId expected target eventTime =
      .ok (db', result)) : ledgerOf db' = ledgerOf db := by
  rcases StopExecutionService.transition_ok h with ⟨rfl, -⟩ | ⟨plan, route, stop, -, rfl⟩
  · rfl
  · have hheader : ∀ plan, headerOf (plan.updateRoute route.id
        (StopExecutionService.advanceRoute stop.id target eventTime)) = headerOf plan :=
      fun _ ↦ rfl
    exact ledgerOf_updatePlan db hheader plan.id

/-- Neither does an order that moves on. -/
theorem ledgerOf_advanceExecution {orderId : UUID} {target : OrderExecutionStatus}
    (h : Resources.advanceExecution db orderId target = .ok db') : ledgerOf db' = ledgerOf db := by
  obtain rfl | ⟨order, -, -, rfl⟩ := Resources.advanceExecution_ok h <;> rfl

/-- The CURRENT plan of a business date. -/
theorem currentPlan?_mem {businessDate : BusinessDate} {plan : DeliveryPlan}
    (h : db.currentPlan? businessDate = some plan) :
    plan ∈ db.plans ∧ plan.businessDate = businessDate ∧ plan.status = .current := by
  have hf := List.find?_some h
  rw [Bool.and_eq_true_iff, beq_iff_eq, beq_iff_eq] at hf
  exact ⟨List.mem_of_find?_eq_some h, hf⟩

/-- An incident that is added for a CURRENT plan. -/
theorem report_moves {own : Option UUID} (incident : Incident) (hid : incident.id = db.nextId)
    {plan : DeliveryPlan} (hp : plan ∈ db.plans) (hs : plan.status = .current)
    (hplan : incident.deliveryPlanId = plan.id) :
    Moves own (ledgerOf db) (ledgerOf { db with
      incidents := db.incidents ++ [incident]
      nextId := db.nextId + 1 }) := by
  have hmap : (db.incidents ++ [incident]).map incidentHeaderOf =
      (ledgerOf db).incidents ++ [incidentHeaderOf incident] := List.map_append
  have hreport : Move own _ _ := .report (ledgerOf db) (incidentHeaderOf incident) hid
    ⟨headerOf plan, headerOf_mem hp, hplan.symm, hs⟩
  rw [← hmap] at hreport
  exact hreport.moves

/-- A breakdown is reported on the CURRENT plan. -/
theorem reportUnavailable_moves {own : Option UUID} {businessDate : BusinessDate}
    {vehicleId : UUID} {eventTime : Instant}
    {location : VehicleIncidentWorkflow.BreakdownLocation} {incidentId : UUID}
    (h : VehicleIncidentWorkflow.reportUnavailable db businessDate vehicleId eventTime location =
      .ok (db', incidentId)) : Moves own (ledgerOf db) (ledgerOf db') := by
  obtain ⟨context, locationId, hread, -, -, -, rfl⟩ :=
    VehicleIncidentWorkflow.reportUnavailable_ok h
  obtain ⟨hmem, -, hs⟩ := currentPlan?_mem hread.plan
  exact report_moves (VehicleIncidentWorkflow.unavailableIncident db.nextId context locationId
    eventTime) rfl hmem hs rfl

/-- So is a delay, and a short one shifts the stops of that plan. -/
theorem assessDelay_moves {own : Option UUID} {thresholdSeconds : Int}
    {businessDate : BusinessDate} {merchantId : UUID} {updatedReadyAt eventTime : Instant}
    {explicitIncident : Bool} {incidentId : Option UUID}
    (h : MerchantDelayWorkflow.assessDelay thresholdSeconds db businessDate merchantId
      updatedReadyAt eventTime explicitIncident = .ok (db', incidentId)) :
    Moves own (ledgerOf db) (ledgerOf db') := by
  rcases MerchantDelayWorkflow.assessDelay_ok h with
    rfl | ⟨context, incident, hp, hid, hplan, -, -, rfl | rfl⟩
  · exact .refl _
  · obtain ⟨hmem, -, hs⟩ := currentPlan?_mem hp
    exact report_moves incident hid hmem hs hplan
  · obtain ⟨hmem, -, hs⟩ := currentPlan?_mem hp
    have hreport : Moves own _ _ := report_moves incident hid hmem hs hplan
    have hheader : ∀ plan, headerOf (MerchantDelayWorkflow.shiftPlan context updatedReadyAt plan) =
        headerOf plan := fun _ ↦ rfl
    rw [← ledgerOf_updatePlan { db with
      incidents := db.incidents ++ [incident]
      nextId := db.nextId + 1 } hheader context.plan.id] at hreport
    exact hreport

/-! ### Decisions -/

section

variable {recoveryId : UUID} {reviewable : Decisions.Reviewable}

/-- The rows of a locked attempt. -/
theorem locked_mem (hl : Decisions.Locked db recoveryId reviewable) :
    reviewable.recovery ∈ (ledgerOf db).attempts ∧ headerOf reviewable.base ∈ (ledgerOf db).plans ∧
      headerOf reviewable.candidate ∈ (ledgerOf db).plans ∧
      reviewable.base.id = reviewable.recovery.baseDeliveryPlanId ∧
      reviewable.incident.id = reviewable.recovery.incidentId :=
  ⟨(recoveryPlan?_mem hl.recovery).1, headerOf_mem (plan?_mem hl.base).1,
    headerOf_mem (plan?_mem hl.candidate).1, (plan?_mem hl.base).2, (incident?_mem hl.incident).2⟩

/-- A decision that does not approve retires its attempt. -/
theorem retired_setDecision {decision : DispatcherDecision} (hne : decision ≠ .approve)
    (attempt : RecoveryPlan) : Retired attempt (Decisions.setDecision decision attempt) where
  key := rfl
  candidate := rfl
  solverStatus := rfl
  status := .inl ⟨rfl, decision, rfl, hne⟩

/-- Such a decision cancels the candidate of its attempt. -/
theorem setDecision_moves {own : Option UUID} (h : (ledgerOf db).Sound)
    (hl : Decisions.Locked db recoveryId reviewable) (decision : DispatcherDecision)
    (hne : decision ≠ .approve) :
    Moves own (ledgerOf db) (((ledgerOf db).setPlans (· == reviewable.candidate.id)
      .cancelled).updateAttempts (·.id == reviewable.recovery.id)
        (Decisions.setDecision decision)) := by
  obtain ⟨hmem, -⟩ := locked_mem hl
  have hself : ∀ attempt ∈ (ledgerOf db).attempts,
      (attempt.id == reviewable.recovery.id) = true → attempt = reviewable.recovery :=
    fun attempt ha he ↦ Ledger.attempt_eq h.numbered ha hmem (eq_of_beq he)
  refine (Move.retire _ _ _ _ (retired_setDecision hne) ?_ ?_).moves
  · intro attempt ha he
    rw [hself attempt ha he]
    exact hl.pending
  · intro plan _
    rw [beq_iff_eq]
    constructor
    · intro hid
      refine ⟨reviewable.recovery, hmem, beq_self_eq_true _, ?_⟩
      rw [hid]
      exact hl.candidateId
    · rintro ⟨attempt, ha, he, hc⟩
      rw [hself attempt ha he, hl.candidateId, Option.some.injEq] at hc
      exact hc.symm

/-- The incident of a locked attempt is open. -/
theorem locked_open (h : (ledgerOf db).Sound) (hl : Decisions.Locked db recoveryId reviewable) :
    (ledgerOf db).Open reviewable.incident.id := by
  obtain ⟨hmem, -, -, -, hid⟩ := locked_mem hl
  rw [hid]
  exact h.reviewed.pendingOpen _ hmem hl.pending

/-- A rejection retires its attempt. -/
theorem applyRejection_moves {own : Option UUID} (h : (ledgerOf db).Sound)
    (hl : Decisions.Locked db recoveryId reviewable) :
    Moves own (ledgerOf db) (ledgerOf (Decisions.applyRejection db reviewable)) := by
  have hretired : Moves own _ _ := setDecision_moves h hl .reject (by decide)
  rw [Decisions.applyRejection, ledgerOf_updateRecoveryPlan, ledgerOf_updateIncident_status,
    ledgerOf_updatePlan_status]
  refine hretired.tail (.touch _ reviewable.incident.id _ ?_ (locked_open h hl))
  split <;> decide

/-- Without options nothing else of its incident is pending beside a pending attempt. -/
theorem pending_alone {l : Ledger} (h : l.Sound) {a b : RecoveryPlan} (ha : a ∈ l.attempts)
    (hb : b ∈ l.attempts) (hpa : a.isPending = true) (hpb : b.isPending = true)
    (hi : b.incidentId = a.incidentId) (hnone : a.options.isSome = false) : b = a := by
  rcases h.reviewed.oneBatch a ha b hb hpa hpb hi with he | ⟨hsome, -⟩
  · exact he.symm
  · rw [hnone] at hsome
    cases hsome

/-- A sibling of an attempt is pending and another one. -/
theorem isPendingSibling_iff {selected attempt : RecoveryPlan} :
    Decisions.isPendingSibling selected attempt = true ↔
      attempt.incidentId = selected.incidentId ∧ attempt.id ≠ selected.id ∧
        attempt.isPending = true := by
  rw [Decisions.isPendingSibling, Bool.and_eq_true_iff, Bool.and_eq_true_iff, beq_iff_eq,
    bne_iff_ne, and_assoc]

/-- Closing siblings retires them. -/
theorem closeSiblings_moves {own : Option UUID} (db : Database) (selected : RecoveryPlan) :
    Moves own (ledgerOf db) (ledgerOf (Decisions.closeSiblings db selected)) :=
  closeAttempts_moves _ fun _ _ hs ↦ (isPendingSibling_iff.mp hs).2.2

/-- The writes of a modification before its attempt is added. -/
theorem applyModification_moves {own : Option UUID} (h : (ledgerOf db).Sound)
    (hl : Decisions.Locked db recoveryId reviewable) :
    Moves own (ledgerOf db) (ledgerOf (Decisions.applyModification db reviewable)) := by
  have hretired : Moves own _ _ := setDecision_moves h hl .modify (by decide)
  rw [← ledgerOf_updatePlan_status, ← ledgerOf_updateRecoveryPlan] at hretired
  rw [Decisions.applyModification, ledgerOf_updateIncident_status]
  refine Moves.tail ?_ (.touch _ reviewable.incident.id .replanning (by decide) ?_)
  · split
    · exact hretired.trans (closeSiblings_moves _ _)
    · exact hretired
  · have hopen := locked_open h hl
    split <;> exact hopen

/-- A modification changes no key. -/
theorem keys_applyModification (db : Database) (reviewable : Decisions.Reviewable) :
    (ledgerOf (Decisions.applyModification db reviewable)).keys = (ledgerOf db).keys := by
  have hcancelled : (ledgerOf ((db.updatePlan reviewable.candidate.id fun plan ↦
      { plan with status := .cancelled }).updateRecoveryPlan reviewable.recovery.id
        (Decisions.setDecision .modify))).keys = (ledgerOf db).keys := by
    rw [ledgerOf_updateRecoveryPlan, ledgerOf_updatePlan_status,
      Ledger.keys_updateAttempts _ _ fun attempt ↦ (retired_setDecision (by decide) attempt).key,
      Ledger.keys_setPlans]
  rw [Decisions.applyModification, ledgerOf_updateIncident_status, Ledger.keys_setIncident]
  split
  · rw [Decisions.closeSiblings, keys_closeAttempts, hcancelled]
  · exact hcancelled

/-- After a modification nothing of its incident is pending. -/
theorem applyModification_not_pending (h : (ledgerOf db).Sound)
    (hl : Decisions.Locked db recoveryId reviewable) {attempt : RecoveryPlan}
    (ha : attempt ∈ (Decisions.applyModification db reviewable).recoveryPlans)
    (hi : attempt.incidentId = reviewable.recovery.incidentId) : attempt.isPending = false := by
  rw [Bool.eq_false_iff]
  intro hp
  have hupdated : ∀ {attempt : RecoveryPlan}, attempt.isPending = true →
      attempt ∈ updateWhere db.recoveryPlans (·.id == reviewable.recovery.id)
        (Decisions.setDecision .modify) →
      attempt ∈ db.recoveryPlans ∧ attempt.id ≠ reviewable.recovery.id := by
    intro attempt hp ha
    obtain ⟨old, hold, ⟨-, rfl⟩ | ⟨hc, rfl⟩⟩ := mem_updateWhere.mp ha
    · cases hp
    · exact ⟨hold, beq_eq_false_iff_ne.mp hc⟩
  rw [Decisions.applyModification] at ha
  cases ho : reviewable.recovery.options.isSome with
  | true =>
    rw [ho, if_pos rfl] at ha
    rcases mem_closeAttempts ha with ⟨hn, -⟩ | ⟨hmem, hs⟩
    · rw [hn] at hp
      cases hp
    · obtain ⟨-, hne⟩ := hupdated hp hmem
      exact Bool.eq_false_iff.mp hs (isPendingSibling_iff.mpr ⟨hi, hne, hp⟩)
  | false =>
    rw [ho, if_neg Bool.false_ne_true] at ha
    obtain ⟨hmem, hne⟩ := hupdated hp ha
    exact hne (congrArg RecoveryPlan.id
      (pending_alone h (locked_mem hl).1 hmem hl.pending hp hi ho))

/-- `modify` retires its attempt and its siblings and reserves an attempt. -/
theorem modify_moves (h : (ledgerOf db).Sound) {fingerprint : RecoveryContext → Nat}
    {reason : String} {run : Run}
    (hm : Decisions.modify fingerprint db recoveryId reason = .ok (db', run)) :
    Starts (ledgerOf db) (ledgerOf db') run := by
  obtain ⟨reviewable, scope, last, hl, -, hlast, -, hadd, hri, hra, hrn, hrp, -⟩ :=
    Decisions.modify_ok hm
  obtain ⟨-, rfl⟩ := addRecoveryPlan_ok hadd
  obtain ⟨hmem, -, -, hbase, hincident⟩ := locked_mem hl
  have hmoves : Moves none _ _ := applyModification_moves h hl
  have hkeys := keys_applyModification db reviewable
  have hnextId : (ledgerOf (Decisions.applyModification db reviewable)).nextId = db.nextId :=
    congrArg Keys.nextId hkeys
  obtain ⟨hlmem, hli, hlno⟩ := h.getLast?_attempts hlast
  have hrun : AttemptOf run (Decisions.modifiedAttempt db reviewable last scope) :=
    ⟨hra.symm, hri.symm, hrn.symm⟩
  refine starts_reserved hmoves hnextId ⟨rfl, rfl, rfl, rfl⟩ hnextId.symm ?_ ?_ hrun ?_
  · obtain ⟨before, hb, hbk⟩ := exists_attempt_of_keys hkeys hmem
    have hbi : before.incidentId = reviewable.incident.id :=
      (congrArg AttemptKey.incidentId hbk).trans hincident.symm
    refine Ledger.next_later hb hbi ?_ rfl ?_ ?_
    · exact hlno.trans (attemptsOf_length_of_keys hkeys _).symm
    · exact congrArg some (congrArg AttemptKey.id hbk).symm
    · have hrow : (reviewable.incident.id, reviewable.base.id) ∈ (ledgerOf db).keys.incidents := by
        rw [← hl.incidentPlan]
        exact List.mem_map.mpr ⟨_, incidentHeaderOf_mem (incident?_mem hl.incident).1, rfl⟩
      rw [← hkeys] at hrow
      obtain ⟨row, hrow, he⟩ := List.mem_map.mp hrow
      exact ⟨row, hrow, congrArg Prod.fst he, congrArg Prod.snd he⟩
  · intro attempt ha hai
    have hai' : attempt.incidentId = reviewable.recovery.incidentId := hai.trans hincident
    refine ⟨Bool.eq_false_iff.mpr fun hf ↦ ?_, applyModification_not_pending h hl ha hai'⟩
    rcases hmoves.inFlight_mem h.numbered h.reviewed ha hf with hold | hnew
    · have hnot := h.reviewed.not_pending_of_inFlight hold hmem hf hai'.symm
      rw [hl.pending] at hnot
      cases hnot
    · have hlt := (hmoves.sound h).numbered.attemptsFresh (keyOf attempt)
        (List.mem_map.mpr ⟨attempt, ha, rfl⟩)
      exact absurd hnew (Nat.not_le.mpr (Nat.lt_of_lt_of_eq hlt hnextId))
  · intro context he
    rw [hrp] at he
    cases he

/-- The ledger behind an approval of an attempt that has no pending siblings. -/
def approvedLedger (l : Ledger) (reviewable : Decisions.Reviewable) : Ledger :=
  (((l.setPlans (· == reviewable.base.id) .superseded).setPlans
    (· == reviewable.candidate.id) .current).setIncident reviewable.incident.id
      .resolved).updateAttempts (·.id == reviewable.recovery.id) (Decisions.setDecision .approve)

/-- A ledger in which a locked attempt is the only pending one of its incident. -/
structure Alone (l : Ledger) (reviewable : Decisions.Reviewable) : Prop where
  recovery : reviewable.recovery ∈ l.attempts
  base : headerOf reviewable.base ∈ l.plans
  candidate : headerOf reviewable.candidate ∈ l.plans
  only : ∀ other ∈ l.attempts, other.incidentId = reviewable.recovery.incidentId →
    other.isPending = true → other = reviewable.recovery

/-- Such an attempt can be approved. -/
theorem Alone.moves {own : Option UUID} (hl : Decisions.Locked db recoveryId reviewable)
    {l : Ledger} (ha : Alone l reviewable) : Moves own l (approvedLedger l reviewable) := by
  obtain ⟨-, -, -, hbase, hincident⟩ := locked_mem hl
  have happrove : Move own _ _ := .approve l reviewable.recovery (headerOf reviewable.base)
    (headerOf reviewable.candidate) ha.recovery hl.pending ha.only
    ⟨ha.base, hbase, hl.baseCurrent⟩ ⟨ha.candidate, hl.candidateId⟩ hl.columns.2.2
  rw [← hincident] at happrove
  exact happrove.moves

/-- The candidate of a sibling is neither the base nor the candidate of an attempt. -/
theorem sibling_candidate (h : (ledgerOf db).Sound)
    (hl : Decisions.Locked db recoveryId reviewable) {id : UUID}
    (hs : candidatesOf db.recoveryPlans (Decisions.isPendingSibling reviewable.recovery) id =
      true) : id ≠ reviewable.base.id ∧ id ≠ reviewable.candidate.id := by
  obtain ⟨attempt, ha, hs, hc⟩ := candidatesOf_iff.mp hs
  obtain ⟨hi, hne, hp⟩ := isPendingSibling_iff.mp hs
  obtain ⟨hmem, hb, -⟩ := locked_mem hl
  constructor
  · intro he
    obtain ⟨-, -, -, plan, hplan, hpid, hps, -⟩ := (h.reviewed.shaped attempt ha).pending hp
    rw [hc, he, Option.some.injEq] at hpid
    have hsame := Ledger.plan_eq h.numbered hb hplan hpid
    rw [← hsame] at hps
    have hcurrent : (headerOf reviewable.base).status = .current := hl.baseCurrent
    rw [hps] at hcurrent
    cases hcurrent
  · intro he
    rw [he] at hc
    exact hne (congrArg RecoveryPlan.id
      (h.reviewed.ownCandidate attempt ha _ hmem _ hc hl.candidateId))

/-- Closing the siblings after an approval or before it comes to the same. -/
theorem closeSiblings_comm (h : (ledgerOf db).Sound)
    (hl : Decisions.Locked db recoveryId reviewable) {approved : Database}
    (happroved : ledgerOf approved = approvedLedger (ledgerOf db) reviewable) :
    ledgerOf (Decisions.closeSiblings approved reviewable.recovery) =
      approvedLedger (ledgerOf (Decisions.closeSiblings db reviewable.recovery)) reviewable := by
  have hattempts : approved.recoveryPlans = updateWhere db.recoveryPlans
      (·.id == reviewable.recovery.id) (Decisions.setDecision .approve) :=
    congrArg Ledger.attempts happroved
  have hself : ∀ attempt : RecoveryPlan, (attempt.id == reviewable.recovery.id) = true →
      Decisions.isPendingSibling reviewable.recovery attempt = false := by
    intro attempt he
    rw [Bool.eq_false_iff]
    exact fun hs ↦ (isPendingSibling_iff.mp hs).2.1 (eq_of_beq he)
  have hcandidates : candidatesOf approved.recoveryPlans
      (Decisions.isPendingSibling reviewable.recovery) =
      candidatesOf db.recoveryPlans (Decisions.isPendingSibling reviewable.recovery) := by
    funext id
    rw [candidatesOf, hattempts, filter_updateWhere_of_false]
    · rfl
    · exact fun attempt _ he ↦ ⟨hself attempt he, hself _ he⟩
  have hplans : ∀ plans status id, (∀ plan ∈ plans,
      candidatesOf db.recoveryPlans (Decisions.isPendingSibling reviewable.recovery)
        plan.id = true → plan.id ≠ id) →
      updateWhere (updateWhere plans (·.id == id) fun plan : PlanHeader ↦
          { plan with status := status })
        (fun plan ↦ candidatesOf db.recoveryPlans
          (Decisions.isPendingSibling reviewable.recovery) plan.id)
        (fun plan ↦ { plan with status := .cancelled }) =
      updateWhere (updateWhere plans
          (fun plan ↦ candidatesOf db.recoveryPlans
            (Decisions.isPendingSibling reviewable.recovery) plan.id)
          fun plan ↦ { plan with status := .cancelled })
        (·.id == id) fun plan ↦ { plan with status := status } := by
    intro plans status id hne
    refine updateWhere_comm ?_ ?_
    · intro plan hplan he
      rw [and_self, Bool.eq_false_iff]
      exact fun hs ↦ hne plan hplan hs (eq_of_beq he)
    · intro plan hplan hs
      exact beq_false_of_ne (hne plan hplan hs)
  rw [Decisions.closeSiblings, Decisions.closeSiblings, ledgerOf_closeAttempts,
    ledgerOf_closeAttempts, happroved, hcandidates]
  simp only [approvedLedger, Ledger.setPlans, Ledger.setIncident, Ledger.updateAttempts,
    Ledger.mk.injEq, and_true, true_and]
  constructor
  · rw [hplans _ _ _ fun plan _ hs ↦ (sibling_candidate h hl hs).2,
      hplans _ _ _ fun plan _ hs ↦ (sibling_candidate h hl hs).1]
  · refine updateWhere_comm (fun attempt _ he ↦ ⟨hself attempt he, hself _ he⟩) ?_
    exact fun attempt _ hs ↦ beq_false_of_ne (isPendingSibling_iff.mp hs).2.1

/-- An approval retires the siblings of its attempt and approves it. -/
theorem applyApproval_moves {own : Option UUID} (h : (ledgerOf db).Sound)
    (hl : Decisions.Locked db recoveryId reviewable) :
    Moves own (ledgerOf db) (ledgerOf (Decisions.applyApproval db reviewable)) := by
  obtain ⟨hmem, hb, hc, -⟩ := locked_mem hl
  have happroved : ledgerOf ((((db.updatePlan reviewable.base.id fun plan ↦
      { plan with status := .superseded }).updatePlan reviewable.candidate.id fun plan ↦
        { plan with status := .current }).updateIncident reviewable.incident.id fun incident ↦
          { incident with status := .resolved }).updateRecoveryPlan reviewable.recovery.id
            (Decisions.setDecision .approve)) = approvedLedger (ledgerOf db) reviewable := by
    rw [ledgerOf_updateRecoveryPlan, ledgerOf_updateIncident_status, ledgerOf_updatePlan_status,
      ledgerOf_updatePlan_status]
    rfl
  rw [Decisions.applyApproval]
  cases ho : reviewable.recovery.options.isSome with
  | true =>
    rw [if_pos rfl, closeSiblings_comm h hl happroved]
    refine (closeSiblings_moves db reviewable.recovery).trans (Alone.moves hl ⟨?_, ?_, ?_, ?_⟩)
    · refine mem_updateWhere_of_false hmem (Bool.eq_false_iff.mpr fun hs ↦ ?_)
      exact (isPendingSibling_iff.mp hs).2.1 rfl
    · rw [Decisions.closeSiblings, ledgerOf_closeAttempts]
      exact Ledger.mem_setPlans_of_false hb
        (Bool.eq_false_iff.mpr fun hs ↦ (sibling_candidate h hl hs).1 rfl)
    · rw [Decisions.closeSiblings, ledgerOf_closeAttempts]
      exact Ledger.mem_setPlans_of_false hc
        (Bool.eq_false_iff.mpr fun hs ↦ (sibling_candidate h hl hs).2 rfl)
    · intro other hother hi hp
      rcases mem_closeAttempts hother with ⟨hn, -⟩ | ⟨hold, hs⟩
      · rw [hn] at hp
        cases hp
      · by_contra hne
        refine Bool.eq_false_iff.mp hs (isPendingSibling_iff.mpr ⟨hi, fun he ↦ hne ?_, hp⟩)
        exact Ledger.attempt_eq h.numbered hold hmem he
  | false =>
    rw [if_neg Bool.false_ne_true, happroved]
    refine Alone.moves hl ⟨hmem, hb, hc, ?_⟩
    exact fun other hother hi hp ↦ pending_alone h hmem hother hl.pending hp hi ho

/-- A decision is a series of moves. -/
theorem decide_moves {own : Option UUID} (h : (ledgerOf db).Sound) {services : Services}
    {fingerprint : RecoveryContext → Nat} {decision : DispatcherDecision} {reason : String}
    {now : Instant}
    (hd : Decisions.decide services fingerprint db recoveryId decision reason now = .ok db') :
    Moves own (ledgerOf db) (ledgerOf db') := by
  obtain ⟨reviewable, hl, ⟨-, -, -, -, rfl⟩ | ⟨-, rfl⟩⟩ := Decisions.decide_ok hd
  · exact applyApproval_moves h hl
  · exact applyRejection_moves h hl

end

end PenroseRoute.Lifecycle
