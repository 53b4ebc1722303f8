import PenroseRoute.Decisions.Snapshot
import PenroseRoute.Recovery.Options

/-!
# Dispatcher decisions

Models `DeterministicDecisionService` of `backend/app/modules/decisions/service.py`. A
transaction that raises leaves the database as it was; audit columns (reason, reviewer, review
time) and the returned views are read by nothing that is modelled and are left out.
-/

namespace PenroseRoute.Decisions

open PenroseRoute.Db PenroseRoute.Lib PenroseRoute.Recovery PenroseRoute.Incidents
open RecoveryOptionsWorkflow (closeAttempts)

/-- The characters that `str.strip` removes. -/
def isSpace (c : Char) : Bool :=
  (9 ≤ c.toNat && c.toNat ≤ 13) || (28 ≤ c.toNat && c.toNat ≤ 32) ||
    (0x2000 ≤ c.toNat && c.toNat ≤ 0x200a) ||
    [0x85, 0xa0, 0x1680, 0x2028, 0x2029, 0x202f, 0x205f, 0x3000].contains c.toNat

/-- `not reason.strip()`. -/
def isBlank (reason : String) : Bool := reason.toList.all isSpace

/-- The rows that `_lock_reviewable` returns. -/
structure Reviewable where
  recovery : RecoveryPlan
  base : DeliveryPlan
  candidate : DeliveryPlan
  incident : Incident
  deriving DecidableEq, Repr

/-- The candidate is one that `service.py:306` lets through. -/
def candidateReviewable (recovery : RecoveryPlan) (base candidate : DeliveryPlan) : Bool :=
  candidate.status == .candidate && candidate.validationStatus == .valid &&
    candidate.parentPlanId == some base.id && candidate.businessDate == base.businessDate &&
    candidate.planGroupId == base.planGroupId && recovery.solverStatus == some .feasible &&
    recovery.validationStatus == some .valid

/-- The facts of an option have not changed since its batch, `service.py:347`. -/
def validateOptionFacts (fingerprint : RecoveryContext → Nat) (db : Database)
    (recovery : RecoveryPlan) (incident : Incident) : Except AppError Unit :=
  match recovery.options with
  | none => .ok ()
  | some option => do
    let context ← materializeRecoveryContext db incident.id recovery.replanningScope
      option.operationalTime
    raiseFirst [(fingerprint context != option.contextFingerprint,
      .conflict "RECOVERY_CONTEXT_CHANGED")]

/-- `_lock_reviewable`, `service.py:271`. -/
def lockReviewable (fingerprint : RecoveryContext → Nat) (db : Database) (recoveryId : UUID)
    (validateFacts : Bool) : Except AppError Reviewable := do
  let recovery ← orRaise (db.recoveryPlan? recoveryId) (.notFound "RECOVERY_NOT_FOUND")
  raiseFirst [
    (recovery.status == .decided, .conflict "RECOVERY_ALREADY_DECIDED"),
    (!recovery.isPending, .conflict "RECOVERY_NOT_REVIEWABLE")]
  let base ← orRaise
    ((db.plan? recovery.baseDeliveryPlanId).filter fun base ↦ base.status == .current &&
      (db.currentPlan? base.businessDate).any (·.id == base.id))
    (.conflict "BASE_PLAN_NOT_CURRENT")
  let candidate ← orRaise
    ((recovery.candidateDeliveryPlanId.bind db.plan?).filter (candidateReviewable recovery base))
    (.conflict "CANDIDATE_PLAN_INVALID")
  let incident ← orRaise
    ((db.incident? recovery.incidentId).filter (·.deliveryPlanId == base.id))
    (.conflict "BASE_PLAN_NOT_CURRENT")
  raiseFirst [(!snapshotConsistent base candidate, .conflict "CANDIDATE_PLAN_INVALID")]
  if validateFacts then
    validateOptionFacts fingerprint db recovery incident
  return { recovery, base, candidate, incident }

/-- What `_lock_reviewable` has found and checked. -/
structure Locked (db : Database) (recoveryId : UUID) (reviewable : Reviewable) : Prop where
  recovery : db.recoveryPlan? recoveryId = some reviewable.recovery
  pending : reviewable.recovery.isPending = true
  base : db.plan? reviewable.recovery.baseDeliveryPlanId = some reviewable.base
  baseCurrent : reviewable.base.status = .current
  candidateId : reviewable.recovery.candidateDeliveryPlanId = some reviewable.candidate.id
  candidate : db.plan? reviewable.candidate.id = some reviewable.candidate
  admissible :
    candidateReviewable reviewable.recovery reviewable.base reviewable.candidate = true
  incident : db.incident? reviewable.recovery.incidentId = some reviewable.incident
  incidentPlan : reviewable.incident.deliveryPlanId = reviewable.base.id
  snapshot : snapshotConsistent reviewable.base reviewable.candidate = true

/-- The rows of a reviewable attempt are those that were locked, and its facts were validated. -/
theorem lockReviewable_ok {fingerprint : RecoveryContext → Nat} {db : Database}
    {recoveryId : UUID} {validateFacts : Bool} {reviewable : Reviewable}
    (h : lockReviewable fingerprint db recoveryId validateFacts = .ok reviewable) :
    Locked db recoveryId reviewable ∧ (validateFacts = true →
      validateOptionFacts fingerprint db reviewable.recovery reviewable.incident = .ok ()) := by
  obtain ⟨recovery, hr, h⟩ := bind_eq_ok.mp h
  obtain ⟨hs, h⟩ := unit_bind_eq_ok.mp h
  obtain ⟨base, hb, h⟩ := bind_eq_ok.mp h
  obtain ⟨candidate, hc, h⟩ := bind_eq_ok.mp h
  obtain ⟨incident, hi, h⟩ := bind_eq_ok.mp h
  obtain ⟨hsnapshot, h⟩ := unit_bind_eq_ok.mp h
  rw [orRaise_eq_ok] at hr hb hc hi
  rw [Option.filter_eq_some_iff] at hb hc hi
  rw [raiseFirst_cons_eq_ok, raiseFirst_cons_eq_ok, Bool.not_eq_false'] at hs
  rw [raiseFirst_cons_eq_ok, Bool.not_eq_false'] at hsnapshot
  obtain ⟨candidateId, hid, hrow⟩ := Option.bind_eq_some_iff.mp hc.1
  have hcid : candidate.id = candidateId := eq_of_beq (List.find?_some hrow :)
  subst hcid
  have hlocked : Locked db recoveryId ⟨recovery, base, candidate, incident⟩ :=
    { recovery := hr
      pending := hs.2.1
      base := hb.1
      baseCurrent := eq_of_beq (Bool.and_eq_true_iff.mp hb.2).1
      candidateId := hid
      candidate := hrow
      admissible := hc.2
      incident := hi.1
      incidentPlan := eq_of_beq hi.2
      snapshot := hsnapshot.1 }
  split at h
  · obtain ⟨hfacts, h⟩ := unit_bind_eq_ok.mp h
    cases h
    exact ⟨hlocked, fun _ ↦ hfacts⟩
  · next hv =>
    cases h
    exact ⟨hlocked, fun hv' ↦ absurd hv' hv⟩

/-- What the columns of a candidate say that is let through. -/
theorem Locked.columns {db : Database} {recoveryId : UUID} {reviewable : Reviewable}
    (h : Locked db recoveryId reviewable) : reviewable.candidate.status = .candidate ∧
      reviewable.candidate.parentPlanId = some reviewable.base.id ∧
      reviewable.candidate.businessDate = reviewable.base.businessDate := by
  have hr := h.admissible
  simp only [candidateReviewable, Bool.and_eq_true_iff, beq_iff_eq] at hr
  exact ⟨hr.1.1.1.1.1.1, hr.1.1.1.1.2, hr.1.1.1.2⟩

/-- The schedule of an option still holds at the time of its approval, `service.py:124`. -/
def validateSchedule (services : Services) (db : Database) (reviewable : Reviewable)
    (now : Instant) : Except AppError Unit :=
  match reviewable.recovery.options with
  | none => .ok ()
  | some option => do
    let context ← materializeRecoveryContext db reviewable.incident.id
      reviewable.recovery.replanningScope option.operationalTime
    let deadline ← reviewDeadline services context reviewable.candidate
    raiseFirst [(now > deadline || reviewable.candidate.routes.any fun route ↦
      (openNewStops route).any (·.plannedArrivalAt < now), .conflict "CANDIDATE_SCHEDULE_STALE")]

/-- A decided attempt. -/
def setDecision (decision : DispatcherDecision) (attempt : RecoveryPlan) : RecoveryPlan :=
  { attempt with status := .decided, dispatcherDecision := some decision }

/-- The `_pending_siblings` of an attempt, `service.py:367`. -/
def isPendingSibling (selected : RecoveryPlan) (attempt : RecoveryPlan) : Bool :=
  attempt.incidentId == selected.incidentId && attempt.id != selected.id && attempt.isPending

/-- `_close_siblings`, `service.py:376`. -/
def closeSiblings (db : Database) (selected : RecoveryPlan) : Database :=
  closeAttempts db (isPendingSibling selected)

/-- The writes of an approval, `service.py:141`. -/
def applyApproval (db : Database) (reviewable : Reviewable) : Database :=
  let activated := ((db.updatePlan reviewable.base.id fun plan ↦
      { plan with status := .superseded }).updatePlan reviewable.candidate.id fun plan ↦
        { plan with status := .current }).updateIncident reviewable.incident.id fun incident ↦
          { incident with status := .resolved }
  let decided := activated.updateRecoveryPlan reviewable.recovery.id (setDecision .approve)
  if reviewable.recovery.options.isSome then closeSiblings decided reviewable.recovery
  else decided

/-- The writes of a rejection, `service.py:149`. -/
def applyRejection (db : Database) (reviewable : Reviewable) : Database :=
  let status : IncidentStatus :=
    if reviewable.recovery.options.isSome &&
        db.recoveryPlans.any (isPendingSibling reviewable.recovery) then .review
    else .assessing
  ((db.updatePlan reviewable.candidate.id fun plan ↦
      { plan with status := .cancelled }).updateIncident reviewable.incident.id fun incident ↦
        { incident with status := status }).updateRecoveryPlan reviewable.recovery.id
          (setDecision .reject)

/-- `decide`, `service.py:108`, with the time of the decision. An approval is followed by
`refreshAlertsForBusinessDate`, a transaction of its own. -/
def decide (services : Services) (fingerprint : RecoveryContext → Nat) (db : Database)
    (recoveryId : UUID) (decision : DispatcherDecision) (reason : String) (now : Instant) :
    Except AppError Database := do
  raiseFirst [(decision == .modify || isBlank reason, .business "DECISION_INVALID")]
  let reviewable ← lockReviewable fingerprint db recoveryId (decision == .approve)
  if decision = .approve then
    raiseFirst [(now < reviewable.incident.detectedAt, .conflict "INCIDENT_NOT_OCCURRED_YET")]
    validateSchedule services db reviewable now
    return applyApproval db reviewable
  else return applyRejection db reviewable

/-- A decision locks its rows and writes either an approval or a rejection. -/
theorem decide_ok {services : Services} {fingerprint : RecoveryContext → Nat}
    {db db' : Database} {recoveryId : UUID} {decision : DispatcherDecision} {reason : String}
    {now : Instant}
    (h : decide services fingerprint db recoveryId decision reason now = .ok db') :
    ∃ reviewable, Locked db recoveryId reviewable ∧
      ((decision = .approve ∧
          validateOptionFacts fingerprint db reviewable.recovery reviewable.incident = .ok () ∧
          reviewable.incident.detectedAt ≤ now ∧
          validateSchedule services db reviewable now = .ok () ∧
          db' = applyApproval db reviewable) ∨
        (decision = .reject ∧ db' = applyRejection db reviewable)) := by
  obtain ⟨hg, h⟩ := unit_bind_eq_ok.mp h
  obtain ⟨reviewable, hl, h⟩ := bind_eq_ok.mp h
  obtain ⟨hlocked, hfacts⟩ := lockReviewable_ok hl
  refine ⟨reviewable, hlocked, ?_⟩
  split at h
  · next hd =>
    obtain ⟨ht, h⟩ := unit_bind_eq_ok.mp h
    obtain ⟨hschedule, h⟩ := unit_bind_eq_ok.mp h
    cases h
    rw [raiseFirst_cons_eq_ok, decide_eq_false_iff_not, Int.not_lt] at ht
    exact .inl ⟨hd, hfacts (beq_iff_eq.mpr hd), ht.1, hschedule, rfl⟩
  · next hd =>
    cases h
    rw [raiseFirst_cons_eq_ok, Bool.or_eq_false_iff, beq_eq_false_iff_ne] at hg
    cases decision with
    | approve => exact absurd rfl hd
    | reject => exact .inr ⟨rfl, rfl⟩
    | modify => exact absurd rfl hg.1.1

/-- The attempt that a modification asks for, `service.py:220`. -/
def modifiedAttempt (db : Database) (reviewable : Reviewable) (last : RecoveryPlan)
    (scope : ReplanningScope) : RecoveryPlan where
  id := db.nextId
  incidentId := reviewable.incident.id
  attemptNo := last.attemptNo + 1
  previousRecoveryPlanId := some reviewable.recovery.id
  baseDeliveryPlanId := reviewable.base.id
  candidateDeliveryPlanId := none
  status := .draft
  replanningScope := scope
  solverStatus := none
  validationStatus := none
  dispatcherDecision := none
  options := none

/-- The writes of a modification before its new attempt is added, `service.py:211`. -/
def applyModification (db : Database) (reviewable : Reviewable) : Database :=
  let cancelled := (db.updatePlan reviewable.candidate.id fun plan ↦
    { plan with status := .cancelled }).updateRecoveryPlan reviewable.recovery.id
      (setDecision .modify)
  let closed :=
    if reviewable.recovery.options.isSome then closeSiblings cancelled reviewable.recovery
    else cancelled
  closed.updateIncident reviewable.incident.id fun incident ↦
    { incident with status := .replanning }

/-- The default `max_candidates`, `options.py:89`, of the workflow that `modify` resumes. -/
def defaultCandidates : CandidateLimit := ⟨3, by decide⟩

/-- The transaction of `modify`, `service.py:195`; the run is the `resume` that follows it. -/
def modify (fingerprint : RecoveryContext → Nat) (db : Database) (recoveryId : UUID)
    (reason : String) : Except AppError (Database × Run) := do
  raiseFirst [(isBlank reason, .business "DECISION_INVALID")]
  let reviewable ← lockReviewable fingerprint db recoveryId false
  let scope ← orRaise (nextReplanningScope reviewable.recovery.replanningScope)
    (.conflict "RECOVERY_SCOPE_EXHAUSTED")
  let last ← orRaise (db.attempts reviewable.incident.id).getLast? (.uncaught "IndexError")
  raiseFirst [(reviewable.recovery.options.isNone && last.id != reviewable.recovery.id,
    .conflict "RECOVERY_ALREADY_DECIDED")]
  let attempt := modifiedAttempt db reviewable last scope
  let added ← RecoveryWorkflow.addRecoveryPlan (applyModification db reviewable) attempt
  return (added, {
    workflow :=
      if reviewable.recovery.options.isSome then .options defaultCandidates else .single
    incidentId := reviewable.incident.id
    attemptId := attempt.id
    attemptNo := attempt.attemptNo
    point := .resuming })

/-- A modification locks its rows, writes them, and reserves an attempt that a run resumes. -/
theorem modify_ok {fingerprint : RecoveryContext → Nat} {db db' : Database} {recoveryId : UUID}
    {reason : String} {run : Run} (h : modify fingerprint db recoveryId reason = .ok (db', run)) :
    ∃ reviewable scope last, Locked db recoveryId reviewable ∧
      nextReplanningScope reviewable.recovery.replanningScope = some scope ∧
      (db.attempts reviewable.incident.id).getLast? = some last ∧
      (reviewable.recovery.options = none → last.id = reviewable.recovery.id) ∧
      RecoveryWorkflow.addRecoveryPlan (applyModification db reviewable)
        (modifiedAttempt db reviewable last scope) = .ok db' ∧
      run.incidentId = reviewable.incident.id ∧ run.attemptId = db.nextId ∧
      run.attemptNo = last.attemptNo + 1 ∧ run.point = .resuming ∧
      run.workflow =
        if reviewable.recovery.options.isSome then .options defaultCandidates else .single := by
  obtain ⟨-, h⟩ := unit_bind_eq_ok.mp h
  obtain ⟨reviewable, hl, h⟩ := bind_eq_ok.mp h
  obtain ⟨scope, hs, h⟩ := bind_eq_ok.mp h
  obtain ⟨last, hlast, h⟩ := bind_eq_ok.mp h
  obtain ⟨hg, h⟩ := unit_bind_eq_ok.mp h
  obtain ⟨added, ha, h⟩ := bind_eq_ok.mp h
  cases h
  rw [orRaise_eq_ok] at hs hlast
  refine ⟨reviewable, scope, last, (lockReviewable_ok hl).1, hs, hlast, ?_, ha, rfl, rfl, rfl, rfl,
    rfl⟩
  intro hnone
  rw [raiseFirst_cons_eq_ok, hnone, Option.isNone_none, Bool.true_and,
    bne_eq_false_iff_eq] at hg
  exact hg.1

end PenroseRoute.Decisions
