import PenroseRoute.Db.Database
import PenroseRoute.Recovery.Workflow

/-!
# The ledger of recoveries

What the lifecycle of recovery attempts is about, without routes, stops and resources: which
plans, incidents and attempts there are, in which status, and the moves that the transactions
of the three services are made of. A move of a run on its own attempt names that attempt.
-/

namespace PenroseRoute.Lifecycle

open PenroseRoute.Db PenroseRoute.Lib

/-- What the ledger sees of a plan. -/
structure PlanHeader where
  id : UUID
  status : DeliveryPlanStatus
  businessDate : BusinessDate
  parentPlanId : Option UUID
  deriving DecidableEq, Repr

/-- What the ledger sees of an incident. -/
structure IncidentHeader where
  id : UUID
  status : IncidentStatus
  deliveryPlanId : UUID
  deriving DecidableEq, Repr

/-- The ledger. -/
structure Ledger where
  plans : List PlanHeader
  incidents : List IncidentHeader
  attempts : List RecoveryPlan
  nextId : UUID
  deriving DecidableEq, Repr

/-- What never changes of an attempt. -/
structure AttemptKey where
  id : UUID
  incidentId : UUID
  attemptNo : Nat
  previousRecoveryPlanId : Option UUID
  baseDeliveryPlanId : UUID
  deriving DecidableEq, Repr

/-- What never changes of an attempt. -/
def keyOf (attempt : RecoveryPlan) : AttemptKey where
  id := attempt.id
  incidentId := attempt.incidentId
  attemptNo := attempt.attemptNo
  previousRecoveryPlanId := attempt.previousRecoveryPlanId
  baseDeliveryPlanId := attempt.baseDeliveryPlanId

namespace Ledger

/-- The attempts of an incident. -/
def attemptsOf (l : Ledger) (incidentId : UUID) : List RecoveryPlan :=
  l.attempts.filter (·.incidentId == incidentId)

/-- How many attempts of an incident wait for a dispatcher. -/
def pendingCount (l : Ledger) (incidentId : UUID) : Nat :=
  l.attempts.countP fun attempt ↦ attempt.incidentId == incidentId && attempt.isPending

/-- A plan has a status. -/
def HasPlan (l : Ledger) (id : UUID) (status : DeliveryPlanStatus) : Prop :=
  ∃ plan ∈ l.plans, plan.id = id ∧ plan.status = status

/-- Put the plans with some ids into a status. -/
def setPlans (l : Ledger) (ids : UUID → Bool) (status : DeliveryPlanStatus) : Ledger :=
  { l with plans := updateWhere l.plans (fun plan ↦ ids plan.id) fun plan ↦
    { plan with status := status } }

/-- Put an incident into a status. -/
def setIncident (l : Ledger) (id : UUID) (status : IncidentStatus) : Ledger :=
  { l with incidents := updateWhere l.incidents (·.id == id) fun incident ↦
    { incident with status := status } }

/-- Rewrite some attempts. -/
def updateAttempts (l : Ledger) (cond : RecoveryPlan → Bool) (f : RecoveryPlan → RecoveryPlan) :
    Ledger :=
  { l with attempts := updateWhere l.attempts cond f }

end Ledger

/-- An attempt that has just been reserved. -/
structure Fresh (attempt : RecoveryPlan) : Prop where
  status : attempt.status = .draft
  solverStatus : attempt.solverStatus = none
  candidate : attempt.candidateDeliveryPlanId = none
  decision : attempt.dispatcherDecision = none

/-- An attempt that owns a candidate: it waits for a dispatcher, or it was filtered and its
candidate is cancelled. -/
structure Filled (attempt : RecoveryPlan) (plan : PlanHeader) : Prop where
  candidate : attempt.candidateDeliveryPlanId = some plan.id
  solverStatus : attempt.solverStatus = some .feasible
  validationStatus : attempt.validationStatus = some .valid
  decision : attempt.dispatcherDecision = none
  parent : plan.parentPlanId = some attempt.baseDeliveryPlanId
  status : (attempt.status = .pendingReview ∧ plan.status = .candidate) ∨
    (attempt.status = .draft ∧ plan.status = .cancelled)

/-- The incident of an attempt can still be recovered. -/
def Ledger.Open (l : Ledger) (incidentId : UUID) : Prop :=
  ∀ incident ∈ l.incidents, incident.id = incidentId → incident.status ≠ .resolved

/-- Nothing of an incident is in flight or pending. -/
def Ledger.Idle (l : Ledger) (incidentId : UUID) : Prop :=
  ∀ attempt ∈ l.attempts, attempt.incidentId = incidentId →
    attempt.inFlight = false ∧ attempt.isPending = false

/-- The number and the previous attempt of a new attempt of an incident. -/
structure Ledger.Next (l : Ledger) (attempt : RecoveryPlan) : Prop where
  number : attempt.attemptNo = (l.attemptsOf attempt.incidentId).length + 1
  previous : ∀ id, attempt.previousRecoveryPlanId = some id →
    ∃ before ∈ l.attempts, before.id = id ∧ before.incidentId = attempt.incidentId
  owner : ∃ incident ∈ l.incidents, incident.id = attempt.incidentId ∧
    incident.deliveryPlanId = attempt.baseDeliveryPlanId

/-- A pending attempt that is decided without an approval, or goes back to DRAFT because it is
beyond the limit of its batch. -/
structure Retired (attempt retired : RecoveryPlan) : Prop where
  key : keyOf retired = keyOf attempt
  candidate : retired.candidateDeliveryPlanId = attempt.candidateDeliveryPlanId
  solverStatus : retired.solverStatus = attempt.solverStatus
  status : (retired.status = .decided ∧ ∃ decision, retired.dispatcherDecision = some decision ∧
      decision ≠ .approve) ∨
    (retired.status = .draft ∧ retired.dispatcherDecision = attempt.dispatcherDecision)

/-- The moves that the transactions are made of; `own` is the attempt that a run works on. -/
inductive Move (own : Option UUID) : Ledger → Ledger → Prop where
  /-- Something else takes ids. -/
  | age (l : Ledger) (nextId : UUID) (h : l.nextId ≤ nextId) :
      Move own l { l with nextId := nextId }
  /-- An incident is reported against a CURRENT plan. -/
  | report (l : Ledger) (incident : IncidentHeader) (hid : incident.id = l.nextId)
      (hplan : l.HasPlan incident.deliveryPlanId .current) :
      Move own l { l with
        incidents := l.incidents ++ [incident]
        nextId := l.nextId + 1 }
  /-- An open incident changes its status and stays open. -/
  | touch (l : Ledger) (incidentId : UUID) (status : IncidentStatus) (hs : status ≠ .resolved)
      (hopen : l.Open incidentId) : Move own l (l.setIncident incidentId status)
  /-- An attempt is reserved for an idle incident. -/
  | reserve (l : Ledger) (attempt : RecoveryPlan) (hid : attempt.id = l.nextId)
      (hfresh : Fresh attempt) (hnext : l.Next attempt) (hidle : l.Idle attempt.incidentId) :
      Move own l { l with
        attempts := l.attempts ++ [attempt]
        nextId := l.nextId + 1 }
  /-- A run records on its attempt that there is no candidate. -/
  | record (l : Ledger) (id : UUID) (f : RecoveryPlan → RecoveryPlan) (hown : own = some id)
      (hflight : ∀ attempt ∈ l.attempts, attempt.id = id → attempt.inFlight = true)
      (hkey : ∀ attempt, keyOf (f attempt) = keyOf attempt)
      (hrest : ∀ attempt, (f attempt).status = attempt.status ∧
        (f attempt).candidateDeliveryPlanId = attempt.candidateDeliveryPlanId ∧
        (f attempt).dispatcherDecision = attempt.dispatcherDecision ∧
        (f attempt).solverStatus.isSome) :
      Move own l (l.updateAttempts (·.id == id) f)
  /-- A run gives its attempt a candidate. -/
  | fill (l : Ledger) (id : UUID) (f : RecoveryPlan → RecoveryPlan) (plan : PlanHeader)
      (nextId : UUID) (hown : own = some id) (hplan : l.nextId ≤ plan.id ∧ plan.id < nextId)
      (hexists : ∃ attempt ∈ l.attempts, attempt.id = id)
      (hflight : ∀ attempt ∈ l.attempts, attempt.id = id → attempt.inFlight = true)
      (hkey : ∀ attempt, keyOf (f attempt) = keyOf attempt)
      (hopen : ∀ attempt ∈ l.attempts, attempt.id = id → l.Open attempt.incidentId)
      (hfilled : ∀ attempt ∈ l.attempts, attempt.id = id → Filled (f attempt) plan) :
      Move own l { (l.updateAttempts (·.id == id) f) with
        plans := l.plans ++ [plan]
        nextId := nextId }
  /-- A further attempt of a batch is added with its candidate. -/
  | append (l : Ledger) (attempt : RecoveryPlan) (plan : PlanHeader) (batchId nextId : UUID)
      (hid : plan.id < attempt.id ∧ attempt.id < nextId) (hplan : l.nextId ≤ plan.id)
      (hnext : l.Next attempt) (hopen : l.Open attempt.incidentId)
      (hfilled : Filled attempt plan)
      (hbatch : attempt.options.map (·.batchId) = some batchId)
      (hsame : ∀ other ∈ l.attempts, other.incidentId = attempt.incidentId →
        other.inFlight = false ∧
          (other.isPending = true → other.options.map (·.batchId) = some batchId)) :
      Move own l { l with
        plans := l.plans ++ [plan]
        attempts := l.attempts ++ [attempt]
        nextId := nextId }
  /-- Pending attempts are retired and their candidates are cancelled. -/
  | retire (l : Ledger) (retiring : RecoveryPlan → Bool) (cancelled : UUID → Bool)
      (f : RecoveryPlan → RecoveryPlan) (hf : ∀ attempt, Retired attempt (f attempt))
      (hpending : ∀ attempt ∈ l.attempts, retiring attempt = true → attempt.isPending = true)
      (hplans : ∀ plan ∈ l.plans, cancelled plan.id = true ↔ ∃ attempt ∈ l.attempts,
        retiring attempt = true ∧ attempt.candidateDeliveryPlanId = some plan.id) :
      Move own l ((l.setPlans cancelled .cancelled).updateAttempts retiring f)
  /-- The only pending attempt of an incident is approved. -/
  | approve (l : Ledger) (attempt : RecoveryPlan) (base candidate : PlanHeader)
      (hmem : attempt ∈ l.attempts) (hpending : attempt.isPending = true)
      (honly : ∀ other ∈ l.attempts, other.incidentId = attempt.incidentId →
        other.isPending = true → other = attempt)
      (hbase : base ∈ l.plans ∧ base.id = attempt.baseDeliveryPlanId ∧ base.status = .current)
      (hcandidate : candidate ∈ l.plans ∧ attempt.candidateDeliveryPlanId = some candidate.id)
      (hdate : candidate.businessDate = base.businessDate) :
      Move own l ((((l.setPlans (· == base.id) .superseded).setPlans
        (· == candidate.id) .current).setIncident attempt.incidentId .resolved).updateAttempts
          (·.id == attempt.id) fun row ↦
            { row with status := .decided, dispatcherDecision := some .approve })

/-- A series of moves. -/
inductive Moves (own : Option UUID) : Ledger → Ledger → Prop where
  | refl (l : Ledger) : Moves own l l
  | tail {l l' l'' : Ledger} (h : Moves own l l') (m : Move own l' l'') : Moves own l l''

/-- One move is a series. -/
theorem Move.moves {own : Option UUID} {l l' : Ledger} (h : Move own l l') : Moves own l l' :=
  .tail (.refl l) h

/-- Two series make one. -/
theorem Moves.trans {own : Option UUID} {l l' l'' : Ledger} (h : Moves own l l')
    (h' : Moves own l' l'') : Moves own l l'' := by
  induction h' with
  | refl => exact h
  | tail _ m ih => exact .tail ih m

end PenroseRoute.Lifecycle
