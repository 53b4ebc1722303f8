import PenroseRoute.Db.Models

/-!
# Alert records

Models `backend/app/db/models/alerts.py`: the alerts and their append-only change log.
-/

namespace PenroseRoute.Db

/-- `AlertStatus`, `alerts.py:21`. -/
inductive AlertStatus where
  | active
  | resolved
  deriving DecidableEq, Repr

/-- `AlertChangeType`, `alerts.py:26`. -/
inductive AlertChangeType where
  | created
  | updated
  | resolved
  deriving DecidableEq, Repr

/-- The values of `reason_category` in the evidence of an alert. -/
inductive ReasonCategory where
  | normal
  | approachingWindow
  | predictedMiss
  | planNotCurrent
  | riskCleared
  deriving DecidableEq, Repr

/-- The keys of `evidence`, `operations/alerts.py:117`. -/
structure AlertEvidence where
  reasonCategory : ReasonCategory
  estimatedArrivalAt : Instant
  deliveryWindowEndAt : Instant
  delaySeconds : Int
  thresholdSeconds : Int
  vehicleRouteId : UUID
  deriving DecidableEq, Repr

/-- `RiskAlert`, `alerts.py:36`. Its only `risk_type` is `DELIVERY_WINDOW`. -/
structure RiskAlert where
  id : UUID
  deliveryPlanId : UUID
  orderId : UUID
  businessDate : BusinessDate
  status : AlertStatus
  evidence : AlertEvidence
  detectedAt : Instant
  lastEvaluatedAt : Instant
  resolvedAt : Option Instant
  deriving DecidableEq, Repr

/-- `ck_risk_alerts_times`, `create_datatable.sql:2201`. -/
def RiskAlert.timesHold (alert : RiskAlert) : Bool :=
  alert.detectedAt ≤ alert.lastEvaluatedAt &&
    match alert.resolvedAt with
    | none => alert.status == .active
    | some resolvedAt => alert.detectedAt ≤ resolvedAt && alert.status == .resolved

/-- `RiskAlertChange`, `alerts.py:67`. -/
structure RiskAlertChange where
  changeId : Nat
  alertId : UUID
  changeType : AlertChangeType
  recordedAt : Instant
  evidenceSnapshot : AlertEvidence
  deriving DecidableEq, Repr

/-- A `RiskAlertChange` object in the session of a writer, with what `append_change` asks about
it: `inspect(change).transient` and whether it has its `change_id`. -/
structure NewAlertChange where
  transient : Bool
  changeId : Option Nat
  alertId : UUID
  changeType : AlertChangeType
  recordedAt : Instant
  evidenceSnapshot : AlertEvidence
  deriving DecidableEq, Repr

/-- The row of a new change under the cursor it is given. -/
def NewAlertChange.row (change : NewAlertChange) (cursor : Nat) : RiskAlertChange where
  changeId := cursor
  alertId := change.alertId
  changeType := change.changeType
  recordedAt := change.recordedAt
  evidenceSnapshot := change.evidenceSnapshot

end PenroseRoute.Db
