import PenroseRoute.Operations.AlertLifecycle
import PenroseRoute.Operations.Execution

/-!
# Commands and the alert refresh after them

Models `refresh_alerts_for_business_date` of `backend/app/modules/operations/alert_refresh.py` and
the methods of `StopExecutionService` that end with it. The transition is committed before the
alerts of its business date are evaluated in a transaction of their own, and a failed evaluation
undoes nothing. The session of a request is bound to an engine and not to an open connection.
-/

namespace PenroseRoute.Operations

open PenroseRoute.Db PenroseRoute.Lib AlertService

/-- `refresh_alerts_for_business_date`, `alert_refresh.py:15`. -/
def refreshAlertsForBusinessDate (thresholdSeconds : Int) (s : AlertService.State)
    (businessDate : BusinessDate) (now : Instant) : AlertService.State :=
  AlertService.step thresholdSeconds s (.evaluate businessDate now)

namespace StopExecutionService

/-- A transition and the refresh after it; without an `occurred_at` the clock is read for each. -/
def command (thresholdSeconds : Int) (s : AlertService.State) (stopId : UUID)
    (expected target : StopStatus) (eventTime refreshedAt : Instant) :
    Except AppError (AlertService.State × StopExecutionResult) := do
  let (db, result) ← transition thresholdSeconds s.db stopId expected target eventTime
  return (refreshAlertsForBusinessDate thresholdSeconds { s with db := db } result.businessDate
    refreshedAt, result)

/-- `arrive`, `execution.py:48`. -/
def arrive (thresholdSeconds : Int) (s : AlertService.State) (stopId : UUID)
    (eventTime refreshedAt : Instant) :
    Except AppError (AlertService.State × StopExecutionResult) :=
  command thresholdSeconds s stopId .planned .arrived eventTime refreshedAt

/-- `start_service`, `execution.py:60`. -/
def startService (thresholdSeconds : Int) (s : AlertService.State) (stopId : UUID)
    (eventTime refreshedAt : Instant) :
    Except AppError (AlertService.State × StopExecutionResult) :=
  command thresholdSeconds s stopId .arrived .inService eventTime refreshedAt

/-- `complete`, `execution.py:72`. -/
def complete (thresholdSeconds : Int) (s : AlertService.State) (stopId : UUID)
    (eventTime refreshedAt : Instant) :
    Except AppError (AlertService.State × StopExecutionResult) :=
  command thresholdSeconds s stopId .inService .completed eventTime refreshedAt

end StopExecutionService

/-! ### What a refresh leaves -/

variable {thresholdSeconds : Int} {s : AlertService.State} {db db' : Database}
  {tables tables' : AlertTables} {businessDate : BusinessDate} {now now' : Instant}

/-- An evaluation writes risk flags only. -/
theorem evaluateLocked_sameFacts {result : AlertEvaluationResult}
    (h : evaluateLocked thresholdSeconds db tables businessDate now = .ok (result, db', tables')) :
    SameFacts db db' := by
  unfold evaluateLocked at h
  dsimp only at h
  rw [bind_eq_ok] at h
  obtain ⟨scan, hvisits, h⟩ := h
  rw [bind_eq_ok] at h
  obtain ⟨scan', hclears, h⟩ := h
  cases h
  have hvisited : SameFacts db scan.db := by
    cases hplan : db.currentPlan? businessDate with
    | none =>
      rw [hplan] at hvisits
      cases hvisits
      exact .refl db
    | some plan =>
      rw [hplan] at hvisits
      refine foldlM_invariant (I := fun scan : Scan ↦ SameFacts db scan.db) ?_ (.refl db) hvisits
      intro scan item scan' _ hscan hvisit
      rcases visit_cases hvisit with ⟨-, rfl⟩ | ⟨-, -, rfl⟩ | ⟨evidence, -, hdb, -⟩
      · exact hscan
      · exact hscan.setRisk
      · rw [hdb]
        exact hscan.setRisk
  refine foldlM_invariant (I := fun scan : Scan ↦ SameFacts db scan.db) ?_ hvisited hclears
  intro scan alert scan' _ hscan hclear
  rcases clear_cases hclear with ⟨-, rfl⟩ | ⟨-, -, hdb | ⟨hdb, -⟩, -⟩
  · exact hscan
  · rw [hdb]
    exact hscan
  · rw [hdb]
    exact hscan.setRisk

/-- So does a refresh, and nothing but the alerts changes with them. -/
theorem refresh_sameFacts (thresholdSeconds : Int) (s : AlertService.State)
    (businessDate : BusinessDate) (now : Instant) :
    SameFacts s.db (refreshAlertsForBusinessDate thresholdSeconds s businessDate now).db := by
  rw [refreshAlertsForBusinessDate, AlertService.step]
  cases he : evaluateBusinessDate thresholdSeconds s.db s.tables businessDate now with
  | error error => exact .refl s.db
  | ok outcome =>
    rw [evaluateBusinessDate_eq] at he
    exact evaluateLocked_sameFacts he

/-- A refresh keeps the alert tables sound. -/
theorem refresh_sound (h : Sound s.tables) (thresholdSeconds : Int) (businessDate : BusinessDate)
    (now : Instant) :
    Sound (refreshAlertsForBusinessDate thresholdSeconds s businessDate now).tables := by
  rw [refreshAlertsForBusinessDate, AlertService.step]
  cases he : evaluateBusinessDate thresholdSeconds s.db s.tables businessDate now with
  | error error => exact h
  | ok outcome =>
    rw [evaluateBusinessDate_eq] at he
    exact (evaluateLocked_settled h he).sound

/-- A refresh after one that was evaluated, at no later time, changes nothing. -/
theorem refresh_again (h : Sound s.tables)
    (he : (evaluateBusinessDate thresholdSeconds s.db s.tables businessDate now).toOption.isSome)
    (hle : now' ≤ now) :
    refreshAlertsForBusinessDate thresholdSeconds
      (refreshAlertsForBusinessDate thresholdSeconds s businessDate now) businessDate now' =
        refreshAlertsForBusinessDate thresholdSeconds s businessDate now := by
  obtain ⟨⟨result, db, tables⟩, he⟩ : ∃ outcome,
      evaluateBusinessDate thresholdSeconds s.db s.tables businessDate now = .ok outcome :=
    ⟨_, eq_ok_get he⟩
  have hfirst : refreshAlertsForBusinessDate thresholdSeconds s businessDate now =
      ⟨db, tables⟩ := by
    rw [refreshAlertsForBusinessDate, AlertService.step, he]
  rw [evaluateBusinessDate_eq] at he
  have hsecond := (evaluateLocked_settled h he).again (hle.trans le_evaluationTime)
  rw [hfirst, refreshAlertsForBusinessDate, AlertService.step, evaluateBusinessDate_eq, hsecond]

/-- A refresh sets the risk flag of every order, by its id. -/
theorem refresh_flags (hids : (s.db.orders.map (·.id)).Nodup) (thresholdSeconds : Int)
    (businessDate : BusinessDate) (now : Instant) :
    ∃ riskOf : UUID → OrderRiskStatus,
      (refreshAlertsForBusinessDate thresholdSeconds s businessDate now).db = { s.db with
        orders := s.db.orders.map fun order ↦ { order with riskStatus := riskOf order.id } } := by
  have hfacts := refresh_sameFacts thresholdSeconds s businessDate now
  generalize (refreshAlertsForBusinessDate thresholdSeconds s businessDate now).db = db at hfacts
  let riskOf (id : UUID) : OrderRiskStatus := ((db.order? id).map (·.riskStatus)).getD .normal
  refine ⟨riskOf, hfacts.rest.trans (congrArg (fun orders ↦ { s.db with orders := orders }) ?_)⟩
  have hsame : db.orders.map (·.id) = s.db.orders.map (·.id) := by
    have hmap := congrArg (List.map Order.id) hfacts.orders
    rw [List.map_map, List.map_map] at hmap
    exact hmap
  rw [← hsame] at hids
  have hown : ∀ order ∈ db.orders, { unflagged order with riskStatus := riskOf order.id } =
      order := by
    intro order ho
    have hfound : db.order? order.id = some order := (find?_key_eq_some_iff hids).mpr ⟨ho, rfl⟩
    have hrisk : riskOf order.id = order.riskStatus := by
      change ((db.order? order.id).map (·.riskStatus)).getD .normal = order.riskStatus
      rw [hfound]
      rfl
    rw [hrisk]
    rfl
  calc db.orders = db.orders.map fun order ↦
        { unflagged order with riskStatus := riskOf order.id } :=
        ((List.map_congr_left hown).trans (List.map_id _)).symm
    _ = (db.orders.map unflagged).map fun order ↦
        { order with riskStatus := riskOf order.id } := by
        rw [List.map_map]
        rfl
    _ = (s.db.orders.map unflagged).map fun order ↦
        { order with riskStatus := riskOf order.id } := by rw [hfacts.orders]
    _ = s.db.orders.map fun order ↦ { order with riskStatus := riskOf order.id } := by
        rw [List.map_map]
        rfl

end PenroseRoute.Operations
