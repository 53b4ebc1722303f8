import PenroseRoute.Operations.Execution

/-!
# Orders

Models `OrderService.advance_execution` of `backend/app/modules/resources/orders.py`: the
second service that moves an order along its execution path, without touching any stop.
-/

namespace PenroseRoute.Resources

open PenroseRoute.Db PenroseRoute.Lib

/-- `EXECUTION_PATH`, `orders.py:14`. -/
def executionPath : List OrderExecutionStatus :=
  [.planned, .pickupInProgress, .pickedUp, .delivering, .completed]

/-- `advance_execution`, `orders.py:94`. -/
def advanceExecution (db : Database) (orderId : UUID) (target : OrderExecutionStatus) :
    Except AppError Database := do
  let order ← orRaise (db.order? orderId) (.notFound "ORDER_NOT_FOUND")
  if order.executionStatus = target then
    return db
  else
    let currentIndex := executionPath.idxOf order.executionStatus
    raiseFirst [(executionPath[currentIndex + 1]? != some target,
      .conflict "INVALID_ORDER_STATE_TRANSITION")]
    return db.updateOrder orderId fun order ↦ { order with executionStatus := target }

/-- The next status of the path has a higher rank. -/
theorem rank_le_of_next {status target : OrderExecutionStatus}
    (h : executionPath[executionPath.idxOf status + 1]? = some target) :
    status.rank ≤ target.rank := by
  cases status
  case completed => cases h
  all_goals
    cases h
    decide

/-- It moves one order one step along the path, or nothing. -/
theorem advanceExecution_ok {db db' : Database} {orderId : UUID} {target : OrderExecutionStatus}
    (h : advanceExecution db orderId target = .ok db') :
    db' = db ∨ ∃ order, db.order? orderId = some order ∧
      executionPath[executionPath.idxOf order.executionStatus + 1]? = some target ∧
      db' = db.updateOrder orderId fun order ↦ { order with executionStatus := target } := by
  obtain ⟨order, ho, h⟩ := bind_eq_ok.mp h
  split at h
  · cases h
    exact .inl rfl
  · obtain ⟨hg, h⟩ := unit_bind_eq_ok.mp h
    cases h
    rw [raiseFirst_cons_eq_ok, bne_eq_false_iff_eq] at hg
    exact .inr ⟨order, (orRaise_eq_ok _ _ _).mp ho, hg.1, rfl⟩

end PenroseRoute.Resources
