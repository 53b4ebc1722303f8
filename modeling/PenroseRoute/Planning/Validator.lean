import PenroseRoute.Planning.InputBuilder

/-!
# Validation of planning facts

Models `backend/app/modules/planning/validator.py`: the issues that keep facts from being
planned, in the order in which they are reported.
-/

namespace PenroseRoute.Planning

open PenroseRoute.Db PenroseRoute.Lib

/-- `PlanningIssue`, `validator.py:9`. -/
structure PlanningIssue where
  code : String
  message : String
  deriving DecidableEq, Repr

/-- Report an issue when a condition holds. -/
def issueWhen (condition : Bool) (code message : String) : List PlanningIssue :=
  if condition then [⟨code, message⟩] else []

/-- No issue is raised when its condition fails. -/
@[simp] theorem issueWhen_eq_nil (condition : Bool) (code message : String) :
    issueWhen condition code message = [] ↔ condition = false := by
  cases condition <;> simp [issueWhen]

/-- The issues of one order, `validator.py:24`. Instants carry their timezone, so
`ORDER_TIMEZONE_MISSING` is never reported. -/
def orderIssues (facts : PlanningFacts) (order : PlanningOrderFact) : List PlanningIssue :=
  issueWhen (order.businessDate != facts.businessDate) "ORDER_DATE_MISMATCH"
      ("Order date differs: " ++ order.orderCode) ++
    issueWhen (order.executionStatus != .planned) "ORDER_NOT_PLANNABLE"
      ("Order has execution facts and cannot be normally planned: " ++ order.orderCode) ++
    issueWhen (!facts.locations.contains order.pickupLocationId ||
        !facts.locations.contains order.deliveryLocationId) "ORDER_LOCATION_MISSING"
      ("Order location is missing: " ++ order.orderCode)

/-- The issues of one pair, `validator.py:58`. -/
def pairIssues (facts : PlanningFacts) (pair : VehicleDriverPairFact) : List PlanningIssue :=
  issueWhen (pair.vehicleStatus != .available || pair.driverStatus != .available)
      "RESOURCE_PAIR_UNAVAILABLE" "Vehicle and driver must both be available" ++
    issueWhen (!facts.locations.contains pair.startLocationId) "VEHICLE_LOCATION_MISSING"
      "Vehicle start location is missing" ++
    issueWhen (pair.assignedUntilAt.any (· ≤ pair.assignedFromAt)) "ASSIGNMENT_WINDOW_INVALID"
      "Assignment time range is invalid"

/-- `validate_planning_facts`, `validator.py:14`. -/
def validatePlanningFacts (facts : PlanningFacts) : List PlanningIssue :=
  issueWhen facts.orders.isEmpty "NO_ORDERS" "No orders exist for the business date" ++
    issueWhen (!decide (facts.orders.map (·.orderId)).Nodup) "DUPLICATE_ORDER"
      "Order IDs must be unique" ++
    facts.orders.flatMap (orderIssues facts) ++
    issueWhen (!decide (facts.vehicleDriverPairs.map (·.vehicleId)).Nodup ||
        !decide (facts.vehicleDriverPairs.map (·.driverId)).Nodup) "RESOURCE_PAIR_DUPLICATED"
      "Vehicles and drivers must belong to one planning pair" ++
    facts.vehicleDriverPairs.flatMap (pairIssues facts)

/-- What accepted facts satisfy. -/
structure Plannable (facts : PlanningFacts) : Prop where
  orders : facts.orders ≠ []
  orderIds : (facts.orders.map (·.orderId)).Nodup
  planned : ∀ order ∈ facts.orders, order.businessDate = facts.businessDate ∧
    order.executionStatus = .planned ∧ order.pickupLocationId ∈ facts.locations ∧
      order.deliveryLocationId ∈ facts.locations
  vehicleIds : (facts.vehicleDriverPairs.map (·.vehicleId)).Nodup
  driverIds : (facts.vehicleDriverPairs.map (·.driverId)).Nodup
  pairs : ∀ pair ∈ facts.vehicleDriverPairs, pair.vehicleStatus = .available ∧
    pair.driverStatus = .available ∧ pair.startLocationId ∈ facts.locations ∧
      ∀ assignedUntilAt, pair.assignedUntilAt = some assignedUntilAt →
        pair.assignedFromAt < assignedUntilAt

/-- The validator reports no issue exactly for facts that can be planned. -/
theorem validatePlanningFacts_eq_nil {facts : PlanningFacts} :
    validatePlanningFacts facts = [] ↔ Plannable facts := by
  have horders : (∀ order ∈ facts.orders, orderIssues facts order = []) ↔
      ∀ order ∈ facts.orders, order.businessDate = facts.businessDate ∧
        order.executionStatus = .planned ∧ order.pickupLocationId ∈ facts.locations ∧
          order.deliveryLocationId ∈ facts.locations := by
    apply forall₂_congr
    intro order _
    simp [orderIssues]
  have hpairs : (∀ pair ∈ facts.vehicleDriverPairs, pairIssues facts pair = []) ↔
      ∀ pair ∈ facts.vehicleDriverPairs, pair.vehicleStatus = .available ∧
        pair.driverStatus = .available ∧ pair.startLocationId ∈ facts.locations ∧
          ∀ assignedUntilAt, pair.assignedUntilAt = some assignedUntilAt →
            pair.assignedFromAt < assignedUntilAt := by
    apply forall₂_congr
    intro pair _
    cases hu : pair.assignedUntilAt <;> simp [pairIssues, hu, and_assoc]
  rw [validatePlanningFacts]
  simp only [List.append_eq_nil_iff, issueWhen_eq_nil, List.flatMap_eq_nil_iff, horders, hpairs,
    Bool.or_eq_false_iff, Bool.not_eq_false', decide_eq_true_eq, List.isEmpty_eq_false_iff]
  constructor
  · rintro ⟨⟨⟨⟨hne, hids⟩, hplanned⟩, hvehicles, hdrivers⟩, hpair⟩
    exact ⟨hne, hids, hplanned, hvehicles, hdrivers, hpair⟩
  · intro h
    exact ⟨⟨⟨⟨h.orders, h.orderIds⟩, h.planned⟩, h.vehicleIds, h.driverIds⟩, h.pairs⟩

end PenroseRoute.Planning
