import PenroseRoute.Db.Database

/-!
# Assignments

Models `AssignmentService.create_assignment` of `backend/app/modules/resources/assignments.py`
and the checks that the schema makes on orders, vehicles and their shifts.
-/

namespace PenroseRoute.Resources

open PenroseRoute.Db PenroseRoute.Lib

/-- The statuses that the exclusion constraints and the queries of the fleet look at. -/
def IsOpen (assignment : VehicleDriverAssignment) : Prop :=
  assignment.status = .planned ∨ assignment.status = .active

/-- The end of an assignment is looked at. -/
instance (assignment : VehicleDriverAssignment) : Decidable (IsOpen assignment) :=
  inferInstanceAs (Decidable (_ ∨ _))

/-- The range of an assignment meets that from `start` until `finish`. -/
def Meets (assignment : VehicleDriverAssignment) (start finish : Instant) : Prop :=
  assignment.assignedFromAt < finish ∧ ∀ until_ ∈ assignment.assignedUntilAt, start < until_

/-- Times are compared. -/
instance (assignment : VehicleDriverAssignment) (start finish : Instant) :
    Decidable (Meets assignment start finish) :=
  inferInstanceAs (Decidable (_ ∧ _))

/-- The ranges of two assignments have no time in common. -/
def Apart (a b : VehicleDriverAssignment) : Prop :=
  (∃ until_ ∈ a.assignedUntilAt, until_ ≤ b.assignedFromAt) ∨
    ∃ until_ ∈ b.assignedUntilAt, until_ ≤ a.assignedFromAt

/-- Ids and times are compared. -/
instance (a b : VehicleDriverAssignment) : Decidable (Apart a b) :=
  inferInstanceAs (Decidable (_ ∨ _))

/-- `excl_assignments_vehicle_time` and `excl_assignments_driver_time`,
`create_datatable.sql:930`, for two rows. -/
def Exclusive (a b : VehicleDriverAssignment) : Prop :=
  IsOpen a → IsOpen b → a.vehicleId = b.vehicleId ∨ a.driverId = b.driverId → Apart a b

/-- An implication of what is decided. -/
instance (a b : VehicleDriverAssignment) : Decidable (Exclusive a b) :=
  inferInstanceAs (Decidable (_ → _))

/-- The checks of the schema on resources and orders: `fleet.py:38`, `fleet.py:91`,
`resources.py:125` and the exclusion constraints of the assignments. -/
structure SchemaChecks (db : Database) : Prop where
  assignmentIds : (db.assignments.map (·.id)).Nodup
  assignmentWindows : ∀ assignment ∈ db.assignments,
    ∀ until_ ∈ assignment.assignedUntilAt, assignment.assignedFromAt < until_
  exclusive : db.assignments.Pairwise Exclusive
  capacities : ∀ vehicle ∈ db.vehicles, 0 < vehicle.capacityLoadUnits
  orderWindows : ∀ order ∈ db.orders, order.deliveryWindowStartAt ≤ order.deliveryWindowEndAt
  demands : ∀ order ∈ db.orders, 0 < order.demandLoadUnits

/-- `has_assignment_overlap`, `fleet_repository.py:110`. -/
def hasAssignmentOverlap (db : Database) (vehicleId driverId : UUID) (start finish : Instant) :
    Bool :=
  db.assignments.any fun assignment ↦
    decide (IsOpen assignment) &&
      (assignment.vehicleId == vehicleId || assignment.driverId == driverId) &&
      decide (Meets assignment start finish)

/-- `create_assignment`, `assignments.py:45`; `localDate` is the date of an instant in the
business timezone. -/
def createAssignment (localDate : Instant → BusinessDate) (db : Database)
    (businessDate : BusinessDate) (vehicleId driverId : UUID)
    (assignmentStartAt assignmentEndAt : Instant) :
    Except AppError (Database × VehicleDriverAssignment) := do
  raiseFirst [
    (localDate assignmentStartAt != businessDate, .business "VALIDATION_ERROR"),
    (assignmentEndAt ≤ assignmentStartAt, .business "VALIDATION_ERROR")]
  let vehicle ← orRaise (db.vehicle? vehicleId) (.notFound "VEHICLE_NOT_FOUND")
  let driver ← orRaise (db.driver? driverId) (.notFound "DRIVER_NOT_FOUND")
  raiseFirst [
    (vehicle.status != .available, .conflict "VEHICLE_NOT_AVAILABLE"),
    (driver.status != .available, .conflict "DRIVER_NOT_AVAILABLE"),
    (hasAssignmentOverlap db vehicleId driverId assignmentStartAt assignmentEndAt,
      .conflict "VEHICLE_DRIVER_ASSIGNMENT_CONFLICT")]
  let assignment : VehicleDriverAssignment := {
    id := db.nextId
    vehicleId := vehicleId
    driverId := driverId
    status := .planned
    assignedFromAt := assignmentStartAt
    assignedUntilAt := some assignmentEndAt
    activatedAt := none
    endedAt := none }
  return ({ db with
    assignments := db.assignments ++ [assignment]
    nextId := db.nextId + 1 }, assignment)

/-- A range that meets no other is apart from it. -/
theorem apart_of_not_meets {a b : VehicleDriverAssignment} {finish : Instant}
    (hb : b.assignedUntilAt = some finish) (h : ¬ Meets a b.assignedFromAt finish) :
    Apart a b := by
  by_cases hlt : a.assignedFromAt < finish
  · have hnot : ¬ ∀ until_ ∈ a.assignedUntilAt, b.assignedFromAt < until_ :=
      fun hall ↦ h ⟨hlt, hall⟩
    push Not at hnot
    exact .inl hnot
  · exact .inr ⟨finish, hb, Int.not_lt.mp hlt⟩

/-- A new assignment keeps the checks of the schema. -/
theorem createAssignment_schemaChecks {localDate : Instant → BusinessDate} {db db' : Database}
    {businessDate : BusinessDate} {vehicleId driverId : UUID}
    {assignmentStartAt assignmentEndAt : Instant} {assignment : VehicleDriverAssignment}
    (h : SchemaChecks db) (hfresh : ∀ row ∈ db.assignments, row.id < db.nextId)
    (hcreated : createAssignment localDate db businessDate vehicleId driverId assignmentStartAt
      assignmentEndAt = .ok (db', assignment)) : SchemaChecks db' := by
  obtain ⟨hrange, hcreated⟩ := unit_bind_eq_ok.mp hcreated
  obtain ⟨vehicle, -, hcreated⟩ := bind_eq_ok.mp hcreated
  obtain ⟨driver, -, hcreated⟩ := bind_eq_ok.mp hcreated
  obtain ⟨hguards, hcreated⟩ := unit_bind_eq_ok.mp hcreated
  cases hcreated
  simp only [raiseFirst_cons_eq_ok, decide_eq_false_iff_not] at hrange hguards
  have hoverlap : ∀ row ∈ db.assignments, IsOpen row →
      row.vehicleId = vehicleId ∨ row.driverId = driverId →
      ¬ Meets row assignmentStartAt assignmentEndAt := by
    intro row hrow hopen hsame hmeets
    have hany : hasAssignmentOverlap db vehicleId driverId assignmentStartAt assignmentEndAt =
        true := by
      rw [hasAssignmentOverlap, List.any_eq_true]
      exact ⟨row, hrow, by simpa using ⟨⟨hopen, hsame⟩, hmeets⟩⟩
    rw [hany] at hguards
    exact absurd hguards.2.2.1 (by decide)
  refine ⟨?_, ?_, ?_, h.capacities, h.orderWindows, h.demands⟩
  · rw [List.map_append, List.nodup_append]
    refine ⟨h.assignmentIds, List.nodup_singleton _, ?_⟩
    intro id hid new hnew
    obtain ⟨row, hrow, rfl⟩ := List.mem_map.mp hid
    rw [List.map_singleton, List.mem_singleton] at hnew
    rw [hnew]
    exact Nat.ne_of_lt (hfresh row hrow)
  · intro row hrow until_ huntil
    rcases List.mem_append.mp hrow with hold | hnew
    · exact h.assignmentWindows row hold until_ huntil
    · rw [List.mem_singleton.mp hnew] at huntil ⊢
      rw [← Option.some.inj huntil]
      exact Int.not_le.mp hrange.2.1
  · rw [List.pairwise_append]
    refine ⟨h.exclusive, List.pairwise_singleton _ _, ?_⟩
    intro row hrow new hnew hopen _ hsame
    rw [List.mem_singleton.mp hnew] at hsame ⊢
    exact apart_of_not_meets rfl (hoverlap row hrow hopen hsame)

end PenroseRoute.Resources
