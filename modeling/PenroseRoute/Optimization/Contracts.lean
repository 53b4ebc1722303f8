import PenroseRoute.Lib.Checks
import PenroseRoute.Lib.Keyed

/-!
# Contracts between the business workflows and the optimizer

Models `backend/app/integrations/optimization/contracts.py`. Every `*Seconds` value is
an offset from `SolverInput.currentTime`; the sign checks of `_require_non_negative`
are the type `Nat`. A value of a checked dataclass is its fields together with the
proof that `__post_init__` accepts them, so a rejected value cannot be built.
-/

namespace PenroseRoute

/-- Row identifiers. Only equality and the order of `sorted` are ever used. -/
abbrev UUID := Nat

/-- Instants in microseconds, the resolution of `datetime`. -/
abbrev Instant := Int

/-- Business dates, as proleptic ordinals. -/
abbrev BusinessDate := Nat

end PenroseRoute

namespace PenroseRoute.Optimization

open PenroseRoute.Lib

/-- `contracts.py:13`. -/
inductive SolverStatus where
  | feasible
  | infeasible
  | error
  deriving DecidableEq, Repr

/-- `contracts.py:19`. -/
inductive SolverStopType where
  | pickup
  | delivery
  | handover
  deriving DecidableEq, Repr

/-- `contracts.py:25`. -/
inductive RecoveryScope where
  | affectedRoute
  | crossRoute
  | allRemaining
  deriving DecidableEq, Repr

/-- Reason codes of unassigned orders, as `ck_delivery_plan_orders_reason` admits them; a result has
a text, and the solver gives the first four. -/
inductive UnassignedReason where
  | capacityInfeasible
  | timeWindowInfeasible
  | resourceUnavailable
  | noFeasibleRoute
  | invalidInput
  | other
  deriving DecidableEq, Repr

/-! ### Orders -/

/-- Fields of `SolverOrder`, `contracts.py:38`. -/
structure SolverOrderFields where
  orderId : UUID
  pickupLocationId : Option UUID
  handoverLocationId : Option UUID
  deliveryLocationId : UUID
  readyTimeSeconds : Nat
  deliveryWindowStartSeconds : Nat
  deliveryWindowEndSeconds : Nat
  pickupServiceSeconds : Nat
  handoverServiceSeconds : Nat
  deliveryServiceSeconds : Nat
  demandLoadUnits : Nat
  requiredVehicleId : Option UUID := none
  deriving DecidableEq, Repr

namespace SolverOrderFields

/-- The `origin_count` of `contracts.py:53`. -/
def originCount (o : SolverOrderFields) : Nat :=
  o.pickupLocationId.toList.length + o.handoverLocationId.toList.length

/-- The `__post_init__` of `contracts.py:52`, with its messages. -/
def postInit (o : SolverOrderFields) : Except String Unit :=
  raiseFirst [
    (o.originCount > 1 || (o.originCount == 0 && o.requiredVehicleId.isNone),
      "SolverOrder requires exactly one origin, unless delivery-only work has a required vehicle"),
    (o.originCount == 1 && o.requiredVehicleId.isSome,
      "required_vehicle_id is only valid for delivery-only work"),
    (o.deliveryWindowEndSeconds < o.deliveryWindowStartSeconds,
      "delivery window end must not precede its start"),
    (o.demandLoadUnits == 0, "demand_load_units must be positive"),
    (o.pickupLocationId.isSome && o.handoverServiceSeconds != 0,
      "pickup order cannot have handover service time"),
    (o.handoverLocationId.isSome && o.pickupServiceSeconds != 0,
      "handover order cannot have pickup service time"),
    (o.originCount == 0 && (o.pickupServiceSeconds != 0 || o.handoverServiceSeconds != 0),
      "delivery-only order cannot have origin service time")]

end SolverOrderFields

/-- An order the contract accepts. -/
structure SolverOrder extends SolverOrderFields where
  checked : toSolverOrderFields.postInit = .ok ()
  deriving DecidableEq, Repr

namespace SolverOrder

/-- The dataclass constructor: fields the check rejects raise its message. -/
def make (fields : SolverOrderFields) : Except String SolverOrder :=
  match h : fields.postInit with
  | .ok () => .ok ⟨fields, h⟩
  | .error message => .error message

/-- A built order has exactly the fields it was built from. -/
theorem make_ok {fields : SolverOrderFields} {o : SolverOrder} (h : make fields = .ok o) :
    o.toSolverOrderFields = fields := by
  unfold make at h
  split at h
  · exact (congrArg SolverOrder.toSolverOrderFields (Except.ok.inj h)).symm
  · cases h

/-- Fields that the check accepts make an order. -/
theorem make_of_postInit {fields : SolverOrderFields} (h : fields.postInit = .ok ()) :
    make fields = .ok ⟨fields, h⟩ := by
  unfold make
  split
  · rfl
  · next message he =>
    rw [h] at he
    cases he

/-- Delivery-only orders name the vehicle that holds their goods; all others name none. -/
theorem origin_cases (o : SolverOrder) :
    (∃ loc, o.pickupLocationId = some loc ∧ o.handoverLocationId = none ∧
      o.requiredVehicleId = none) ∨
    (∃ loc, o.pickupLocationId = none ∧ o.handoverLocationId = some loc ∧
      o.requiredVehicleId = none) ∨
    (∃ v, o.pickupLocationId = none ∧ o.handoverLocationId = none ∧
      o.requiredVehicleId = some v) := by
  have h := o.checked
  simp only [SolverOrderFields.postInit, SolverOrderFields.originCount,
    raiseFirst_cons_eq_ok] at h
  cases hp : o.pickupLocationId <;> cases hh : o.handoverLocationId <;>
    cases hr : o.requiredVehicleId <;> simp [hp, hh, hr] at h ⊢

/-- Demands are positive. -/
theorem demand_pos (o : SolverOrder) : 0 < o.demandLoadUnits := by
  have h := o.checked
  simp only [SolverOrderFields.postInit, raiseFirst_cons_eq_ok] at h
  simpa [Nat.pos_iff_ne_zero] using h.2.2.2.1

end SolverOrder

/-! ### Vehicles -/

/-- Fields of `SolverVehicle`, `contracts.py:87`. -/
structure SolverVehicleFields where
  vehicleId : UUID
  capacityLoadUnits : Nat
  startLocationId : UUID
  availableFromSeconds : Nat
  availableUntilSeconds : Nat
  initialLoadLoadUnits : Nat := 0
  deriving DecidableEq, Repr

/-- The `__post_init__` of `contracts.py:95`, with its messages. -/
def SolverVehicleFields.postInit (v : SolverVehicleFields) : Except String Unit :=
  raiseFirst [
    (v.capacityLoadUnits == 0, "capacity_load_units must be positive"),
    (v.initialLoadLoadUnits > v.capacityLoadUnits,
      "initial load must be within vehicle capacity"),
    (v.availableUntilSeconds < v.availableFromSeconds,
      "vehicle availability end must not precede start")]

/-- A vehicle the contract accepts. -/
structure SolverVehicle extends SolverVehicleFields where
  checked : toSolverVehicleFields.postInit = .ok ()
  deriving DecidableEq, Repr

namespace SolverVehicle

/-- The dataclass constructor: fields the check rejects raise its message. -/
def make (fields : SolverVehicleFields) : Except String SolverVehicle :=
  match h : fields.postInit with
  | .ok () => .ok ⟨fields, h⟩
  | .error message => .error message

/-- A built vehicle has exactly the fields it was built from. -/
theorem make_ok {fields : SolverVehicleFields} {v : SolverVehicle} (h : make fields = .ok v) :
    v.toSolverVehicleFields = fields := by
  unfold make at h
  split at h
  · exact (congrArg SolverVehicle.toSolverVehicleFields (Except.ok.inj h)).symm
  · cases h

/-- Fields that the check accepts make a vehicle. -/
theorem make_of_postInit {fields : SolverVehicleFields} (h : fields.postInit = .ok ()) :
    make fields = .ok ⟨fields, h⟩ := by
  unfold make
  split
  · rfl
  · next message he =>
    rw [h] at he
    cases he

/-- The load a vehicle starts with fits. -/
theorem initialLoad_le (v : SolverVehicle) : v.initialLoadLoadUnits ≤ v.capacityLoadUnits := by
  have h := v.checked
  simp only [SolverVehicleFields.postInit, raiseFirst_cons_eq_ok] at h
  simpa using h.2.1

end SolverVehicle

/-! ### Stops, routes and results -/

/-- `SolverStop`, `contracts.py:109`, with its `__post_init__` as the last two fields. -/
structure SolverStop where
  orderId : UUID
  locationId : UUID
  stopType : SolverStopType
  sequenceNo : Nat
  arrivalTimeSeconds : Nat
  departureTimeSeconds : Nat
  serviceDurationSeconds : Nat
  loadChangeLoadUnits : Int
  sequence_pos : 0 < sequenceNo
  arrival_le : arrivalTimeSeconds ≤ departureTimeSeconds
  deriving DecidableEq, Repr

/-- `contracts.py:132`. -/
structure FrozenTask where
  vehicleId : UUID
  stop : SolverStop
  deriving DecidableEq, Repr

/-- `contracts.py:138`. -/
structure SolverRoute where
  vehicleId : UUID
  stops : List SolverStop
  distanceMeters : Nat
  durationSeconds : Nat
  deriving DecidableEq, Repr

/-- `contracts.py:152`. -/
structure SolverUnassignedOrder where
  orderId : UUID
  reasonCode : UnassignedReason
  reasonDetail : Option String
  deriving DecidableEq, Repr

/-- `contracts.py:163`. -/
structure SolverResult where
  status : SolverStatus
  routes : List SolverRoute
  unassignedOrders : List SolverUnassignedOrder
  totalDistanceMeters : Nat
  totalDurationSeconds : Nat
  diagnostic : Option String
  deriving DecidableEq, Repr

/-! ### Solver inputs -/

/-- Fields of `SolverInput`, `contracts.py:179`. -/
structure SolverInputFields where
  businessDate : BusinessDate
  currentTime : Instant
  orders : List SolverOrder
  vehicles : List SolverVehicle
  frozenTasks : List FrozenTask
  recoveryScope : Option RecoveryScope
  locationIds : List UUID
  distanceMatrixMeters : List (List Nat)
  durationMatrixSeconds : List (List Nat)
  deriving DecidableEq, Repr

/-- The origin read as `pickup_location_id or handover_location_id`. -/
def SolverOrder.originLocation (o : SolverOrder) : Option UUID :=
  o.pickupLocationId.or o.handoverLocationId

namespace SolverInputFields

/-- The locations an input refers to, `contracts.py:210`. -/
def referencedLocationIds (s : SolverInputFields) : List UUID :=
  s.vehicles.map (·.startLocationId) ++
    s.orders.flatMap (fun o ↦ o.deliveryLocationId :: o.originLocation.toList) ++
    s.frozenTasks.map (·.stop.locationId)

/-- A matrix is square for all locations, `contracts.py:198`. -/
def isSquare (s : SolverInputFields) (matrix : List (List Nat)) : Bool :=
  matrix.length == s.locationIds.length &&
    matrix.all (fun row ↦ row.length == s.locationIds.length)

/-- The `__post_init__` of `contracts.py:190`, with its messages. Instants carry their
offset and matrix entries their sign in the types, so those two checks never raise. -/
def postInit (s : SolverInputFields) : Except String Unit :=
  raiseFirst [
    (!s.isSquare s.distanceMatrixMeters,
      "distance_matrix_meters must be square for all locations"),
    (!s.isSquare s.durationMatrixSeconds,
      "duration_matrix_seconds must be square for all locations"),
    (!decide s.locationIds.Nodup, "location_ids must be unique"),
    (!decide (s.orders.map (·.orderId)).Nodup, "order IDs must be unique"),
    (!decide (s.vehicles.map (·.vehicleId)).Nodup, "vehicle IDs must be unique"),
    (!s.referencedLocationIds.all (s.locationIds.contains ·),
      "all referenced locations must exist in the matrix")]

end SolverInputFields

/-- An input the contract accepts. -/
structure SolverInput extends SolverInputFields where
  checked : toSolverInputFields.postInit = .ok ()
  deriving DecidableEq, Repr

namespace SolverInput

/-- The dataclass constructor: fields the check rejects raise its message. -/
def make (fields : SolverInputFields) : Except String SolverInput :=
  match h : fields.postInit with
  | .ok () => .ok ⟨fields, h⟩
  | .error message => .error message

/-- A built input has exactly the fields it was built from. -/
theorem make_ok {fields : SolverInputFields} {s : SolverInput} (h : make fields = .ok s) :
    s.toSolverInputFields = fields := by
  unfold make at h
  split at h
  · exact (congrArg SolverInput.toSolverInputFields (Except.ok.inj h)).symm
  · cases h

/-- Fields that the check accepts make an input. -/
theorem make_of_postInit {fields : SolverInputFields} (h : fields.postInit = .ok ()) :
    make fields = .ok ⟨fields, h⟩ := by
  unfold make
  split
  · rfl
  · next message he =>
    rw [h] at he
    cases he

/-- Everything the constructor checks. -/
theorem checked_iff (s : SolverInputFields) :
    s.postInit = .ok () ↔
      s.isSquare s.distanceMatrixMeters = true ∧ s.isSquare s.durationMatrixSeconds = true ∧
      s.locationIds.Nodup ∧ (s.orders.map (·.orderId)).Nodup ∧
      (s.vehicles.map (·.vehicleId)).Nodup ∧
      ∀ loc ∈ s.referencedLocationIds, loc ∈ s.locationIds := by
  simp [SolverInputFields.postInit]

/-- Order ids are unique. -/
theorem orders_nodup (s : SolverInput) : (s.orders.map (·.orderId)).Nodup :=
  ((checked_iff _).mp s.checked).2.2.2.1

/-- Vehicle ids are unique. -/
theorem vehicles_nodup (s : SolverInput) : (s.vehicles.map (·.vehicleId)).Nodup :=
  ((checked_iff _).mp s.checked).2.2.2.2.1

/-- Every referenced location is in the matrix. -/
theorem referenced_mem (s : SolverInput) {loc : UUID} (h : loc ∈ s.referencedLocationIds) :
    loc ∈ s.locationIds :=
  ((checked_iff _).mp s.checked).2.2.2.2.2 loc h

/-- A vehicle's start is in the matrix. -/
theorem start_mem (s : SolverInput) {v : SolverVehicle} (h : v ∈ s.vehicles) :
    v.startLocationId ∈ s.locationIds := by
  apply s.referenced_mem
  simp only [SolverInputFields.referencedLocationIds, List.mem_append]
  exact .inl (.inl (List.mem_map.mpr ⟨v, h, rfl⟩))

/-- An order's delivery location is in the matrix. -/
theorem delivery_mem (s : SolverInput) {o : SolverOrder} (h : o ∈ s.orders) :
    o.deliveryLocationId ∈ s.locationIds := by
  apply s.referenced_mem
  simp only [SolverInputFields.referencedLocationIds, List.mem_append, List.mem_flatMap]
  exact .inl (.inr ⟨o, h, List.mem_cons_self⟩)

/-- An order's origin location is in the matrix. -/
theorem origin_mem (s : SolverInput) {o : SolverOrder} (h : o ∈ s.orders) {loc : UUID}
    (ho : o.originLocation = some loc) : loc ∈ s.locationIds := by
  apply s.referenced_mem
  simp only [SolverInputFields.referencedLocationIds, List.mem_append, List.mem_flatMap]
  exact .inl (.inr ⟨o, h, by simp [ho]⟩)

/-- The `orders` dictionary of the solver and the validator. -/
def order? (s : SolverInput) (orderId : UUID) : Option SolverOrder :=
  s.orders.find? (·.orderId == orderId)

/-- The `vehicles` dictionary of the solver and the validator. -/
def vehicle? (s : SolverInput) (vehicleId : UUID) : Option SolverVehicle :=
  s.vehicles.find? (·.vehicleId == vehicleId)

/-- `matrix[location_index[source]][location_index[destination]]`; the guards of the
callers keep both locations inside the matrix. -/
def entry (s : SolverInput) (matrix : List (List Nat)) (source destination : UUID) : Nat :=
  ((matrix[s.locationIds.idxOf source]?).bind (·[s.locationIds.idxOf destination]?)).getD 0

/-- Meters between two locations. -/
def distance (s : SolverInput) (source destination : UUID) : Nat :=
  s.entry s.distanceMatrixMeters source destination

/-- Travel seconds between two locations. -/
def duration (s : SolverInput) (source destination : UUID) : Nat :=
  s.entry s.durationMatrixSeconds source destination

/-- Looking an order up by its id finds exactly that order. -/
theorem order?_eq_some_iff (s : SolverInput) (orderId : UUID) (o : SolverOrder) :
    s.order? orderId = some o ↔ o ∈ s.orders ∧ o.orderId = orderId :=
  find?_key_eq_some_iff s.orders_nodup

/-- Looking a vehicle up by its id finds exactly that vehicle. -/
theorem vehicle?_eq_some_iff (s : SolverInput) (vehicleId : UUID) (v : SolverVehicle) :
    s.vehicle? vehicleId = some v ↔ v ∈ s.vehicles ∧ v.vehicleId = vehicleId :=
  find?_key_eq_some_iff s.vehicles_nodup

end SolverInput

end PenroseRoute.Optimization
