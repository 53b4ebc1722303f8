import PenroseRoute.Recovery.CandidateTimes
import PenroseRoute.Resources.Assignments

/-!
# The solver input of a context

When the checks of the optimizer's dataclasses accept what a recovery builds from the
database: the constructor refuses two vehicles of one id and a vehicle that starts with more
than it can carry, and nothing in the schema excludes either.
-/

namespace PenroseRoute.Recovery

open PenroseRoute.Db PenroseRoute.Lib PenroseRoute.Operations PenroseRoute.Optimization
open PenroseRoute.Resources

/-! ### Constructors -/

/-- The order constructor accepts what its check accepts. -/
theorem exists_make_order {fields : SolverOrderFields} :
    (∃ order, valueError (SolverOrder.make fields) = .ok order) ↔ fields.postInit = .ok () := by
  simp only [valueError_eq_ok]
  constructor
  · rintro ⟨order, h⟩
    rw [← SolverOrder.make_ok h]
    exact order.checked
  · exact fun h ↦ ⟨_, SolverOrder.make_of_postInit h⟩

/-- The vehicle constructor accepts what its check accepts. -/
theorem exists_make_vehicle {fields : SolverVehicleFields} :
    (∃ vehicle, valueError (SolverVehicle.make fields) = .ok vehicle) ↔
      fields.postInit = .ok () := by
  simp only [valueError_eq_ok]
  constructor
  · rintro ⟨vehicle, h⟩
    rw [← SolverVehicle.make_ok h]
    exact vehicle.checked
  · exact fun h ↦ ⟨_, SolverVehicle.make_of_postInit h⟩

/-- What the vehicle constructor accepts. -/
theorem vehicle_postInit_iff {fields : SolverVehicleFields} :
    fields.postInit = .ok () ↔ 0 < fields.capacityLoadUnits ∧
      fields.initialLoadLoadUnits ≤ fields.capacityLoadUnits ∧
      fields.availableFromSeconds ≤ fields.availableUntilSeconds := by
  simp [SolverVehicleFields.postInit, Nat.pos_iff_ne_zero]

/-- A matrix has one row and one column for each of its locations. -/
def SquareFor (locations : List UUID) (matrix : List (List Nat)) : Prop :=
  matrix.length = locations.length ∧ ∀ row ∈ matrix, row.length = locations.length

/-- What `RoutingMatrix` checks and every provider returns, `contracts.py:28`: square matrices
of non-negative entries for exactly the locations that were asked for. -/
structure RoutingMatrix.For (matrix : RoutingMatrix) (locations : List UUID) : Prop where
  locationIds : matrix.locationIds = locations
  unique : locations.Nodup
  distances : SquareFor locations matrix.distanceMatrixMeters
  durations : SquareFor locations matrix.durationMatrixSeconds

private theorem isSquare_of_squareFor {fields : SolverInputFields} {locations : List UUID}
    {matrix : List (List Nat)} (hids : fields.locationIds = locations)
    (h : SquareFor locations matrix) : fields.isSquare matrix = true := by
  rw [SolverInputFields.isSquare, hids, Bool.and_eq_true, List.all_eq_true]
  exact ⟨by simpa using h.1, fun row hr ↦ by simpa using h.2 row hr⟩

/-- An input without frozen tasks is accepted when its ids are unique and its places are in
the matrix. -/
theorem exists_make_input {fields : SolverInputFields} {matrix : RoutingMatrix}
    {locations : List UUID} (hm : matrix.For locations)
    (hids : fields.locationIds = matrix.locationIds)
    (hdistances : fields.distanceMatrixMeters = matrix.distanceMatrixMeters)
    (hdurations : fields.durationMatrixSeconds = matrix.durationMatrixSeconds)
    (hfrozen : fields.frozenTasks = []) (horders : (fields.orders.map (·.orderId)).Nodup)
    (hvehicles : (fields.vehicles.map (·.vehicleId)).Nodup)
    (hstarts : ∀ vehicle ∈ fields.vehicles, vehicle.startLocationId ∈ locations)
    (hplaces : ∀ order ∈ fields.orders, order.deliveryLocationId ∈ locations ∧
      ∀ location, order.originLocation = some location → location ∈ locations) :
    ∃ input, valueError (SolverInput.make fields) = .ok input := by
  have hl : fields.locationIds = locations := hids.trans hm.locationIds
  have hcheck : fields.postInit = .ok () := by
    rw [SolverInput.checked_iff, hdistances, hdurations, hl]
    refine ⟨isSquare_of_squareFor hl hm.distances, isSquare_of_squareFor hl hm.durations,
      hm.unique, horders, hvehicles, ?_⟩
    intro location href
    rw [SolverInputFields.referencedLocationIds, hfrozen, List.map_nil, List.append_nil,
      List.mem_append, List.mem_map, List.mem_flatMap] at href
    rcases href with ⟨vehicle, hv, rfl⟩ | ⟨order, ho, hplace⟩
    · exact hstarts vehicle hv
    · rcases List.mem_cons.mp hplace with rfl | horigin
      · exact (hplaces order ho).1
      · exact (hplaces order ho).2 location (Option.mem_toList.mp horigin)
  exact ⟨_, (valueError_eq_ok _ _).mpr (SolverInput.make_of_postInit hcheck)⟩

/-! ### Target orders -/

/-- Later times are not fewer seconds away. -/
theorem seconds_mono (currentTime : Int) {a b : Int} (h : a ≤ b) :
    seconds currentTime a ≤ seconds currentTime b := by
  rw [seconds, seconds, totalSeconds, totalSeconds]
  exact Int.toNat_le_toNat (Int.tdiv_le_tdiv (by decide) (by omega))

/-- The delivery window, the places and the demand of a target order are those of its row. -/
theorem orderFact_row {db : Database} {incident : Incident} {plan : DeliveryPlan}
    {orderId : UUID} {fact : RecoveryOrderFact}
    (h : orderFact db incident plan orderId = .ok fact) : ∃ order,
      db.order? orderId = some order ∧ fact.orderId = orderId ∧
      fact.deliveryWindowStartAt = order.deliveryWindowStartAt ∧
      fact.deliveryWindowEndAt = order.deliveryWindowEndAt ∧
      fact.deliveryServiceSeconds = order.deliveryServiceSeconds ∧
      fact.handoverLocationId =
        (if fact.handoverRequired = true then incident.incidentLocationId else none) := by
  obtain ⟨membership, -, h⟩ := bind_eq_ok.mp h
  obtain ⟨order, ho, h⟩ := bind_eq_ok.mp h
  obtain ⟨-, h⟩ := unit_bind_eq_ok.mp h
  cases h
  rw [orRaise_eq_ok] at ho
  have hid : order.id = orderId := by simpa using List.find?_some ho
  exact ⟨order, ho, hid, rfl, rfl, rfl, rfl⟩

/-- The contract accepts every target order. -/
theorem solverOrder_accepted {db : Database} {incident : Incident} {plan : DeliveryPlan}
    (hschema : SchemaChecks db) {currentTime : Instant} {orderId : UUID}
    {fact : RecoveryOrderFact} (h : orderFact db incident plan orderId = .ok fact) :
    (solverOrderFields currentTime fact).postInit = .ok () := by
  obtain ⟨membership, row, -, hrow, hf⟩ := orderFact_ok h
  obtain ⟨order, ho, -, hstart, hend, -, hlocation⟩ := orderFact_row h
  rw [hrow, Option.some.injEq] at ho
  subst ho
  have hmem : row ∈ db.orders := List.mem_of_find?_eq_some hrow
  have hwindow : seconds currentTime fact.deliveryWindowStartAt ≤
      seconds currentTime fact.deliveryWindowEndAt := by
    rw [hstart, hend]
    exact seconds_mono currentTime (hschema.orderWindows row hmem)
  have hdemand : fact.demandLoadUnits ≠ 0 := by
    rw [hf.demand]
    exact Nat.ne_of_gt (hschema.demands row hmem)
  cases hhandover : fact.handoverRequired with
  | true =>
    have honly : fact.deliveryOnly = false := by
      rw [hf.deliveryOnly, hhandover, Bool.not_true, Bool.and_false]
    obtain ⟨hat, hsome⟩ := hf.handoverLocationId hhandover
    obtain ⟨location, hl⟩ := Option.isSome_iff_exists.mp hsome
    simp [SolverOrderFields.postInit, SolverOrderFields.originCount, solverOrderFields, hhandover,
      hf.anyVehicle honly, hat, hl, hdemand, hwindow]
  | false =>
    cases honly : fact.deliveryOnly with
    | true =>
      obtain ⟨route, -, hrequired⟩ := hf.requiredVehicleId honly
      simp [SolverOrderFields.postInit, SolverOrderFields.originCount, solverOrderFields,
        hhandover, honly, hrequired, hdemand, hwindow]
    | false =>
      simp [SolverOrderFields.postInit, SolverOrderFields.originCount, solverOrderFields,
        hhandover, honly, hf.anyVehicle honly, hdemand, hwindow]

/-! ### Vehicles -/

/-- The rows of the target orders. -/
def targetRows (db : Database) (incident : Incident) (plan : DeliveryPlan)
    (scope : ReplanningScope) : List Order :=
  (targetIds db incident plan scope).filterMap db.order?

/-- The end of the planning window: the last target is delivered and served. -/
def lastDeadline (db : Database) (incident : Incident) (plan : DeliveryPlan)
    (scope : ReplanningScope) : Option Instant :=
  ((targetRows db incident plan scope).map fun order ↦
    order.deliveryWindowEndAt + timedelta order.deliveryServiceSeconds).max?

/-- The vehicle whose route the membership of an order names. -/
def carrier? (plan : DeliveryPlan) (orderId : UUID) : Option UUID :=
  ((plan.planOrders.find? (·.orderId == orderId)).bind (namedRoute? plan)).map (·.vehicleId)

/-- The demands of the target orders that are aboard a vehicle and stay there. -/
def goodsAboard (db : Database) (incident : Incident) (plan : DeliveryPlan)
    (scope : ReplanningScope) (vehicleId : UUID) : Nat :=
  (((targetRows db incident plan scope).filter fun order ↦
    Incidents.aboard order.executionStatus &&
      !(incident.affectedOrders.find? (·.orderId == order.id)).any (·.handoverRequired) &&
      carrier? plan order.id == some vehicleId).map (·.demandLoadUnits)).sum

/-- An open assignment that gives a recovery one of its vehicles: it meets the planning window,
neither the vehicle nor the driver is UNAVAILABLE, and the scope admits the vehicle. -/
structure Serves (db : Database) (incident : Incident) (plan : DeliveryPlan)
    (scope : ReplanningScope) (currentTime planningEnd : Instant)
    (assignment : VehicleDriverAssignment) (vehicle : Vehicle) : Prop where
  row : assignment ∈ db.assignments
  isOpen : IsOpen assignment
  found : db.vehicle? assignment.vehicleId = some vehicle
  available : vehicle.status ≠ .unavailable
  driver : ∃ driver, db.driver? assignment.driverId = some driver ∧ driver.status ≠ .unavailable
  begun : assignment.assignedFromAt ≤ planningEnd
  notOver : assignment.assignedUntilAt.all (currentTime < ·) = true
  lasts : currentTime ≤ assignment.assignedUntilAt.getD planningEnd
  inScope : scope = .affectedRoute → ∃ route ∈ plan.routes,
    route.id ∈ affectedRouteIds incident ∧ route.vehicleId = vehicle.id

/-- The pairs behind the vehicles of a context. -/
def servingPairs (db : Database) (incident : Incident) (plan : DeliveryPlan)
    (scope : ReplanningScope) (currentTime planningEnd : Instant) :
    List (VehicleDriverAssignment × Vehicle × Driver) :=
  (usablePairs db incident plan scope currentTime planningEnd).filter fun (assignment, _, _) ↦
    assignment.assignedUntilAt.getD planningEnd ≥ currentTime

/-- The pairs of a window are read from the rows of their open assignments. -/
theorem mem_vehicleDriverPairsForWindow {db : Database} {operationalFrom operationalUntil : Instant}
    {pair : VehicleDriverAssignment × Vehicle × Driver} :
    pair ∈ vehicleDriverPairsForWindow db operationalFrom operationalUntil ↔
      pair.1 ∈ db.assignments ∧ IsOpen pair.1 ∧ pair.1.assignedFromAt ≤ operationalUntil ∧
      pair.1.assignedUntilAt.all (operationalFrom < ·) = true ∧
      db.vehicle? pair.1.vehicleId = some pair.2.1 ∧
      db.driver? pair.1.driverId = some pair.2.2 := by
  obtain ⟨assignment, vehicle, driver⟩ := pair
  rw [vehicleDriverPairsForWindow, List.mem_insertionSort, List.mem_filterMap]
  constructor
  · rintro ⟨row, hrow, hpair⟩
    split at hpair
    · next hopen =>
      split at hpair
      · next v d hv hd =>
        cases hpair
        exact ⟨hrow, hopen.1, hopen.2.1, hopen.2.2, hv, hd⟩
      · cases hpair
    · cases hpair
  · rintro ⟨hrow, hopen, hfrom, huntil, hv, hd⟩
    refine ⟨assignment, hrow, ?_⟩
    rw [if_pos ⟨hopen, hfrom, huntil⟩]
    simp only at hv hd
    rw [hv, hd]

/-- The assignments of a window are pairwise different rows. -/
theorem nodup_vehicleDriverPairsForWindow {db : Database}
    {operationalFrom operationalUntil : Instant} (hids : (db.assignments.map (·.id)).Nodup) :
    ((vehicleDriverPairsForWindow db operationalFrom operationalUntil).map (·.1)).Nodup := by
  have hrows : db.assignments.Nodup := List.Nodup.of_map _ hids
  rw [vehicleDriverPairsForWindow, List.Perm.nodup_iff ((List.perm_insertionSort _ _).map _)]
  refine List.Nodup.sublist (sublist_map_filterMap ?_ _) hrows
  intro row pair hpair
  split at hpair
  · split at hpair
    · cases hpair
      rfl
    · cases hpair
  · cases hpair

/-- The pairs behind the vehicles of a context are those of the assignments that serve it. -/
theorem mem_servingPairs {db : Database} {incident : Incident} {plan : DeliveryPlan}
    {scope : ReplanningScope} {currentTime planningEnd : Instant}
    {assignment : VehicleDriverAssignment} {vehicle : Vehicle} :
    (∃ driver, (assignment, vehicle, driver) ∈
        servingPairs db incident plan scope currentTime planningEnd) ↔
      Serves db incident plan scope currentTime planningEnd assignment vehicle := by
  have hscope : ∀ vehicleId, (scope != .affectedRoute || plan.routes.any fun route ↦
      (affectedRouteIds incident).contains route.id && route.vehicleId == vehicleId) = true ↔
      (scope = .affectedRoute → ∃ route ∈ plan.routes,
        route.id ∈ affectedRouteIds incident ∧ route.vehicleId = vehicleId) := by
    intro vehicleId
    rw [Bool.or_eq_true, bne_iff_ne, List.any_eq_true, ← imp_iff_not_or]
    simp
  constructor
  · rintro ⟨driver, hpair⟩
    obtain ⟨husable, hlasts⟩ := List.mem_filter.mp hpair
    obtain ⟨hwindow, hworking⟩ := List.mem_filter.mp husable
    obtain ⟨hrow, hopen, hbegun, hnot, hv, hd⟩ := mem_vehicleDriverPairsForWindow.mp hwindow
    rw [Bool.and_eq_true, Bool.and_eq_true, bne_iff_ne, bne_iff_ne, hscope] at hworking
    exact ⟨hrow, hopen, hv, hworking.1.1, ⟨driver, hd, hworking.1.2⟩, hbegun, hnot,
      of_decide_eq_true hlasts, hworking.2⟩
  · intro h
    obtain ⟨driver, hd, hds⟩ := h.driver
    refine ⟨driver, List.mem_filter.mpr ⟨List.mem_filter.mpr ⟨?_, ?_⟩, decide_eq_true h.lasts⟩⟩
    · exact mem_vehicleDriverPairsForWindow.mpr
        ⟨h.row, h.isOpen, h.begun, h.notOver, h.found, hd⟩
    · rw [Bool.and_eq_true, Bool.and_eq_true, bne_iff_ne, bne_iff_ne, hscope]
      exact ⟨⟨h.available, hds⟩, h.inScope⟩

/-! ### What the context was read from -/

namespace ReadFrom

variable {db : Database} {incident : Incident} {plan : DeliveryPlan} {scope : ReplanningScope}
  {operationalTime : Instant} {context : RecoveryContext}

/-- The target orders of a context are read from the target rows, one by one. -/
theorem targetRows (h : ReadFrom db incident plan scope operationalTime context) :
    List.Forall₂ (fun row fact ↦ ∃ membership,
      plan.planOrders.find? (·.orderId == row.id) = some membership ∧
      FactOf incident plan membership row fact ∧
      fact.deliveryWindowEndAt = row.deliveryWindowEndAt ∧
      fact.deliveryServiceSeconds = row.deliveryServiceSeconds)
      (targetRows db incident plan scope) context.targetOrders := by
  refine forall₂_filterMap (h.targetOrders.imp ?_)
  intro orderId fact hfact
  obtain ⟨membership, row, hm, hrow, hf⟩ := orderFact_ok hfact
  obtain ⟨order, ho, hid, -, hend, hservice, -⟩ := orderFact_row hfact
  rw [hrow, Option.some.injEq] at ho
  subst ho
  refine ⟨row, hrow, membership, ?_, hf, hend, hservice⟩
  rw [← hf.orderId, hid, hm]

/-- The planning window of a context ends with the last deadline of the target rows. -/
theorem lastDeadline_eq (h : ReadFrom db incident plan scope operationalTime context) :
    lastDeadline db incident plan scope = (context.targetOrders.map fun order ↦
      order.deliveryWindowEndAt + timedelta order.deliveryServiceSeconds).max? := by
  rw [lastDeadline, map_eq_map_of_forall₂ ?_ h.targetRows]
  rintro row fact ⟨-, -, -, hend, hservice⟩
  rw [hend, hservice]

/-- The initial load of a vehicle is the demand of the goods aboard it. -/
theorem onboardLoad_eq (h : ReadFrom db incident plan scope operationalTime context)
    (vehicleId : UUID) :
    onboardLoad context.targetOrders vehicleId =
      goodsAboard db incident plan scope vehicleId := by
  rw [onboardLoad, goodsAboard]
  refine congrArg List.sum (filter_map_of_forall₂ ?_ h.targetRows).symm
  rintro row fact ⟨membership, hm, hf, -, -⟩
  refine ⟨?_, hf.demand.symm⟩
  have haboard := hf.deliveryOnly
  rw [hf.handoverRequired] at haboard
  rw [← haboard]
  cases honly : fact.deliveryOnly with
  | false => rfl
  | true =>
    obtain ⟨route, hroute, hrequired⟩ := hf.requiredVehicleId honly
    rw [carrier?, hm, Option.bind_some, hroute, hrequired, Option.map_some]

/-- The target orders are those of the `target_ids`. -/
theorem targetOrderIds_eq (h : ReadFrom db incident plan scope operationalTime context) :
    context.targetOrderIds = targetIds db incident plan scope := by
  rw [← List.map_id (targetIds db incident plan scope)]
  refine (map_eq_map_of_forall₂ ?_ h.targetOrders).symm
  intro orderId fact hfact
  obtain ⟨-, -, hid, -⟩ := orderFact_row hfact
  exact hid.symm

/-- The ids of the target orders are unique. -/
theorem targetOrders_nodup (h : ReadFrom db incident plan scope operationalTime context) :
    (context.targetOrders.map (·.orderId)).Nodup := by
  have hids : context.targetOrders.map (·.orderId) = targetIds db incident plan scope :=
    h.targetOrderIds_eq
  rw [hids, targetIds, List.Perm.nodup_iff (List.perm_insertionSort _ _)]
  exact List.nodup_dedup _

end ReadFrom

/-! ### The condition -/

/-- What the contract asks of the rows that a recovery reads until its last deadline: no vehicle
has two assignments that serve it, and what is aboard a vehicle fits. -/
structure ContractMet (db : Database) (incident : Incident) (plan : DeliveryPlan)
    (scope : ReplanningScope) (currentTime : Instant) : Prop where
  oneShift : ∀ planningEnd ∈ lastDeadline db incident plan scope, ∀ a b vehicle,
    Serves db incident plan scope currentTime planningEnd a vehicle →
    Serves db incident plan scope currentTime planningEnd b vehicle → a = b
  fits : ∀ planningEnd ∈ lastDeadline db incident plan scope, ∀ assignment vehicle,
    Serves db incident plan scope currentTime planningEnd assignment vehicle →
    goodsAboard db incident plan scope vehicle.id ≤ vehicle.capacityLoadUnits

/-- The fact of a serving pair. -/
def vehicleFact (facts : List RecoveryOrderFact) (currentTime planningEnd : Instant)
    (assignment : VehicleDriverAssignment) (vehicle : Vehicle) : RecoveryVehicleFact where
  assignmentId := assignment.id
  vehicleId := assignment.vehicleId
  driverId := assignment.driverId
  capacityLoadUnits := vehicle.capacityLoadUnits
  initialLoadLoadUnits := onboardLoad facts assignment.vehicleId
  startLocationId := vehicle.currentLocationId
  availableFrom := max assignment.assignedFromAt currentTime
  availableUntil := assignment.assignedUntilAt.getD planningEnd

private theorem vehicleFacts_eq {db : Database} {incident : Incident} {plan : DeliveryPlan}
    {scope : ReplanningScope} {facts : List RecoveryOrderFact}
    {currentTime planningEnd : Instant} :
    vehicleFacts facts currentTime planningEnd
        (usablePairs db incident plan scope currentTime planningEnd) =
      (servingPairs db incident plan scope currentTime planningEnd).map fun pair ↦
        vehicleFact facts currentTime planningEnd pair.1 pair.2.1 := rfl

/-- Vehicles occur once among the serving pairs exactly when none has two shifts. -/
theorem servingPairs_nodup_iff {db : Database} {incident : Incident} {plan : DeliveryPlan}
    {scope : ReplanningScope} {currentTime planningEnd : Instant}
    (hids : (db.assignments.map (·.id)).Nodup) :
    ((servingPairs db incident plan scope currentTime planningEnd).map
      (·.1.vehicleId)).Nodup ↔ ∀ a b vehicle,
        Serves db incident plan scope currentTime planningEnd a vehicle →
        Serves db incident plan scope currentTime planningEnd b vehicle → a = b := by
  have hrows : ((servingPairs db incident plan scope currentTime planningEnd).map
      (·.1)).Nodup := by
    have hwindow : ((vehicleDriverPairsForWindow db currentTime planningEnd).map
        (·.1)).Nodup := nodup_vehicleDriverPairsForWindow hids
    have hsub : (servingPairs db incident plan scope currentTime planningEnd).Sublist
        (vehicleDriverPairsForWindow db currentTime planningEnd) :=
      List.filter_sublist.trans List.filter_sublist
    exact hwindow.sublist (hsub.map (·.1))
  have hsplit : (servingPairs db incident plan scope currentTime planningEnd).map
      (·.1.vehicleId) = ((servingPairs db incident plan scope currentTime planningEnd).map
        (·.1)).map (·.vehicleId) := by
    rw [List.map_map]
    rfl
  rw [hsplit, List.nodup_map_iff_inj_on hrows]
  constructor
  · intro h a b vehicle ha hb
    obtain ⟨driverA, hpa⟩ := mem_servingPairs.mpr ha
    obtain ⟨driverB, hpb⟩ := mem_servingPairs.mpr hb
    refine h a (List.mem_map.mpr ⟨_, hpa, rfl⟩) b (List.mem_map.mpr ⟨_, hpb, rfl⟩) ?_
    have hia : vehicle.id = a.vehicleId := by simpa using List.find?_some ha.found
    have hib : vehicle.id = b.vehicleId := by simpa using List.find?_some hb.found
    rw [← hia, hib]
  · intro h a ha b hb hid
    obtain ⟨⟨a, vehicleA, driverA⟩, hpa, rfl⟩ := List.mem_map.mp ha
    obtain ⟨⟨b, vehicleB, driverB⟩, hpb, rfl⟩ := List.mem_map.mp hb
    have hsa := mem_servingPairs.mp ⟨driverA, hpa⟩
    have hsb := mem_servingPairs.mp ⟨driverB, hpb⟩
    have hsame : vehicleB = vehicleA := by
      have hfound := hsb.found
      rw [← hid, hsa.found, Option.some.injEq] at hfound
      exact hfound.symm
    rw [hsame] at hsb
    exact h a b vehicleA hsa hsb

/-- A vehicle that a recovery can use does not end before it starts. -/
theorem Serves.available_le {db : Database} {incident : Incident} {plan : DeliveryPlan}
    {scope : ReplanningScope} {currentTime planningEnd : Instant}
    {assignment : VehicleDriverAssignment} {vehicle : Vehicle} (hschema : SchemaChecks db)
    (h : Serves db incident plan scope currentTime planningEnd assignment vehicle) :
    max assignment.assignedFromAt currentTime ≤ assignment.assignedUntilAt.getD planningEnd := by
  refine max_le ?_ h.lasts
  cases hu : assignment.assignedUntilAt with
  | none => exact h.begun
  | some finish => exact Int.le_of_lt (hschema.assignmentWindows assignment h.row finish hu)

/-- The places of the orders and of the vehicles of a context are among its locations. -/
theorem mem_contextLocations {incident : Incident} {plan : DeliveryPlan}
    {facts : List RecoveryOrderFact} {usable : List (VehicleDriverAssignment × Vehicle × Driver)}
    {location : UUID} : location ∈ contextLocations incident plan facts usable ↔
      (∃ route ∈ plan.routes, location = route.startLocationId ∨
        location = route.endLocationId ∨ ∃ stop ∈ route.stops, stop.locationId = location) ∨
      (∃ order ∈ facts, location = order.pickupLocationId ∨
        location = order.deliveryLocationId) ∨
      incident.incidentLocationId = some location ∨
      ∃ pair ∈ usable, pair.2.1.currentLocationId = location := by
  rw [contextLocations, List.mem_eraseDups]
  simp

/-- Accepted orders and vehicles of a context make an input when no vehicle occurs twice. -/
theorem ReadFrom.exists_input {db : Database} {incident : Incident} {plan : DeliveryPlan}
    {scope : ReplanningScope} {operationalTime planningEnd : Instant} {context : RecoveryContext}
    (h : ReadFrom db incident plan scope operationalTime context) {matrix : RoutingMatrix}
    (hm : matrix.For context.locations)
    (hlocations : context.locations = contextLocations incident plan context.targetOrders
      (usablePairs db incident plan scope context.currentTime planningEnd))
    (hvehicles : context.vehicles =
      (servingPairs db incident plan scope context.currentTime planningEnd).map fun pair ↦
        vehicleFact context.targetOrders context.currentTime planningEnd pair.1 pair.2.1)
    {orders : List SolverOrder} {vehicles : List SolverVehicle}
    (horders : orders.map (·.toSolverOrderFields) =
      context.targetOrders.map (solverOrderFields context.currentTime))
    (hmade : vehicles.map (·.toSolverVehicleFields) =
      context.vehicles.map (solverVehicleFields context.currentTime))
    (hids : (context.vehicles.map (·.vehicleId)).Nodup) :
    ∃ input, valueError (SolverInput.make {
      businessDate := context.businessDate
      currentTime := context.currentTime
      orders := orders
      vehicles := vehicles
      frozenTasks := []
      recoveryScope := some context.scope
      locationIds := matrix.locationIds
      distanceMatrixMeters := matrix.distanceMatrixMeters
      durationMatrixSeconds := matrix.durationMatrixSeconds }) = .ok input := by
  refine exists_make_input hm rfl rfl rfl rfl ?_ ?_ ?_ ?_
  · have hsame := congrArg (List.map (·.orderId)) horders
    rw [List.map_map, List.map_map] at hsame
    rw [show orders.map (·.orderId) = context.targetOrders.map (·.orderId) from hsame]
    exact h.targetOrders_nodup
  · have hsame := congrArg (List.map (·.vehicleId)) hmade
    rw [List.map_map, List.map_map] at hsame
    rw [show vehicles.map (·.vehicleId) = context.vehicles.map (·.vehicleId) from hsame]
    exact hids
  · intro vehicle hv
    have hfields : vehicle.toSolverVehicleFields ∈
        context.vehicles.map (solverVehicleFields context.currentTime) := by
      rw [← hmade]
      exact List.mem_map_of_mem hv
    obtain ⟨fact, hfact, he⟩ := List.mem_map.mp hfields
    rw [hvehicles] at hfact
    obtain ⟨pair, hpair, rfl⟩ := List.mem_map.mp hfact
    rw [← he, hlocations, mem_contextLocations]
    exact .inr (.inr (.inr ⟨pair, (List.mem_filter.mp hpair).1, rfl⟩))
  · intro order ho
    have hfields : order.toSolverOrderFields ∈
        context.targetOrders.map (solverOrderFields context.currentTime) := by
      rw [← horders]
      exact List.mem_map_of_mem ho
    obtain ⟨fact, hfact, he⟩ := List.mem_map.mp hfields
    obtain ⟨orderId, -, hof⟩ := exists_of_forall₂_right h.targetOrders hfact
    obtain ⟨-, -, -, -, -, -, hat⟩ := orderFact_row hof
    simp only [hlocations, mem_contextLocations]
    constructor
    · rw [← he]
      exact .inr (.inl ⟨fact, hfact, .inr rfl⟩)
    · intro location hl
      rw [SolverOrder.originLocation, ← he, solverOrderFields] at hl
      cases hhandover : fact.handoverRequired with
      | true =>
        simp only [hhandover, hat, Bool.true_or, if_true, Option.none_or] at hl
        exact .inr (.inr (.inl hl))
      | false =>
        cases honly : fact.deliveryOnly with
        | true => simp [hhandover, honly] at hl
        | false =>
          have hpickup : fact.pickupLocationId = location := by
            simpa [hhandover, honly] using hl
          exact .inr (.inl ⟨fact, hfact, .inl hpickup.symm⟩)

/-- For every database with the schema's checks, incident and scope: the solver input of the
materialised context is constructed exactly when no vehicle has two serving assignments and
the goods aboard each vehicle fit. -/
theorem buildRecoverySolverInput_iff {db : Database} (hschema : SchemaChecks db)
    {incidentId : UUID} {scope : ReplanningScope} {operationalTime : Instant}
    {context : RecoveryContext}
    (hread : materializeRecoveryContext db incidentId scope operationalTime = .ok context)
    {incident : Incident} {plan : DeliveryPlan} (hi : db.incident? incidentId = some incident)
    (hp : db.plan? incident.deliveryPlanId = some plan) {matrix : RoutingMatrix}
    (hm : matrix.For context.locations) :
    (∃ input, buildRecoverySolverInput context matrix = .ok input) ↔
      ContractMet db incident plan scope (max incident.detectedAt operationalTime) := by
  obtain ⟨hr, planningEnd, hend, hvehicles, hlocations⟩ :=
    materializeRecoveryContext_vehicles hread hi hp
  have hlast : lastDeadline db incident plan scope = some planningEnd :=
    hr.lastDeadline_eq.trans hend
  rw [← hr.currentTime]
  rw [vehicleFacts_eq] at hvehicles
  have hvehicleIds : context.vehicles.map (·.vehicleId) =
      (servingPairs db incident plan scope context.currentTime planningEnd).map
        (·.1.vehicleId) := by
    rw [hvehicles, List.map_map]
    rfl
  constructor
  · rintro ⟨input, hinput⟩
    obtain ⟨-, hfields, -⟩ := buildRecoverySolverInput_ok hinput
    constructor
    · intro finish hfinish
      rw [hlast, Option.mem_some_iff] at hfinish
      subst hfinish
      rw [← servingPairs_nodup_iff hschema.assignmentIds, ← hvehicleIds]
      have hids := congrArg (List.map (·.vehicleId)) hfields
      rw [List.map_map, List.map_map] at hids
      have hnodup := input.vehicles_nodup
      rw [show input.vehicles.map (·.vehicleId) = context.vehicles.map (·.vehicleId) from hids]
        at hnodup
      exact hnodup
    · intro finish hfinish assignment vehicle hs
      rw [hlast, Option.mem_some_iff] at hfinish
      subst hfinish
      obtain ⟨driver, hpair⟩ := mem_servingPairs.mpr hs
      have hfact : solverVehicleFields context.currentTime (vehicleFact context.targetOrders
          context.currentTime planningEnd assignment vehicle) ∈
          input.vehicles.map (·.toSolverVehicleFields) := by
        rw [hfields, hvehicles, List.map_map]
        exact List.mem_map.mpr ⟨_, hpair, rfl⟩
      obtain ⟨solverVehicle, -, he⟩ := List.mem_map.mp hfact
      have hle := solverVehicle.initialLoad_le
      rw [he] at hle
      have hid : vehicle.id = assignment.vehicleId := by simpa using List.find?_some hs.found
      rw [hid, ← hr.onboardLoad_eq]
      exact hle
  · intro hmet
    have horders : ∃ orders, context.targetOrders.mapM (fun order ↦
        valueError (SolverOrder.make (solverOrderFields context.currentTime order))) =
          .ok orders := by
      rw [exists_mapM_iff]
      intro fact hfact
      obtain ⟨orderId, -, hof⟩ := exists_of_forall₂_right hr.targetOrders hfact
      exact exists_make_order.mpr (solverOrder_accepted hschema hof)
    have hmade : ∃ vehicles, context.vehicles.mapM (fun vehicle ↦
        valueError (SolverVehicle.make (solverVehicleFields context.currentTime vehicle))) =
          .ok vehicles := by
      rw [exists_mapM_iff]
      intro fact hfact
      rw [hvehicles, List.mem_map] at hfact
      obtain ⟨⟨assignment, vehicle, driver⟩, hpair, rfl⟩ := hfact
      have hs := mem_servingPairs.mp ⟨driver, hpair⟩
      have hid : vehicle.id = assignment.vehicleId := by simpa using List.find?_some hs.found
      rw [exists_make_vehicle, vehicle_postInit_iff]
      refine ⟨hschema.capacities vehicle (List.mem_of_find?_eq_some hs.found), ?_, ?_⟩
      · have hfits := hmet.fits planningEnd hlast assignment vehicle hs
        rw [hid, ← hr.onboardLoad_eq] at hfits
        exact hfits
      · exact seconds_mono context.currentTime (hs.available_le hschema)
    obtain ⟨orders, ho⟩ := horders
    obtain ⟨vehicles, hv⟩ := hmade
    have hof : orders.map (·.toSolverOrderFields) =
        context.targetOrders.map (solverOrderFields context.currentTime) :=
      map_eq_of_mapM (fun _ _ hmk ↦ SolverOrder.make_ok ((valueError_eq_ok _ _).mp hmk)) ho
    have hvf : vehicles.map (·.toSolverVehicleFields) =
        context.vehicles.map (solverVehicleFields context.currentTime) :=
      map_eq_of_mapM (fun _ _ hmk ↦ SolverVehicle.make_ok ((valueError_eq_ok _ _).mp hmk)) hv
    have hids : (context.vehicles.map (·.vehicleId)).Nodup := by
      rw [hvehicleIds, servingPairs_nodup_iff hschema.assignmentIds]
      exact hmet.oneShift planningEnd hlast
    obtain ⟨input, hinput⟩ := hr.exists_input hm hlocations hvehicles hof hvf hids
    exact ⟨input, bind_eq_ok.mpr ⟨orders, ho, bind_eq_ok.mpr ⟨vehicles, hv, hinput⟩⟩⟩

end PenroseRoute.Recovery
