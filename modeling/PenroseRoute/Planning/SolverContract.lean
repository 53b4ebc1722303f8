import PenroseRoute.Planning.Validator
import PenroseRoute.Recovery.SolverContract
import PenroseRoute.Resources.Fleet

/-!
# The solver input of planning facts

The facts that planning reads are always accepted by the checks of the optimizer's
dataclasses: the validator refuses a vehicle with two assignments, which the recovery does not.
-/

namespace PenroseRoute.Planning

open PenroseRoute.Db PenroseRoute.Lib PenroseRoute.Operations PenroseRoute.Optimization
open PenroseRoute.Recovery PenroseRoute.Resources

/-! ### Times -/

/-- The current time of materialised facts is not after any time in them. -/
theorem currentTime_le {businessDate : BusinessDate} {orders : List Order}
    {assignments : List (VehicleDriverAssignment × Vehicle × Driver)} {value : Instant}
    (h : value ∈ timeCandidates (materializePlanningFacts businessDate orders assignments).orders
      (materializePlanningFacts businessDate orders assignments).vehicleDriverPairs) :
    (materializePlanningFacts businessDate orders assignments).currentTime ≤ value := by
  have hmin : ∀ times : List Instant, value ∈ times →
      times.min?.getD (startOfDay businessDate) ≤ value := by
    intro times hmem
    cases hm : times.min? with
    | none =>
      rw [List.min?_eq_none_iff] at hm
      rw [hm] at hmem
      cases hmem
    | some first => exact (List.min?_eq_some_iff.mp hm).2 value hmem
  exact hmin _ h

/-- A time that is not before the current one is as many seconds away as a recovery counts. -/
theorem secondsFromCurrent_eq {facts : PlanningFacts} {value : Instant}
    (h : facts.currentTime ≤ value) :
    secondsFromCurrent facts value = .ok (seconds facts.currentTime value) := by
  have hnonneg : ¬ totalSeconds (value - facts.currentTime) < 0 := by
    have hle := Int.tdiv_le_tdiv (c := 1000000) (by decide) (Int.sub_nonneg_of_le h)
    rw [Int.zero_tdiv] at hle
    exact Int.not_lt.mpr hle
  rw [secondsFromCurrent]
  exact if_neg hnonneg

/-- With an order, planning ends when the last one of the day is delivered and served. -/
theorem planningEnd_loadFacts {db : Database} {businessDate : BusinessDate}
    (h : (loadFacts db businessDate).orders ≠ []) :
    planningEnd (loadFacts db businessDate) =
      operationalUntil businessDate (ordersForBusinessDate db businessDate) := by
  have horders : (loadFacts db businessDate).orders =
      (ordersForBusinessDate db businessDate).map planningOrderFact := rfl
  have hsame : ((loadFacts db businessDate).orders.map fun order ↦
      order.deliveryWindowEndAt + timedelta order.deliveryServiceSeconds) =
      (ordersForBusinessDate db businessDate).map fun order ↦
        order.deliveryWindowEndAt + timedelta order.deliveryServiceSeconds := by
    rw [horders, List.map_map]
    rfl
  rw [planningEnd, operationalUntil, ← hsame]
  cases hmax : ((loadFacts db businessDate).orders.map fun order ↦
      order.deliveryWindowEndAt + timedelta order.deliveryServiceSeconds).max? with
  | some last => rfl
  | none =>
    rw [List.max?_eq_none_iff, List.map_eq_nil_iff] at hmax
    exact absurd hmax h

/-! ### Orders and vehicles -/

/-- The orders of the facts are rows of the database. -/
theorem mem_loadFacts_orders {db : Database} {businessDate : BusinessDate}
    {fact : PlanningOrderFact} (h : fact ∈ (loadFacts db businessDate).orders) :
    ∃ order ∈ db.orders, planningOrderFact order = fact := by
  obtain ⟨order, horder, rfl⟩ := List.mem_map.mp h
  rw [ordersForBusinessDate, List.mem_insertionSort] at horder
  exact ⟨order, (List.mem_filter.mp horder).1, rfl⟩

/-- The pairs of the facts are read from open assignments of the day's window. -/
theorem mem_loadFacts_pairs {db : Database} {businessDate : BusinessDate}
    {fact : VehicleDriverPairFact} (h : fact ∈ (loadFacts db businessDate).vehicleDriverPairs) :
    ∃ assignment vehicle driver,
      vehicleDriverPairFact (assignment, vehicle, driver) = fact ∧ vehicle ∈ db.vehicles ∧
      assignment.assignedFromAt ≤
        operationalUntil businessDate (ordersForBusinessDate db businessDate) := by
  obtain ⟨⟨assignment, vehicle, driver⟩, hpair, rfl⟩ := List.mem_map.mp h
  obtain ⟨hwindow, -⟩ := List.mem_filter.mp hpair
  obtain ⟨-, -, hfrom, -, hv, -⟩ := mem_vehicleDriverPairsForWindow.mp hwindow
  exact ⟨assignment, vehicle, driver, rfl, List.mem_of_find?_eq_some hv, hfrom⟩

/-- The contract accepts every order of the day. -/
theorem planningSolverOrder_ok {db : Database} (hschema : SchemaChecks db)
    {businessDate : BusinessDate} {fact : PlanningOrderFact}
    (h : fact ∈ (loadFacts db businessDate).orders) :
    ∃ order, planningSolverOrder (loadFacts db businessDate) fact = .ok order := by
  have hready : (loadFacts db businessDate).currentTime ≤ fact.pickupReadyAt := by
    refine currentTime_le (List.mem_append_left _ (List.mem_append_left _ ?_))
    exact List.mem_map.mpr ⟨fact, h, rfl⟩
  have hstart : (loadFacts db businessDate).currentTime ≤ fact.deliveryWindowStartAt := by
    refine currentTime_le (List.mem_append_left _ (List.mem_append_right _ ?_))
    exact List.mem_map.mpr ⟨fact, h, rfl⟩
  obtain ⟨row, hrow, rfl⟩ := mem_loadFacts_orders h
  have hwindow := hschema.orderWindows row hrow
  have hend : (loadFacts db businessDate).currentTime ≤
      (planningOrderFact row).deliveryWindowEndAt := le_trans hstart hwindow
  have hdemand : (planningOrderFact row).demandLoadUnits ≠ 0 :=
    Nat.ne_of_gt (hschema.demands row hrow)
  have hseconds : seconds (loadFacts db businessDate).currentTime
      (planningOrderFact row).deliveryWindowStartAt ≤
      seconds (loadFacts db businessDate).currentTime
        (planningOrderFact row).deliveryWindowEndAt := seconds_mono _ hwindow
  rw [planningSolverOrder, secondsFromCurrent_eq hready, secondsFromCurrent_eq hstart,
    secondsFromCurrent_eq hend]
  refine exists_make_order.mpr ?_
  simp [SolverOrderFields.postInit, SolverOrderFields.originCount, hdemand, hseconds]

/-- The contract accepts every pair of facts that the validator accepts. -/
theorem planningSolverVehicle_ok {db : Database} (hschema : SchemaChecks db)
    {businessDate : BusinessDate} (hplan : Plannable (loadFacts db businessDate))
    {fact : VehicleDriverPairFact} (h : fact ∈ (loadFacts db businessDate).vehicleDriverPairs) :
    ∃ vehicle, planningSolverVehicle (loadFacts db businessDate) fact = .ok vehicle := by
  have hfrom : (loadFacts db businessDate).currentTime ≤ fact.assignedFromAt := by
    refine currentTime_le (List.mem_append_right _ ?_)
    exact List.mem_map.mpr ⟨fact, h, rfl⟩
  obtain ⟨-, -, -, hwindow⟩ := hplan.pairs fact h
  obtain ⟨assignment, vehicle, driver, rfl, hv, hbegun⟩ := mem_loadFacts_pairs h
  have hlasts : (vehicleDriverPairFact (assignment, vehicle, driver)).assignedFromAt ≤
      (vehicleDriverPairFact (assignment, vehicle, driver)).assignedUntilAt.getD
        (planningEnd (loadFacts db businessDate)) := by
    cases hu : (vehicleDriverPairFact (assignment, vehicle, driver)).assignedUntilAt with
    | some finish => exact Int.le_of_lt (hwindow finish hu)
    | none =>
      rw [Option.getD_none, planningEnd_loadFacts hplan.orders]
      exact hbegun
  rw [planningSolverVehicle, secondsFromCurrent_eq hfrom,
    secondsFromCurrent_eq (le_trans hfrom hlasts)]
  refine exists_make_vehicle.mpr (vehicle_postInit_iff.mpr ⟨hschema.capacities vehicle hv, ?_, ?_⟩)
  · exact Nat.zero_le _
  · exact seconds_mono _ hlasts

/-- A built order has the id and the places of its fact. -/
theorem planningSolverOrder_fields {facts : PlanningFacts} {fact : PlanningOrderFact}
    {order : SolverOrder} (h : planningSolverOrder facts fact = .ok order) :
    fact.orderId = order.orderId ∧ fact.deliveryLocationId = order.deliveryLocationId ∧
      order.originLocation = some fact.pickupLocationId := by
  obtain ⟨_, -, h⟩ := bind_eq_ok.mp h
  obtain ⟨_, -, h⟩ := bind_eq_ok.mp h
  obtain ⟨_, -, h⟩ := bind_eq_ok.mp h
  have hfields := SolverOrder.make_ok ((valueError_eq_ok _ _).mp h)
  rw [SolverOrder.originLocation, hfields]
  exact ⟨rfl, rfl, rfl⟩

/-- A built vehicle has the id and the start of its fact. -/
theorem planningSolverVehicle_fields {facts : PlanningFacts} {fact : VehicleDriverPairFact}
    {vehicle : SolverVehicle} (h : planningSolverVehicle facts fact = .ok vehicle) :
    fact.vehicleId = vehicle.vehicleId ∧ fact.startLocationId = vehicle.startLocationId := by
  obtain ⟨_, -, h⟩ := bind_eq_ok.mp h
  obtain ⟨_, -, h⟩ := bind_eq_ok.mp h
  have hfields := SolverVehicle.make_ok ((valueError_eq_ok _ _).mp h)
  rw [hfields]
  exact ⟨rfl, rfl⟩

/-! ### The input -/

/-- Accepted orders and vehicles of accepted facts make an input. -/
theorem Plannable.exists_input {facts : PlanningFacts} (h : Plannable facts)
    {matrix : RoutingMatrix} (hm : matrix.For facts.locations)
    (horders : ∀ fact ∈ facts.orders, ∃ order, planningSolverOrder facts fact = .ok order)
    (hvehicles : ∀ fact ∈ facts.vehicleDriverPairs,
      ∃ vehicle, planningSolverVehicle facts fact = .ok vehicle) :
    ∃ input, buildSolverInput facts matrix = .ok input := by
  obtain ⟨orders, ho⟩ := exists_mapM_iff.mpr horders
  obtain ⟨vehicles, hv⟩ := exists_mapM_iff.mpr hvehicles
  have hrows := mapM_eq_ok_iff.mp ho
  have hpairs := mapM_eq_ok_iff.mp hv
  have hmade : ∃ input, valueError (SolverInput.make {
      businessDate := facts.businessDate
      currentTime := facts.currentTime
      orders := orders
      vehicles := vehicles
      frozenTasks := []
      recoveryScope := none
      locationIds := matrix.locationIds
      distanceMatrixMeters := matrix.distanceMatrixMeters
      durationMatrixSeconds := matrix.durationMatrixSeconds }) = .ok input := by
    refine exists_make_input hm rfl rfl rfl rfl ?_ ?_ ?_ ?_
    · have hsame : facts.orders.map (·.orderId) = orders.map (·.orderId) :=
        map_eq_map_of_forall₂ (fun fact order (hmake : planningSolverOrder facts fact = .ok order) ↦
          (planningSolverOrder_fields hmake).1) hrows
      exact hsame ▸ h.orderIds
    · have hsame : facts.vehicleDriverPairs.map (·.vehicleId) = vehicles.map (·.vehicleId) :=
        map_eq_map_of_forall₂
          (fun fact vehicle (hmake : planningSolverVehicle facts fact = .ok vehicle) ↦
            (planningSolverVehicle_fields hmake).1) hpairs
      exact hsame ▸ h.vehicleIds
    · intro vehicle hmem
      obtain ⟨fact, hf, hmake⟩ := exists_of_forall₂_right hpairs hmem
      rw [← (planningSolverVehicle_fields hmake).2]
      exact (h.pairs fact hf).2.2.1
    · intro order hmem
      obtain ⟨fact, hf, hmake⟩ := exists_of_forall₂_right hrows hmem
      obtain ⟨-, hdelivery, horigin⟩ := planningSolverOrder_fields hmake
      obtain ⟨-, -, hat, hto⟩ := h.planned fact hf
      refine ⟨hdelivery ▸ hto, ?_⟩
      intro location hl
      rw [horigin, Option.some.injEq] at hl
      exact hl ▸ hat
  obtain ⟨input, hinput⟩ := hmade
  exact ⟨input, bind_eq_ok.mpr ⟨orders, ho, bind_eq_ok.mpr ⟨vehicles, hv, hinput⟩⟩⟩

/-- For every database with the schema's checks: a recovery constructs the solver input of its
context exactly when no vehicle has two serving assignments and the goods aboard each vehicle
fit, and planning constructs that of all facts that its validator accepts. -/
theorem solverInputs_constructed_iff {db : Database} (hschema : SchemaChecks db) :
    (∀ incidentId scope operationalTime context incident plan (matrix : RoutingMatrix),
      materializeRecoveryContext db incidentId scope operationalTime = .ok context →
      db.incident? incidentId = some incident →
      db.plan? incident.deliveryPlanId = some plan → matrix.For context.locations →
      ((∃ input, buildRecoverySolverInput context matrix = .ok input) ↔
        ContractMet db incident plan scope (max incident.detectedAt operationalTime))) ∧
    ∀ businessDate (matrix : RoutingMatrix),
      validatePlanningFacts (loadFacts db businessDate) = [] →
      matrix.For (loadFacts db businessDate).locations →
      ∃ input, buildSolverInput (loadFacts db businessDate) matrix = .ok input := by
  constructor
  · intro incidentId scope operationalTime context incident plan matrix hread hi hp hm
    exact buildRecoverySolverInput_iff hschema hread hi hp hm
  · intro businessDate matrix hvalid hm
    have hplan := validatePlanningFacts_eq_nil.mp hvalid
    refine hplan.exists_input hm ?_ ?_
    · exact fun fact hf ↦ planningSolverOrder_ok hschema hf
    · exact fun fact hf ↦ planningSolverVehicle_ok hschema hplan hf

/-! ### Two shifts and a lowered capacity -/

/-- The date of an instant in UTC. -/
def utcDate (value : Instant) : BusinessDate := (value / 86400000000 + 719163).toNat

/-- Two vehicles whose shifts last an hour; neither has started. -/
def shiftDatabase : Database :=
  { delayDatabase with
    assignments := [⟨12, 10, 11, .planned, 0, some 3600000000, none, none⟩,
      ⟨22, 20, 21, .planned, 0, some 3600000000, none, none⟩] }

/-- Vehicle 20 and its driver have got a second shift, right after the first. -/
def secondShift : Database × VehicleDriverAssignment :=
  (createAssignment utcDate shiftDatabase 719163 20 21 3600000000 7000000000).toOption.get rfl

/-- Then merchant 7 has reported a new ready time. -/
def secondShiftReported : Database :=
  ((Incidents.MerchantDelayWorkflow.assessDelay 600 secondShift.1 738000 7 900000000 0
    true).toOption.get rfl).1

/-- The context of that incident. -/
def secondShiftContext : RecoveryContext :=
  (materializeRecoveryContext secondShiftReported 101 .affectedRoute 120000000).toOption.get rfl

/-- Vehicle 10 has picked up two orders, vehicle 20 has broken down with a third. -/
def twoAboard : Database :=
  { handoverDatabase 1 2 with
    orders := [scenarioOrder 31 2 .pickedUp, scenarioOrder 32 3 .pickedUp,
      scenarioOrder 33 3 .pickedUp]
    plans := [{ handoverBase 1 2 with
      assignedOrderCount := 3
      routes := [
        scenarioRoute 41 1 10 3 .active [scenarioStop 51 32 1 1 .pickup none true,
          scenarioStop 55 33 1 2 .pickup none true,
          scenarioStop 52 32 3 3 .delivery (some 51) false,
          scenarioStop 56 33 3 4 .delivery (some 55) false],
        scenarioRoute 42 2 20 2 .active [scenarioStop 53 31 1 1 .pickup none true,
          scenarioStop 54 31 2 2 .delivery (some 53) false]]
      planOrders := [⟨31, .assigned, some 42, none, none⟩, ⟨32, .assigned, some 41, none, none⟩,
        ⟨33, .assigned, some 41, none, none⟩] }] }

/-- The capacity of vehicle 10 has been edited to one unit. -/
def loweredCapacity : Database := (replaceVehicle twoAboard 10 1).toOption.get rfl

/-- The context of the breakdown after the edit. -/
def loweredContext : RecoveryContext :=
  (materializeRecoveryContext loweredCapacity 60 .crossRoute 300000000).toOption.get rfl

/-- Both databases keep the checks of the schema, and in both the input is refused: a vehicle
with a second shift occurs twice, and one whose capacity was edited starts overloaded. -/
theorem second_shift_and_lowered_capacity_refused :
    (SchemaChecks secondShiftReported ∧
      materializeRecoveryContext secondShiftReported 101 .affectedRoute 120000000 =
        .ok secondShiftContext ∧
      (uniformMatrix secondShiftContext.locations).For secondShiftContext.locations ∧
      ¬ ∃ input, buildRecoverySolverInput secondShiftContext
        (uniformMatrix secondShiftContext.locations) = .ok input) ∧
    SchemaChecks loweredCapacity ∧
      materializeRecoveryContext loweredCapacity 60 .crossRoute 300000000 = .ok loweredContext ∧
      (uniformMatrix loweredContext.locations).For loweredContext.locations ∧
      ¬ ∃ input, buildRecoverySolverInput loweredContext
        (uniformMatrix loweredContext.locations) = .ok input := by
  have hshift : buildRecoverySolverInput secondShiftContext
      (uniformMatrix secondShiftContext.locations) = .error (.uncaught "ValueError") := rfl
  have hlowered : buildRecoverySolverInput loweredContext
      (uniformMatrix loweredContext.locations) = .error (.uncaught "ValueError") := rfl
  refine ⟨⟨?_, rfl, ?_, ?_⟩, ?_, rfl, ?_, ?_⟩
  · refine ⟨?_, ?_, ?_, ?_, ?_, ?_⟩ <;> decide
  · exact ⟨rfl, by decide, ⟨rfl, by decide⟩, rfl, by decide⟩
  · rintro ⟨input, hinput⟩
    rw [hshift] at hinput
    cases hinput
  · refine ⟨?_, ?_, ?_, ?_, ?_, ?_⟩ <;> decide
  · exact ⟨rfl, by decide, ⟨rfl, by decide⟩, rfl, by decide⟩
  · rintro ⟨input, hinput⟩
    rw [hlowered] at hinput
    cases hinput

/-- Vehicles with one shift and room: the recovery of the breakdown and the first plan of the
day both construct their inputs. -/
theorem scenario_inputs_constructed :
    ContractMet (handoverDatabase 1 2) handoverIncident (handoverBase 1 2) .crossRoute
        300000000 ∧
      ∃ input, buildSolverInput (loadFacts delayDatabase 738000)
        (uniformMatrix (loadFacts delayDatabase 738000).locations) = .ok input := by
  have hhandover : SchemaChecks (handoverDatabase 1 2) := by
    refine ⟨?_, ?_, ?_, ?_, ?_, ?_⟩ <;> decide
  have hdelay : SchemaChecks delayDatabase := by
    refine ⟨?_, ?_, ?_, ?_, ?_, ?_⟩ <;> decide
  constructor
  · refine ((solverInputs_constructed_iff hhandover).1 60 .crossRoute 300000000 handoverContext
      handoverIncident (handoverBase 1 2) handoverMatrix rfl rfl rfl ?_).mp ⟨_, rfl⟩
    exact ⟨rfl, by decide, ⟨rfl, by decide⟩, rfl, by decide⟩
  · refine (solverInputs_constructed_iff hdelay).2 738000 _ (by decide +kernel) ?_
    exact ⟨rfl, by decide +kernel, ⟨by decide +kernel, by decide +kernel⟩, by decide +kernel,
      by decide +kernel⟩

end PenroseRoute.Planning
