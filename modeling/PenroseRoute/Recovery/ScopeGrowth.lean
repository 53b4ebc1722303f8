import PenroseRoute.Recovery.Context

/-!
# Wider scopes

For one state of the database and one operational time, the context of a wider scope has the
target orders and the vehicles of every narrower one. A larger end of planning only lets more
assignments meet the window of the vehicle query.
-/

namespace PenroseRoute.Recovery

open PenroseRoute.Db PenroseRoute.Lib PenroseRoute.Operations

/-- The place of a scope in the `order` of `scope.py:30`. -/
def scopeRank : ReplanningScope → Nat
  | .affectedRoute => 0
  | .crossRoute => 1
  | .allRemaining => 2

/-- The next scope has the next place. -/
theorem scopeRank_next {scope wider : ReplanningScope}
    (h : Incidents.nextReplanningScope scope = some wider) :
    scopeRank wider = scopeRank scope + 1 := by
  cases scope <;> cases h <;> rfl

/-- The last scope is the one without a next one. -/
theorem scopeRank_le (scope : ReplanningScope) : scopeRank scope ≤ 2 := by
  cases scope <;> decide

/-- A vehicle of a narrower scope under a wider one: the same pair at the same place, which is
available no less long. -/
structure VehicleGrows (narrow wide : RecoveryVehicleFact) : Prop where
  assignmentId : wide.assignmentId = narrow.assignmentId
  vehicleId : wide.vehicleId = narrow.vehicleId
  driverId : wide.driverId = narrow.driverId
  capacity : wide.capacityLoadUnits = narrow.capacityLoadUnits
  startLocationId : wide.startLocationId = narrow.startLocationId
  availableFrom : wide.availableFrom = narrow.availableFrom
  availableUntil : narrow.availableUntil ≤ wide.availableUntil

variable {db : Database} {incident : Incident} {plan : DeliveryPlan}
  {scope wider : ReplanningScope} {operationalTime currentTime : Instant}
  {context widened : RecoveryContext}

/-! ### Target orders -/

/-- A wider scope reaches the members that a narrower one does. -/
theorem scopeReaches_mono (hle : scopeRank scope ≤ scopeRank wider)
    {membership : DeliveryPlanOrder} (h : scopeReaches db incident plan scope membership) :
    scopeReaches db incident plan wider membership := by
  unfold scopeReaches at h ⊢
  cases scope <;> cases wider <;> simp_all [scopeRank]

/-- A wider scope has the target orders of a narrower one. -/
theorem targetIds_mono (hle : scopeRank scope ≤ scopeRank wider) {orderId : UUID}
    (h : orderId ∈ targetIds db incident plan scope) :
    orderId ∈ targetIds db incident plan wider := by
  simp only [targetIds, List.mem_insertionSort, List.mem_dedup, List.mem_append, List.mem_map,
    List.mem_filter, Bool.and_eq_true] at h ⊢
  rcases h with h | ⟨membership, ⟨hm, hreach, hopen⟩, hid⟩
  · exact .inl h
  · exact .inr ⟨membership, ⟨hm, scopeReaches_mono hle hreach, hopen⟩, hid⟩

/-! ### Vehicles -/

/-- A window that ends later meets the assignments of one that ends earlier. -/
theorem vehicleDriverPairsForWindow_mono {planningEnd laterEnd : Instant}
    (hend : planningEnd ≤ laterEnd) {pair : VehicleDriverAssignment × Vehicle × Driver}
    (h : pair ∈ vehicleDriverPairsForWindow db currentTime planningEnd) :
    pair ∈ vehicleDriverPairsForWindow db currentTime laterEnd := by
  simp only [vehicleDriverPairsForWindow, List.mem_insertionSort, List.mem_filterMap] at h ⊢
  obtain ⟨assignment, ha, h⟩ := h
  refine ⟨assignment, ha, ?_⟩
  by_cases hmeets : (assignment.status = .planned ∨ assignment.status = .active) ∧
      assignment.assignedFromAt ≤ planningEnd ∧
      assignment.assignedUntilAt.all (currentTime < ·)
  · rw [if_pos hmeets] at h
    rw [if_pos ⟨hmeets.1, hmeets.2.1.trans hend, hmeets.2.2⟩]
    exact h
  · rw [if_neg hmeets] at h
    cases h

/-- A wider scope that plans no less far ahead has the pairs of a narrower one. -/
theorem usablePairs_mono (hle : scopeRank scope ≤ scopeRank wider)
    {planningEnd laterEnd : Instant} (hend : planningEnd ≤ laterEnd)
    {pair : VehicleDriverAssignment × Vehicle × Driver}
    (h : pair ∈ usablePairs db incident plan scope currentTime planningEnd) :
    pair ∈ usablePairs db incident plan wider currentTime laterEnd := by
  rw [usablePairs, List.mem_filter] at h ⊢
  refine ⟨vehicleDriverPairsForWindow_mono hend h.1, ?_⟩
  have h := h.2
  cases scope <;> cases wider <;> simp_all [scopeRank]

/-- The facts of a pair with a window that ends later. -/
theorem vehicleFacts_mono {facts widerFacts : List RecoveryOrderFact}
    {planningEnd laterEnd : Instant} (hend : planningEnd ≤ laterEnd)
    {usable widerUsable : List (VehicleDriverAssignment × Vehicle × Driver)}
    (hsub : ∀ pair ∈ usable, pair ∈ widerUsable) {vehicle : RecoveryVehicleFact}
    (h : vehicle ∈ vehicleFacts facts currentTime planningEnd usable) :
    ∃ wide ∈ vehicleFacts widerFacts currentTime laterEnd widerUsable,
      VehicleGrows vehicle wide := by
  obtain ⟨⟨assignment, row, driver⟩, hmem, rfl⟩ := List.mem_map.mp h
  have huntil : assignment.assignedUntilAt.getD planningEnd ≤
      assignment.assignedUntilAt.getD laterEnd := by
    cases assignment.assignedUntilAt with
    | none => exact hend
    | some assignedUntil => exact Int.le_refl assignedUntil
  rw [List.mem_filter, decide_eq_true_eq] at hmem
  refine ⟨_, List.mem_map.mpr ⟨(assignment, row, driver), ?_, rfl⟩,
    rfl, rfl, rfl, rfl, rfl, rfl, huntil⟩
  rw [List.mem_filter, decide_eq_true_eq]
  exact ⟨hsub _ hmem.1, Int.le_trans hmem.2 huntil⟩

/-! ### Contexts -/

/-- More facts are planned no less far ahead. -/
theorem planningEnd_mono {facts widerFacts : List RecoveryOrderFact}
    {planningEnd laterEnd : Instant}
    (h : (facts.map fun order ↦
      order.deliveryWindowEndAt + timedelta order.deliveryServiceSeconds).max? =
        some planningEnd)
    (hwider : (widerFacts.map fun order ↦
      order.deliveryWindowEndAt + timedelta order.deliveryServiceSeconds).max? = some laterEnd)
    (hsub : ∀ order ∈ facts, order ∈ widerFacts) : planningEnd ≤ laterEnd := by
  obtain ⟨order, ho, rfl⟩ := List.mem_map.mp (List.max?_eq_some_iff.mp h).1
  exact (List.max?_eq_some_iff.mp hwider).2 _ (List.mem_map_of_mem (hsub order ho))

/-- The context of a wider scope has the target orders and the vehicles of a narrower one. -/
theorem materializeRecoveryContext_mono {incidentId : UUID}
    (hle : scopeRank scope ≤ scopeRank wider)
    (h : materializeRecoveryContext db incidentId scope operationalTime = .ok context)
    (hwide : materializeRecoveryContext db incidentId wider operationalTime = .ok widened) :
    (∀ order ∈ context.targetOrders, order ∈ widened.targetOrders) ∧
      ∀ vehicle ∈ context.vehicles, ∃ wide ∈ widened.vehicles, VehicleGrows vehicle wide := by
  obtain ⟨incident, plan, hi, hp, -⟩ := materializeRecoveryContext_ok h
  obtain ⟨hr, planningEnd, hend, hvehicles, -⟩ := materializeRecoveryContext_vehicles h hi hp
  obtain ⟨hr', laterEnd, hend', hvehicles', -⟩ := materializeRecoveryContext_vehicles hwide hi hp
  have horders : ∀ order ∈ context.targetOrders, order ∈ widened.targetOrders := by
    intro order ho
    obtain ⟨orderId, hid, hfact⟩ := exists_of_forall₂_right hr.targetOrders ho
    obtain ⟨other, hother, hsame⟩ :=
      exists_of_forall₂_left hr'.targetOrders (targetIds_mono hle hid)
    rw [hfact] at hsame
    cases hsame
    exact hother
  refine ⟨horders, fun vehicle hv ↦ ?_⟩
  have hlater := planningEnd_mono hend hend' horders
  rw [hvehicles']
  rw [hvehicles, hr.currentTime, ← hr'.currentTime] at hv
  exact vehicleFacts_mono hlater (fun _ hpair ↦ usablePairs_mono hle hlater hpair) hv

end PenroseRoute.Recovery
