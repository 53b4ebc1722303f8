import PenroseRoute.Optimization.OrToolsNodes

/-!
# Why an order is unassigned

`_unassigned_reason` of `backend/app/integrations/optimization/ortools_solver.py` is a second model
of what a vehicle can do, beside the constraints that `_solve` posts. It takes no notice of the
capacity once some vehicle has enough, of the wait for the window to open and of the time that the
delivery takes.
-/

namespace PenroseRoute.Optimization.ORToolsSolver

open PenroseRoute.Lib
open SolverResultValidator (originType)

variable {input : SolverInput} {grouped : List (UUID × List FrozenTask)} {order : SolverOrder}
  {vehicle : SolverVehicle}

/-! ### What is posted -/

/-- A vehicle can serve an order alone behind its frozen stops: there are arrivals at the origin and
at the delivery that keep to the travel and service times, to the ready time, to the delivery window
and, when the delivery is done, to the availability of the vehicle. -/
def ServesAlone (input : SolverInput) (grouped : List (UUID × List FrozenTask))
    (order : SolverOrder) (vehicle : SolverVehicle) : Prop :=
  let frozen := frozenOn grouped vehicle.vehicleId
  ∃ location, order.originLocation = some location ∧ ∃ origin delivery : Nat,
    startTime vehicle frozen + input.duration (startLocation vehicle frozen) location ≤ origin ∧
    order.readyTimeSeconds ≤ origin ∧
    origin + originServiceSeconds order + input.duration location order.deliveryLocationId ≤
      delivery ∧
    order.deliveryWindowStartSeconds ≤ delivery ∧ delivery ≤ order.deliveryWindowEndSeconds ∧
    delivery + order.deliveryServiceSeconds ≤ vehicle.availableUntilSeconds

/-- The time that the solver posts for the vehicle with an index on a route that visits an origin
and a delivery node and no other: the dimension along the route, its bounds and the ranges. -/
def PostedTime (input : SolverInput) (grouped : List (UUID × List FrozenTask))
    (nodes : List Node) (order : SolverOrder) (vehicle : SolverVehicle) (k o d : Nat)
    (cumul : Nat → Int) : Prop :=
  let time := dimension input nodes .time
  Along (fun i j ↦ ∃ slack, 0 ≤ slack ∧ slack ≤ time.slackMax ∧
      cumul j = cumul i + time.transit i j + slack) (startNode k) [o, d] (endNode k) ∧
    (∀ i ∈ [startNode k, o, d, endNode k], 0 ≤ cumul i ∧ cumul i ≤ time.capacity k) ∧
    ∀ node lo hi, .cumulRange .time node lo hi ∈
        vehicleConstraints vehicle (frozenOn grouped vehicle.vehicleId) k ++
          orderConstraints input order ⟨some o, some d, none⟩ →
      lo ≤ cumul node ∧ cumul node ≤ hi

/-- When the delivery location is reached at the earliest. -/
def earliestDelivery (input : SolverInput) (grouped : List (UUID × List FrozenTask))
    (order : SolverOrder) (vehicle : SolverVehicle) : Nat :=
  let frozen := frozenOn grouped vehicle.vehicleId
  let location := order.originLocation.getD 0
  max (startTime vehicle frozen + input.duration (startLocation vehicle frozen) location)
      order.readyTimeSeconds + originServiceSeconds order +
    input.duration location order.deliveryLocationId

/-- A window does not end before it starts. -/
theorem window_le (order : SolverOrder) :
    order.deliveryWindowStartSeconds ≤ order.deliveryWindowEndSeconds := by
  have h := order.checked
  simp only [SolverOrderFields.postInit, raiseFirst_cons_eq_ok] at h
  simpa using h.2.2.1

/-- Whoever can serve the order can do so without delay. -/
theorem servesAlone_iff (horigin : order.originLocation.isSome) :
    ServesAlone input grouped order vehicle ↔
      earliestDelivery input grouped order vehicle ≤ order.deliveryWindowEndSeconds ∧
        max (earliestDelivery input grouped order vehicle) order.deliveryWindowStartSeconds +
          order.deliveryServiceSeconds ≤ vehicle.availableUntilSeconds := by
  obtain ⟨location, hlocation⟩ := Option.isSome_iff_exists.mp horigin
  have hwindow := window_le order
  unfold ServesAlone earliestDelivery
  simp only [hlocation, Option.getD_some, Option.some.injEq, exists_eq_left']
  constructor
  · rintro ⟨origin, delivery, htravel, hready, hdelivery, hstart, hend, huntil⟩
    omega
  · rintro ⟨hend, huntil⟩
    refine ⟨_, _, Nat.le_max_left _ _, Nat.le_max_right _ _, Nat.le_max_left _ _,
      Nat.le_max_right _ _, ?_, huntil⟩
    omega

private theorem le_horizon {n : Nat} (h : n ∈ input.vehicles.map (·.availableUntilSeconds) ++
    input.orders.map (·.deliveryWindowEndSeconds) ++ input.orders.map (·.readyTimeSeconds)) :
    n ≤ horizon input := by
  unfold horizon
  generalize input.vehicles.map (·.availableUntilSeconds) ++
    input.orders.map (·.deliveryWindowEndSeconds) ++
      input.orders.map (·.readyTimeSeconds) = limits at h ⊢
  induction limits with
  | nil => cases h
  | cons m rest ih =>
    rw [List.foldr_cons]
    cases h with
    | head => exact Nat.le_max_left _ _
    | tail _ hn => exact Nat.le_trans (ih hn) (Nat.le_max_right _ _)

private theorem transits {nodes : List Node} {k o d : Nat} {kind : SolverStopType}
    {location : UUID} (hlocation : order.originLocation = some location)
    (hstart : nodeAt nodes (startNode k) =
      { locationId := some (startLocation vehicle (frozenOn grouped vehicle.vehicleId)) })
    (horigin : nodeAt nodes o = originNodeOf order kind)
    (hdelivery : nodeAt nodes d = deliveryNodeOf order)
    (hend : nodeAt nodes (endNode k) = { locationId := none }) :
    timeCallback input nodes (startNode k) o =
        input.duration (startLocation vehicle (frozenOn grouped vehicle.vehicleId)) location ∧
      timeCallback input nodes o d =
        originServiceSeconds order + input.duration location order.deliveryLocationId ∧
      timeCallback input nodes d (endNode k) = order.deliveryServiceSeconds := by
  simp [timeCallback, hstart, horigin, hdelivery, hend, originNodeOf, deliveryNodeOf, hlocation]

/-- The posted times can be met exactly when the vehicle can serve the order alone. -/
theorem servesAlone_iff_posted {own : List Node} {all : List (SolverOrder × OrderNodes)}
    {k o d : Nat}
    (horders : appendOrders input (vehicleNodes input grouped).length input.orders = .ok (own, all))
    (hplaced : (order, ⟨some o, some d, none⟩) ∈ all) (hk : input.vehicles[k]? = some vehicle) :
    ServesAlone input grouped order vehicle ↔
      ∃ cumul, PostedTime input grouped (vehicleNodes input grouped ++ own) order vehicle k o d
        cumul := by
  have hlength : (vehicleNodes input grouped).length = 2 * input.vehicles.length :=
    length_vehicleNodes grouped
  obtain ⟨hmap, hall, -⟩ := appendOrders_placed (Nat.le_of_eq hlength.symm) horders
  have horder : order ∈ input.orders := hmap ▸ List.mem_map_of_mem hplaced
  have hkl : k < input.vehicles.length := (List.getElem?_eq_some_iff.mp hk).1
  have huntil : vehicle.availableUntilSeconds ≤ horizon input := by
    apply le_horizon
    simp only [List.mem_append, List.mem_map]
    exact .inl (.inl ⟨vehicle, List.mem_of_getElem? hk, rfl⟩)
  have hwindow : order.deliveryWindowEndSeconds ≤ horizon input := by
    apply le_horizon
    simp only [List.mem_append, List.mem_map]
    exact .inl (.inr ⟨order, horder, rfl⟩)
  cases hall _ hplaced with
  | whole kind o d horigin _ _ ho hd hpickup hdelivery =>
    have hdistinct : o ≠ d ∧ o ≠ startNode k ∧ o ≠ endNode k ∧ d ≠ startNode k ∧ d ≠ endNode k ∧
        startNode k ≠ endNode k := by
      refine ⟨?_, by unfold startNode; omega, by unfold endNode; omega,
        by unfold startNode; omega, by unfold endNode; omega, by unfold startNode endNode; omega⟩
      rintro rfl
      rw [hpickup] at hdelivery
      have hload := congrArg (·.map (·.loadChangeLoadUnits)) hdelivery
      have hpos := order.demand_pos
      simp only [Option.map_some, originNodeOf, deliveryNodeOf, Option.some.injEq] at hload
      omega
    obtain ⟨hod, hos, hoe, hds, hde, hse⟩ := hdistinct
    obtain ⟨location, hlocation⟩ : ∃ location, order.originLocation = some location := by
      rcases order.origin_cases with ⟨location, hp, -⟩ | ⟨location, hp, hh, -⟩ | ⟨v, hp, hh, -⟩
      · exact ⟨location, by simp [SolverOrder.originLocation, hp]⟩
      · exact ⟨location, by simp [SolverOrder.originLocation, hp, hh]⟩
      · simp [originType, hp, hh] at horigin
    obtain ⟨hfirst, hsecond, hlast⟩ := @transits input grouped order vehicle _ k o d kind location
      hlocation (nodeAt_startNode grouped own hk)
      (congrArg (·.getD { locationId := none }) hpickup)
      (congrArg (·.getD { locationId := none }) hdelivery) (nodeAt_endNode grouped own hk)
    simp only [ServesAlone, PostedTime, dimension, along_cons, along_nil, hfirst, hsecond, hlast,
      hlocation, Option.some.injEq, exists_eq_left']
    constructor
    · rintro ⟨origin, delivery, htravel, hready, hdeparture, hopen, hclose, hdone⟩
      refine ⟨fun i ↦ if i = startNode k then
          startTime vehicle (frozenOn grouped vehicle.vehicleId)
        else if i = o then origin else if i = d then delivery
        else delivery + order.deliveryServiceSeconds, ?_, ?_, ?_⟩
      · simp only [hos, hds, hod.symm, hoe.symm, hde.symm, hse.symm, if_true, if_false]
        exact ⟨⟨origin - (startTime vehicle (frozenOn grouped vehicle.vehicleId) +
            input.duration (startLocation vehicle (frozenOn grouped vehicle.vehicleId)) location),
          by omega, by omega, by omega⟩,
          ⟨delivery - (origin + originServiceSeconds order +
            input.duration location order.deliveryLocationId), by omega, by omega, by omega⟩,
          ⟨0, by omega, by omega, by omega⟩⟩
      · simp only [List.mem_cons, List.not_mem_nil, or_false, forall_eq_or_imp, forall_eq, hos, hds,
          hod.symm, hoe.symm, hde.symm, hse.symm, if_true, if_false]
        omega
      · intro node lo hi hin
        simp only [vehicleConstraints, orderConstraints, List.mem_append, List.mem_cons,
          List.not_mem_nil, or_false, RoutingConstraint.cumulRange.injEq, reduceCtorEq,
          false_and, true_and] at hin
        rcases hin with (⟨rfl, rfl, rfl⟩ | ⟨rfl, rfl, rfl⟩) | ⟨rfl, rfl, rfl⟩ | ⟨rfl, rfl, rfl⟩
        all_goals
          simp only [hos, hds, hod.symm, hoe.symm, hde.symm, hse.symm, if_true, if_false]
          omega
    · rintro ⟨cumul, ⟨⟨_, hs₁, -, ho⟩, ⟨_, hs₂, -, hd⟩, _, hs₃, -, he⟩, hbounds, hranges⟩
      have hstart := hranges (startNode k) _ _ (List.mem_append_left _ List.mem_cons_self)
      have hend := hranges (endNode k) _ _
        (List.mem_append_left _ (List.mem_cons_of_mem _ List.mem_cons_self))
      have hopen := hranges d _ _ (List.mem_append_right _ List.mem_cons_self)
      have hready := hranges o _ _
        (List.mem_append_right _ (List.mem_cons_of_mem _ List.mem_cons_self))
      refine ⟨(cumul o).toNat, (cumul d).toNat, ?_⟩
      omega

/-! ### What is reported -/

/-- The reason that is reported is the true one. -/
structure ReasonIsTrue (input : SolverInput) (grouped : List (UUID × List FrozenTask))
    (order : SolverOrder) : Prop where
  capacity : unassignedReason input grouped order = .capacityInfeasible ↔
    ∀ vehicle ∈ input.vehicles, vehicle.capacityLoadUnits < order.demandLoadUnits
  timeWindow : (∃ vehicle ∈ input.vehicles, order.demandLoadUnits ≤ vehicle.capacityLoadUnits) →
    (unassignedReason input grouped order = .timeWindowInfeasible ↔
      ∀ vehicle ∈ input.vehicles, order.demandLoadUnits ≤ vehicle.capacityLoadUnits →
        ¬ ServesAlone input grouped order vehicle)
  otherwise : (∃ vehicle ∈ input.vehicles, order.demandLoadUnits ≤ vehicle.capacityLoadUnits ∧
      ServesAlone input grouped order vehicle) →
    unassignedReason input grouped order = .noFeasibleRoute

/-- What the code asks of a vehicle: the delivery location is reached before the window and the
availability end. -/
def ReachesDelivery (input : SolverInput) (grouped : List (UUID × List FrozenTask))
    (order : SolverOrder) (vehicle : SolverVehicle) : Prop :=
  earliestDelivery input grouped order vehicle ≤ order.deliveryWindowEndSeconds ∧
    earliestDelivery input grouped order vehicle ≤ vehicle.availableUntilSeconds

/-- Who can serve the order reaches its delivery. -/
theorem ServesAlone.reaches (horigin : order.originLocation.isSome)
    (h : ServesAlone input grouped order vehicle) :
    ReachesDelivery input grouped order vehicle := by
  obtain ⟨hend, huntil⟩ := (servesAlone_iff horigin).mp h
  exact ⟨hend, by omega⟩

private theorem unassignedReason_of_capacity
    (h : ∃ vehicle ∈ input.vehicles, order.demandLoadUnits ≤ vehicle.capacityLoadUnits) :
    ((∃ vehicle ∈ input.vehicles, ReachesDelivery input grouped order vehicle) ∧
        unassignedReason input grouped order = .noFeasibleRoute) ∨
      ((∀ vehicle ∈ input.vehicles, ¬ ReachesDelivery input grouped order vehicle) ∧
        unassignedReason input grouped order = .timeWindowInfeasible) := by
  obtain ⟨vehicle, hv, hcapacity⟩ := h
  unfold unassignedReason
  rw [if_neg]
  · dsimp only
    split
    · next hany =>
      rw [List.any_eq_true] at hany
      obtain ⟨other, ho, hreaches⟩ := hany
      refine .inl ⟨⟨other, ho, ?_⟩, rfl⟩
      simpa only [ReachesDelivery, earliestDelivery, Bool.and_eq_true, decide_eq_true_eq]
        using hreaches
    · next hany =>
      refine .inr ⟨fun other ho hreaches ↦ hany ?_, rfl⟩
      rw [List.any_eq_true]
      refine ⟨other, ho, ?_⟩
      simpa only [ReachesDelivery, earliestDelivery, Bool.and_eq_true, decide_eq_true_eq]
        using hreaches
  · rw [List.all_eq_true]
    intro hall
    have hless := hall vehicle hv
    rw [decide_eq_true_eq] at hless
    omega

/-- The true reason is reported exactly when no vehicle has enough capacity, or none reaches the
delivery in time, or one that has enough capacity can serve the order alone. -/
theorem unassignedReason_true_iff (horigin : order.originLocation.isSome) :
    ReasonIsTrue input grouped order ↔
      ((∃ vehicle ∈ input.vehicles, order.demandLoadUnits ≤ vehicle.capacityLoadUnits) →
        (∃ vehicle ∈ input.vehicles, ReachesDelivery input grouped order vehicle) →
          ∃ vehicle ∈ input.vehicles, order.demandLoadUnits ≤ vehicle.capacityLoadUnits ∧
            ServesAlone input grouped order vehicle) := by
  by_cases hcapacity : ∃ vehicle ∈ input.vehicles,
      order.demandLoadUnits ≤ vehicle.capacityLoadUnits
  · have hsome : ¬ ∀ vehicle ∈ input.vehicles,
        vehicle.capacityLoadUnits < order.demandLoadUnits := by
      obtain ⟨vehicle, hv, hle⟩ := hcapacity
      intro hall
      have hless := hall vehicle hv
      omega
    have hreason := @unassignedReason_of_capacity input grouped order hcapacity
    constructor
    · rintro h - ⟨vehicle, hv, hreaches⟩
      rcases hreason with ⟨-, hno⟩ | ⟨hnone, -⟩
      · apply Classical.byContradiction
        intro hserves
        have htime := (h.timeWindow hcapacity).mpr fun other ho hle halone ↦
          hserves ⟨other, ho, hle, halone⟩
        rw [hno] at htime
        cases htime
      · exact absurd hreaches (hnone vehicle hv)
    · intro h
      rcases hreason with ⟨hsomeone, hno⟩ | ⟨hnone, htime⟩
      · obtain ⟨vehicle, hv, hle, halone⟩ := h hcapacity hsomeone
        refine ⟨?_, fun _ ↦ ?_, fun _ ↦ hno⟩
        · rw [hno]
          exact ⟨fun he ↦ (by cases he), fun hall ↦ absurd hall hsome⟩
        · rw [hno]
          exact ⟨fun he ↦ (by cases he), fun hall ↦ absurd halone (hall vehicle hv hle)⟩
      · refine ⟨?_, fun _ ↦ ⟨fun _ other ho _ halone ↦ ?_, fun _ ↦ htime⟩, ?_⟩
        · rw [htime]
          exact ⟨fun he ↦ (by cases he), fun hall ↦ absurd hall hsome⟩
        · exact hnone other ho (halone.reaches horigin)
        · rintro ⟨other, ho, -, halone⟩
          exact absurd (halone.reaches horigin) (hnone other ho)
  · have hnone : ∀ vehicle ∈ input.vehicles,
        vehicle.capacityLoadUnits < order.demandLoadUnits := by
      intro vehicle hv
      apply Nat.lt_of_not_le
      exact fun hle ↦ hcapacity ⟨vehicle, hv, hle⟩
    have hreason : unassignedReason input grouped order = .capacityInfeasible := by
      unfold unassignedReason
      rw [if_pos]
      rw [List.all_eq_true]
      exact fun vehicle hv ↦ decide_eq_true (hnone vehicle hv)
    refine ⟨fun _ h ↦ absurd h hcapacity, fun _ ↦ ⟨⟨fun _ ↦ hnone, fun _ ↦ hreason⟩, ?_, ?_⟩⟩
    · exact fun h ↦ absurd h hcapacity
    · rintro ⟨vehicle, hv, hle, -⟩
      exact absurd ⟨vehicle, hv, hle⟩ hcapacity

/-! ### An order that is reached but not served -/

-- Picked up at location 1 and delivered at location 2 from 100 on, which takes 50.
private def slowOrder : SolverOrder :=
  ⟨⟨10, some 1, none, 2, 0, 100, 900, 0, 0, 50, 1, none⟩, rfl⟩

-- The only vehicle ends at 120.
private def slowInput : SolverInput where
  businessDate := 738000
  currentTime := 0
  orders := [slowOrder]
  vehicles := [⟨⟨20, 5, 1, 0, 120, 0⟩, rfl⟩]
  frozenTasks := []
  recoveryScope := none
  locationIds := [1, 2]
  distanceMatrixMeters := [[0, 100], [100, 0]]
  durationMatrixSeconds := [[0, 10], [10, 0]]
  checked := rfl

-- The same with a vehicle that ends at 150.
private def longInput : SolverInput where
  toSolverInputFields := { slowInput.toSolverInputFields with
    vehicles := [⟨⟨20, 5, 1, 0, 150, 0⟩, rfl⟩] }
  checked := rfl

/-- A vehicle that can serve its order alone makes the reason true. -/
theorem unassignedReason_true_long : ReasonIsTrue longInput [] slowOrder :=
  (@unassignedReason_true_iff longInput [] slowOrder rfl).mpr fun _ _ ↦
    ⟨_, List.mem_cons_self, by decide,
      (@servesAlone_iff longInput [] slowOrder _ rfl).mpr (by decide)⟩

/-- The vehicle is there before the window opens, but cannot wait for it and deliver: the reported
reason is that no route was found. -/
theorem slow_delivery_reported :
    groupFrozenTasks slowInput = .ok [] ∧ slowOrder ∈ slowInput.orders ∧
      unassignedReason slowInput [] slowOrder = .noFeasibleRoute ∧
      ¬ ReasonIsTrue slowInput [] slowOrder := by
  refine ⟨by decide, List.mem_cons_self, by decide, fun h ↦ ?_⟩
  have htime := (h.timeWindow (by decide)).mpr fun vehicle hv _ halone ↦ by
    rw [List.mem_singleton.mp hv] at halone
    exact absurd ((@servesAlone_iff slowInput [] slowOrder _ rfl).mp halone) (by decide)
  exact absurd htime (by decide)

end PenroseRoute.Optimization.ORToolsSolver
