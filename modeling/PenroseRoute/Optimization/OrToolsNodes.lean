import PenroseRoute.Optimization.FeasibleRouting
import PenroseRoute.Optimization.OrToolsSolver

/-!
# What the solver's nodes stand for

Specifications of the preparation in `_solve`: the frozen tasks of a vehicle, the start and
end node of each vehicle, and which order each further node belongs to.
-/

namespace PenroseRoute.Optimization.ORToolsSolver

open PenroseRoute.Lib
open SolverResultValidator (originType)

variable {input : SolverInput}

/-! ### Frozen tasks -/

/-- The frozen stops of a vehicle by sequence number. -/
def frozenStops (input : SolverInput) (vehicleId : UUID) : List SolverStop :=
  ((input.frozenTasks.filter fun task ↦ task.vehicleId = vehicleId).mergeSort
    fun a b ↦ a.stop.sequenceNo ≤ b.stop.sequenceNo).map (·.stop)

/-- The frozen stops are those of the vehicle's frozen tasks. -/
theorem mem_frozenStops {vehicleId : UUID} {stop : SolverStop} :
    stop ∈ frozenStops input vehicleId ↔
      ∃ task ∈ input.frozenTasks, task.vehicleId = vehicleId ∧ task.stop = stop := by
  simp only [frozenStops, List.mem_map, List.mem_mergeSort, List.mem_filter, decide_eq_true_eq,
    and_assoc]

/-- A successful grouping gives each vehicle its frozen tasks by sequence number. -/
theorem frozenOn_eq {grouped : List (UUID × List FrozenTask)}
    (h : groupFrozenTasks input = .ok grouped) (vehicleId : UUID) :
    (frozenOn grouped vehicleId).map (·.stop) = frozenStops input vehicleId := by
  unfold groupFrozenTasks at h
  split at h
  · cases h
  · dsimp only at h
    split at h
    · cases h
    · have hg := (Except.ok.inj h).symm
      have hkeys : (grouped.map Prod.fst).Nodup := by
        rw [hg, List.map_map]
        exact nodup_keys_groupByKey FrozenTask.vehicleId input.frozenTasks
      have hmem (k : UUID) (tasks : List FrozenTask) : (k, tasks) ∈ grouped ↔
          ∃ own, (k, own) ∈ groupByKey FrozenTask.vehicleId input.frozenTasks ∧
            own.mergeSort (fun a b ↦ a.stop.sequenceNo ≤ b.stop.sequenceNo) = tasks := by
        rw [hg]
        constructor
        · intro hm
          obtain ⟨⟨k', own⟩, hown, he⟩ := List.mem_map.mp hm
          obtain ⟨rfl, rfl⟩ := Prod.mk.inj he
          exact ⟨own, hown, rfl⟩
        · rintro ⟨own, hown, rfl⟩
          exact List.mem_map.mpr ⟨(k, own), hown, rfl⟩
      unfold frozenOn frozenStops
      cases hf : grouped.find? (·.1 == vehicleId) with
      | none =>
        have hnone : input.frozenTasks.filter (fun task ↦ task.vehicleId = vehicleId) = [] := by
          apply Classical.byContradiction
          intro hne
          have hin := (hmem vehicleId _).mpr ⟨_, (mem_groupByKey _ _ _ _).mpr ⟨rfl, hne⟩, rfl⟩
          exact find?_key_eq_none_iff.mp hf _ hin rfl
        rw [hnone, List.mergeSort_nil]
        rfl
      | some group =>
        obtain ⟨hin, hkey⟩ := (find?_key_eq_some_iff hkeys).mp hf
        obtain ⟨k, tasks⟩ := group
        obtain ⟨own, hown, rfl⟩ := (hmem k tasks).mp hin
        obtain ⟨rfl, -⟩ := (mem_groupByKey _ _ _ _).mp hown
        rw [← show k = vehicleId from hkey]
        rfl

/-- A successful grouping knows the vehicle of every frozen task. -/
theorem frozen_vehicle_mem {grouped : List (UUID × List FrozenTask)}
    (h : groupFrozenTasks input = .ok grouped) {task : FrozenTask}
    (ht : task ∈ input.frozenTasks) :
    ∃ vehicle ∈ input.vehicles, vehicle.vehicleId = task.vehicleId := by
  unfold groupFrozenTasks at h
  split at h
  · cases h
  · next hn =>
    apply Classical.byContradiction
    intro hno
    apply hn
    rw [List.any_eq_true]
    refine ⟨task, ht, ?_⟩
    simp only [vehicleIndex, Option.isNone_iff_eq_none, List.findIdx?_eq_none_iff]
    intro vehicle hv
    simpa using fun he ↦ hno ⟨vehicle, hv, he⟩

/-- The `vehicle_index` dictionary gives the position of the vehicle. -/
theorem vehicleIndex_eq_some {vehicleId : UUID} {k : Nat}
    (h : vehicleIndex input vehicleId = some k) :
    ∃ vehicle, input.vehicles[k]? = some vehicle ∧ vehicle.vehicleId = vehicleId := by
  obtain ⟨hk, hv, -⟩ := List.findIdx?_eq_some_iff_getElem.mp h
  exact ⟨input.vehicles[k], List.getElem?_eq_getElem hk, by simpa using hv⟩

/-- The start of a vehicle depends on its frozen stops only. -/
theorem startLocation_eq (vehicle : SolverVehicle) (frozen : List FrozenTask) :
    startLocation vehicle frozen =
      (frozen.map (·.stop)).getLast?.elim vehicle.startLocationId (·.locationId) := by
  rw [startLocation, List.getLast?_map]
  cases frozen.getLast? <;> rfl

/-- The start time of a vehicle depends on its frozen stops only. -/
theorem startTime_eq (vehicle : SolverVehicle) (frozen : List FrozenTask) :
    startTime vehicle frozen = (frozen.map (·.stop)).getLast?.elim vehicle.availableFromSeconds
      (fun stop ↦ max vehicle.availableFromSeconds stop.departureTimeSeconds) := by
  rw [startTime, List.getLast?_map]
  cases frozen.getLast? <;> rfl

/-- A lookup in `frozen_by_order` finds a task of the order with the stop type. -/
theorem frozenTask?_some {orderId : UUID} {kind : SolverStopType} {task : FrozenTask}
    (h : frozenTask? input orderId kind = some task) :
    task ∈ input.frozenTasks ∧ task.stop.orderId = orderId ∧ task.stop.stopType = kind := by
  have hm := List.mem_of_find?_eq_some h
  have hp := List.find?_some h
  exact ⟨List.mem_reverse.mp hm, by simpa using hp⟩

/-- A failed lookup in `frozen_by_order` means that there is no such task. -/
theorem frozenTask?_none {orderId : UUID} {kind : SolverStopType}
    (h : frozenTask? input orderId kind = none) {task : FrozenTask}
    (ht : task ∈ input.frozenTasks) (ho : task.stop.orderId = orderId) :
    task.stop.stopType ≠ kind := by
  intro hk
  have hn := List.find?_eq_none.mp h task (List.mem_reverse.mpr ht)
  simp [ho, hk] at hn

/-! ### Vehicle nodes -/

private theorem getElem?_flatMap_pair {α β : Type} (f g : α → β) (xs : List α) (k : Nat) :
    (xs.flatMap fun x ↦ [f x, g x])[2 * k]? = xs[k]?.map f ∧
      (xs.flatMap fun x ↦ [f x, g x])[2 * k + 1]? = xs[k]?.map g := by
  induction xs generalizing k with
  | nil => simp
  | cons x xs ih =>
    rw [List.flatMap_cons]
    cases k with
    | zero => exact ⟨rfl, rfl⟩
    | succ k => exact ih k

private theorem length_flatMap_pair {α β : Type} (f g : α → β) (xs : List α) :
    (xs.flatMap fun x ↦ [f x, g x]).length = 2 * xs.length := by
  induction xs with
  | nil => rfl
  | cons x xs ih =>
    rw [List.flatMap_cons, List.length_append, ih]
    simp only [List.length_cons, List.length_nil]
    omega

/-- Every vehicle has two nodes. -/
theorem length_vehicleNodes (grouped : List (UUID × List FrozenTask)) :
    (vehicleNodes input grouped).length = 2 * input.vehicles.length :=
  length_flatMap_pair _ _ _

/-- A vehicle's start node lies at its start. -/
theorem nodeAt_startNode (grouped : List (UUID × List FrozenTask)) (own : List Node) {k : Nat}
    {vehicle : SolverVehicle} (h : input.vehicles[k]? = some vehicle) :
    nodeAt (vehicleNodes input grouped ++ own) (startNode k) =
      { locationId := some (startLocation vehicle (frozenOn grouped vehicle.vehicleId)) } := by
  have hp := (getElem?_flatMap_pair
    (fun v ↦ ({ locationId := some (startLocation v (frozenOn grouped v.vehicleId)) } : Node))
    (fun _ ↦ { locationId := none }) input.vehicles k).1
  rw [h] at hp
  rw [nodeAt, startNode, List.getElem?_append_left]
  · exact congrArg (·.getD { locationId := none }) hp
  · exact (List.getElem?_eq_some_iff.mp hp).1

/-- A vehicle's end node lies nowhere. -/
theorem nodeAt_endNode (grouped : List (UUID × List FrozenTask)) (own : List Node) {k : Nat}
    {vehicle : SolverVehicle} (h : input.vehicles[k]? = some vehicle) :
    nodeAt (vehicleNodes input grouped ++ own) (endNode k) = { locationId := none } := by
  have hp := (getElem?_flatMap_pair
    (fun v ↦ ({ locationId := some (startLocation v (frozenOn grouped v.vehicleId)) } : Node))
    (fun _ ↦ { locationId := none }) input.vehicles k).2
  rw [h] at hp
  rw [nodeAt, endNode, List.getElem?_append_left]
  · exact congrArg (·.getD { locationId := none }) hp
  · exact (List.getElem?_eq_some_iff.mp hp).1

/-! ### Order nodes -/

/-- The nodes an order got, by what is frozen of it. Nodes of orders start at `lo`. -/
inductive Placed (input : SolverInput) (nodes : List Node) (lo : Nat) (order : SolverOrder) :
    OrderNodes → Prop where
  | deliveryOnly (d k : Nat) (origin : originType order = none)
    (vehicle : order.requiredVehicleId.bind (vehicleIndex input) = some k)
    (hd : lo ≤ d) (delivery : nodes[d]? = some (deliveryNodeOf order)) :
    Placed input nodes lo order ⟨none, some d, some k⟩
  | served (kind : SolverStopType) (t t' : FrozenTask) (origin : originType order = some kind)
    (frozenOrigin : frozenTask? input order.orderId kind = some t)
    (frozenDelivery : frozenTask? input order.orderId .delivery = some t') :
    Placed input nodes lo order ⟨none, none, none⟩
  | begun (kind : SolverStopType) (t : FrozenTask) (d : Nat) (origin : originType order = some kind)
    (frozenOrigin : frozenTask? input order.orderId kind = some t)
    (frozenDelivery : frozenTask? input order.orderId .delivery = none)
    (hd : lo ≤ d) (delivery : nodes[d]? = some (deliveryNodeOf order)) :
    Placed input nodes lo order ⟨none, some d, vehicleIndex input t.vehicleId⟩
  | whole (kind : SolverStopType) (o d : Nat) (origin : originType order = some kind)
    (frozenOrigin : frozenTask? input order.orderId kind = none)
    (frozenDelivery : frozenTask? input order.orderId .delivery = none)
    (ho : lo ≤ o) (hd : lo ≤ d) (pickup : nodes[o]? = some (originNodeOf order kind))
    (delivery : nodes[d]? = some (deliveryNodeOf order)) :
    Placed input nodes lo order ⟨some o, some d, none⟩

/-- A node belongs to an order. -/
def OrderNodes.Owns (own : OrderNodes) (i : Nat) : Prop :=
  own.originNode = some i ∨ own.deliveryNode = some i

/-- The nodes one order appends are placed behind the earlier ones, and are its own. -/
theorem appendOrder_placed (post : List Node) {pre own : List Node} {order : SolverOrder}
    {on : OrderNodes} {lo : Nat} (hlo : lo ≤ pre.length)
    (h : appendOrder input pre.length order = .ok (own, on)) :
    Placed input (pre ++ own ++ post) lo order on ∧
      ∀ i, pre.length ≤ i → i < (pre ++ own).length → on.Owns i := by
  have first (n : Node) (rest : List Node) (he : own = n :: rest) :
      (pre ++ own ++ post)[pre.length]? = some n := by
    simp [he]
  have second (n n' : Node) (rest : List Node) (he : own = n :: n' :: rest) :
      (pre ++ own ++ post)[pre.length + 1]? = some n' := by
    simp [he]
  unfold appendOrder at h
  split at h
  · next horigin =>
    split at h
    · cases h
    · next k hk =>
      obtain ⟨rfl, rfl⟩ := Prod.mk.inj (Except.ok.inj h)
      refine ⟨.deliveryOnly _ _ horigin hk hlo (first _ _ rfl), ?_⟩
      intro i h₁ h₂
      have hi : i = pre.length := by
        simp only [List.length_append, List.length_singleton] at h₂
        omega
      exact .inr (congrArg some hi.symm)
  · next kind horigin =>
    split at h
    · cases h
    · next t t' ht ht' =>
      obtain ⟨rfl, rfl⟩ := Prod.mk.inj (Except.ok.inj h)
      refine ⟨.served kind t t' horigin ht ht', ?_⟩
      intro i h₁ h₂
      simp only [List.append_nil] at h₂
      omega
    · next ht ht' =>
      obtain ⟨rfl, rfl⟩ := Prod.mk.inj (Except.ok.inj h)
      refine ⟨.whole kind _ _ horigin ht ht' hlo (by omega) (first _ _ rfl) (second _ _ _ rfl), ?_⟩
      intro i h₁ h₂
      simp only [List.length_append, List.length_cons, List.length_nil] at h₂
      have hi : i = pre.length ∨ i = pre.length + 1 := by omega
      rcases hi with rfl | rfl
      · exact .inl rfl
      · exact .inr rfl
    · next t ht ht' =>
      obtain ⟨rfl, rfl⟩ := Prod.mk.inj (Except.ok.inj h)
      refine ⟨.begun kind t _ horigin ht ht' hlo (first _ _ rfl), ?_⟩
      intro i h₁ h₂
      have hi : i = pre.length := by
        simp only [List.length_append, List.length_singleton] at h₂
        omega
      exact .inr (congrArg some hi.symm)

/-- The order loop keeps the orders in sequence, places each and leaves no node without an
order. -/
theorem appendOrders_placed {orders : List SolverOrder} {pre own : List Node} {lo : Nat}
    {all : List (SolverOrder × OrderNodes)} (hlo : lo ≤ pre.length)
    (h : appendOrders input pre.length orders = .ok (own, all)) :
    all.map Prod.fst = orders ∧ (∀ p ∈ all, Placed input (pre ++ own) lo p.1 p.2) ∧
      ∀ i, pre.length ≤ i → i < (pre ++ own).length → ∃ p ∈ all, p.2.Owns i := by
  induction orders generalizing pre own all with
  | nil =>
    obtain ⟨rfl, rfl⟩ := Prod.mk.inj (Except.ok.inj h)
    refine ⟨rfl, fun p hp ↦ absurd hp List.not_mem_nil, ?_⟩
    intro i h₁ h₂
    simp only [List.append_nil] at h₂
    omega
  | cons order rest ih =>
    rw [appendOrders] at h
    split at h
    · cases h
    · next own₁ on h₁ =>
      split at h
      · cases h
      · next own₂ all₂ h₂ =>
        obtain ⟨rfl, rfl⟩ := Prod.mk.inj (Except.ok.inj h)
        rw [← List.length_append] at h₂
        have hlo₂ : lo ≤ (pre ++ own₁).length := by
          rw [List.length_append]
          omega
        obtain ⟨hmap, hplaced, howned⟩ := ih hlo₂ h₂
        obtain ⟨hp₁, ho₁⟩ := appendOrder_placed own₂ hlo h₁
        rw [← List.append_assoc]
        refine ⟨congrArg (order :: ·) hmap, ?_, ?_⟩
        · intro p hp
          rcases List.mem_cons.mp hp with rfl | hp
          · exact hp₁
          · exact hplaced p hp
        · intro i hi hi'
          by_cases hcase : i < (pre ++ own₁).length
          · exact ⟨(order, on), List.mem_cons_self, ho₁ i hi hcase⟩
          · obtain ⟨p, hp, hown⟩ := howned i (Nat.le_of_not_lt hcase) hi'
            exact ⟨p, List.mem_cons_of_mem _ hp, hown⟩

/-! ### A model posted and satisfied -/

/-- `_solve` got as far as an assignment, and the assignment routes over `path`. -/
structure Solved (input : SolverInput) (grouped : List (UUID × List FrozenTask))
    (own : List Node) (all : List (SolverOrder × OrderNodes))
    (a : RoutingAssignment DimensionName) (path : Nat → List Nat) : Prop where
  grouped_ok : groupFrozenTasks input = .ok grouped
  orders_ok : appendOrders input (vehicleNodes input grouped).length input.orders = .ok (own, all)
  routes : (routingModel input grouped (vehicleNodes input grouped ++ own) all).Routes a path

variable {grouped : List (UUID × List FrozenTask)} {own : List Node}
  {all : List (SolverOrder × OrderNodes)} {a : RoutingAssignment DimensionName}
  {path : Nat → List Nat}

namespace Solved

/-- The nodes of the model. -/
abbrev nodes (_ : Solved input grouped own all a path) : List Node :=
  vehicleNodes input grouped ++ own

/-- The posted model. -/
abbrev model (h : Solved input grouped own all a path) : RoutingModel DimensionName :=
  routingModel input grouped h.nodes all

/-- The visits are the nodes behind those of the vehicles. -/
theorem isVisit_iff (h : Solved input grouped own all a path) (i : Nat) :
    h.model.IsVisit i ↔ 2 * input.vehicles.length ≤ i ∧ i < h.nodes.length := by
  simp only [RoutingModel.IsVisit, routingModel, List.mem_map, List.mem_range, startNode, endNode,
    not_exists, not_and]
  constructor
  · rintro ⟨hi, hs, he⟩
    refine ⟨?_, hi⟩
    apply Classical.byContradiction
    intro hlt
    rcases Nat.mod_two_eq_zero_or_one i with hm | hm
    · exact hs (i / 2) (by omega) (by omega)
    · exact he (i / 2) (by omega) (by omega)
  · rintro ⟨hlo, hi⟩
    exact ⟨hi, fun k hk he ↦ by omega, fun k hk he ↦ by omega⟩

/-- The start of a vehicle is posted as its start node. -/
theorem starts_getElem? (h : Solved input grouped own all a path) {k : Nat} {v : SolverVehicle}
    (hv : input.vehicles[k]? = some v) : h.model.starts[k]? = some (startNode k) := by
  have hk : k < input.vehicles.length := (List.getElem?_eq_some_iff.mp hv).1
  simp [routingModel, hk]

/-- The end of a vehicle is posted as its end node. -/
theorem ends_getElem? (h : Solved input grouped own all a path) {k : Nat} {v : SolverVehicle}
    (hv : input.vehicles[k]? = some v) : h.model.ends[k]? = some (endNode k) := by
  have hk : k < input.vehicles.length := (List.getElem?_eq_some_iff.mp hv).1
  simp [routingModel, hk]

private theorem placement (h : Solved input grouped own all a path) :
    all.map Prod.fst = input.orders ∧
      (∀ p ∈ all, Placed input h.nodes (2 * input.vehicles.length) p.1 p.2) ∧
      ∀ i, 2 * input.vehicles.length ≤ i → i < h.nodes.length → ∃ p ∈ all, p.2.Owns i := by
  have hp := appendOrders_placed (Nat.le_of_eq (length_vehicleNodes grouped).symm) h.orders_ok
  rw [length_vehicleNodes] at hp
  exact hp

/-- Every order was placed. -/
theorem placed (h : Solved input grouped own all a path) {p : SolverOrder × OrderNodes}
    (hp : p ∈ all) : Placed input h.nodes (2 * input.vehicles.length) p.1 p.2 :=
  h.placement.2.1 p hp

/-- A placed order is an order of the input. -/
theorem order_mem (h : Solved input grouped own all a path) {p : SolverOrder × OrderNodes}
    (hp : p ∈ all) : p.1 ∈ input.orders := by
  rw [← h.placement.1]
  exact List.mem_map_of_mem hp

/-- Every order of the input is placed. -/
theorem exists_placed (h : Solved input grouped own all a path) {order : SolverOrder}
    (ho : order ∈ input.orders) : ∃ on, (order, on) ∈ all := by
  rw [← h.placement.1] at ho
  obtain ⟨⟨o, on⟩, hp, rfl⟩ := List.mem_map.mp ho
  exact ⟨on, hp⟩

/-- Orders are placed once each. -/
theorem placed_nodup (h : Solved input grouped own all a path) :
    (all.map fun p ↦ p.1.orderId).Nodup := by
  have hids := input.orders_nodup
  rw [← h.placement.1, List.map_map] at hids
  exact hids

/-- An order is placed once. -/
theorem placed_unique (h : Solved input grouped own all a path) {p q : SolverOrder × OrderNodes}
    (hp : p ∈ all) (hq : q ∈ all) (he : p.1.orderId = q.1.orderId) : p = q :=
  eq_of_key_eq h.placed_nodup hp hq he

private theorem nodeAt_some {nodes : List Node} {n : Node} {i : Nat} (hi : nodes[i]? = some n) :
    nodeAt nodes i = n := by
  rw [nodeAt, hi]
  rfl

/-- What stands at the origin node of an order. -/
theorem nodeAt_origin (h : Solved input grouped own all a path) {p : SolverOrder × OrderNodes}
    (hp : p ∈ all) {i : Nat} (hi : p.2.originNode = some i) :
    ∃ kind, originType p.1 = some kind ∧ nodeAt h.nodes i = originNodeOf p.1 kind := by
  obtain ⟨order, on⟩ := p
  cases h.placed hp with
  | deliveryOnly => cases hi
  | served => cases hi
  | begun => cases hi
  | whole kind o d hk _ _ _ _ ho _ =>
    cases hi
    exact ⟨kind, hk, nodeAt_some ho⟩

/-- What stands at the delivery node of an order. -/
theorem nodeAt_delivery (h : Solved input grouped own all a path) {p : SolverOrder × OrderNodes}
    (hp : p ∈ all) {i : Nat} (hi : p.2.deliveryNode = some i) :
    nodeAt h.nodes i = deliveryNodeOf p.1 := by
  obtain ⟨order, on⟩ := p
  cases h.placed hp with
  | deliveryOnly d k _ _ _ hd =>
    cases hi
    exact nodeAt_some hd
  | served => cases hi
  | begun kind t d _ _ _ _ hd =>
    cases hi
    exact nodeAt_some hd
  | whole kind o d _ _ _ _ _ _ hd =>
    cases hi
    exact nodeAt_some hd

/-- A node that an order owns carries its id. -/
theorem orderId_owned (h : Solved input grouped own all a path) {p : SolverOrder × OrderNodes}
    (hp : p ∈ all) {i : Nat} (hi : p.2.Owns i) :
    (nodeAt h.nodes i).orderId = some p.1.orderId := by
  rcases hi with hi | hi
  · obtain ⟨kind, -, hn⟩ := h.nodeAt_origin hp hi
    rw [hn]
    rfl
  · rw [h.nodeAt_delivery hp hi]
    rfl

/-- Every node on a path belongs to an order. -/
theorem exists_owner (h : Solved input grouped own all a path) {k i : Nat} (hi : i ∈ path k) :
    ∃ p ∈ all, p.2.Owns i := by
  obtain ⟨hlo, hhi⟩ := (h.isVisit_iff i).mp (h.routes.visits k i hi).2
  exact h.placement.2.2 i hlo hhi

/-- An owned node is a visit of the model. -/
theorem isVisit_owned (h : Solved input grouped own all a path) {p : SolverOrder × OrderNodes}
    (hp : p ∈ all) {i : Nat} (hi : p.2.Owns i) : h.model.IsVisit i := by
  rw [h.isVisit_iff]
  have bound (n : Node) (j : Nat) (hj : h.nodes[j]? = some n) : j < h.nodes.length :=
    (List.getElem?_eq_some_iff.mp hj).1
  obtain ⟨order, on⟩ := p
  rcases h.placed hp with ⟨d, k, -, -, hlo, hd⟩ | ⟨kind, t, t', -, -, -⟩ |
    ⟨kind, t, d, -, -, -, hlo, hd⟩ | ⟨kind, o, d, -, -, -, hlo, hlo', ho, hd⟩
  · rcases hi with hi | hi <;> cases hi
    exact ⟨hlo, bound _ _ hd⟩
  · rcases hi with hi | hi <;> cases hi
  · rcases hi with hi | hi <;> cases hi
    exact ⟨hlo, bound _ _ hd⟩
  · rcases hi with hi | hi <;> cases hi
    · exact ⟨hlo, bound _ _ ho⟩
    · exact ⟨hlo', bound _ _ hd⟩

/-- The constraints of a placed order hold. -/
theorem order_posted (h : Solved input grouped own all a path) {p : SolverOrder × OrderNodes}
    (hp : p ∈ all) {c : RoutingConstraint DimensionName} (hc : c ∈ orderConstraints input p.1 p.2) :
    RoutingModel.Holds a path c := by
  apply h.routes.posted
  simp only [routingModel, List.mem_append, List.mem_flatMap]
  exact .inr ⟨p, hp, hc⟩

/-- The constraints of a vehicle hold. -/
theorem vehicle_posted (h : Solved input grouped own all a path) {k : Nat} {v : SolverVehicle}
    (hv : input.vehicles[k]? = some v) {c : RoutingConstraint DimensionName}
    (hc : c ∈ vehicleConstraints v (frozenOn grouped v.vehicleId) k) :
    RoutingModel.Holds a path c := by
  apply h.routes.posted
  simp only [routingModel, List.mem_append, List.mem_flatMap]
  exact .inl ⟨(v, k), List.mem_zipIdx_iff_getElem?.mpr hv, hc⟩

/-- Only the nodes of an order that has an origin node can be dropped. -/
theorem optional_owner (h : Solved input grouped own all a path) {i : Nat}
    (hi : h.model.Optional i) : ∃ p ∈ all, p.2.Owns i ∧ p.2.originNode.isSome := by
  obtain ⟨group, penalty, hc, hi⟩ := hi
  simp only [routingModel, List.mem_append, List.mem_flatMap] at hc
  rcases hc with ⟨vk, -, hc⟩ | ⟨p, hp, hc⟩
  · simp [vehicleConstraints] at hc
  · refine ⟨p, hp, ?_⟩
    unfold orderConstraints at hc
    cases hd : p.2.deliveryNode with
    | none => simp [hd] at hc
    | some d =>
      cases ho : p.2.originNode with
      | none => simp [hd, ho] at hc
      | some o =>
        simp only [hd, ho, List.mem_cons, reduceCtorEq, false_or, or_false, List.not_mem_nil,
          RoutingConstraint.disjunction.injEq] at hc
        refine ⟨?_, rfl⟩
        rcases hc with ⟨rfl, -⟩ | ⟨rfl, -⟩
        · rw [List.mem_singleton] at hi
          exact .inl (by rw [ho, hi])
        · rw [List.mem_singleton] at hi
          exact .inr (by rw [hd, hi])

/-- The delivery of an order without origin node is on the route of its fixed vehicle. -/
theorem mandatory_mem (h : Solved input grouped own all a path) {p : SolverOrder × OrderNodes}
    (hp : p ∈ all) (ho : p.2.originNode = none) {d k : Nat} (hd : p.2.deliveryNode = some d)
    (hk : p.2.fixedVehicleIndex = some k) : d ∈ path k := by
  have howns : p.2.Owns d := .inr hd
  have hact : a.active d = true := by
    apply h.routes.mandatory d (h.isVisit_owned hp howns)
    intro hopt
    obtain ⟨q, hq, hqi, hqo⟩ := h.optional_owner hopt
    have hids : q.1.orderId = p.1.orderId := by
      apply Option.some.inj
      rw [← h.orderId_owned hq hqi, h.orderId_owned hp howns]
    rw [h.placed_unique hq hp hids, ho] at hqo
    cases hqo
  obtain ⟨k', hk'⟩ := (h.routes.active d (h.isVisit_owned hp howns)).mp hact
  have hveh : a.vehicle d = k := by
    have hpost := h.order_posted (c := .vehicleIs d k) hp
    unfold orderConstraints at hpost
    simp only [hd, ho, hk] at hpost
    exact hpost (by simp)
  rw [h.routes.vehicle k' d hk'] at hveh
  rw [← Int.ofNat.inj hveh]
  exact hk'

end Solved

end PenroseRoute.Optimization.ORToolsSolver
