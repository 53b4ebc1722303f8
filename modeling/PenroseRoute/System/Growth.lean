import PenroseRoute.Recovery.StopRules
import PenroseRoute.System.Changes

/-!
# What a run leaves in place

Orders keep everything but their progress, incidents stay, and a plan keeps its routes and stops
apart from their times and their progress. What depends on these alone is kept by every
transaction.
-/

namespace PenroseRoute.Db

/-- An order apart from its progress. -/
def Order.fixed (order : Order) : Order :=
  { order with
    executionStatus := .planned
    riskStatus := .normal }

/-- A stop apart from its times and its progress. -/
def RouteStop.fixed (stop : RouteStop) : RouteStop :=
  { stop with
    plannedArrivalAt := 0
    plannedDepartureAt := 0
    actualArrivalAt := none
    actualDepartureAt := none
    status := .planned }

/-- The routes of a plan with their vehicles and what is fixed of their stops. -/
def DeliveryPlan.layout (plan : DeliveryPlan) : List (UUID × UUID × List RouteStop) :=
  plan.routes.map fun route ↦ (route.id, route.vehicleId, route.stops.map (·.fixed))

end PenroseRoute.Db

namespace PenroseRoute.System

open PenroseRoute.Db PenroseRoute.Lib PenroseRoute.Operations PenroseRoute.Recovery
open PenroseRoute.Incidents PenroseRoute.Lifecycle PenroseRoute.Optimization
open StopExecutionService

/-- A database that has gone on from another one. -/
structure Grows (db db' : Database) : Prop where
  orders : db'.orders.map (·.fixed) = db.orders.map (·.fixed)
  incidents : ∃ more, db'.incidents.map (·.bare) = db.incidents.map (·.bare) ++ more
  forward : OrdersForward db db'

variable {settings : Settings} {action : Action} {db db' : Database}

namespace Grows

/-- The same orders and more incidents are growth. -/
theorem of_same (horders : db'.orders = db.orders)
    (hincidents : ∃ more, db'.incidents.map (·.bare) = db.incidents.map (·.bare) ++ more) :
    Grows db db' where
  orders := by rw [horders]
  incidents := hincidents
  forward id order ho := ⟨order, by rw [Database.order?, horders]; exact ho, Nat.le_refl _⟩

/-- A database has grown by nothing. -/
theorem refl (db : Database) : Grows db db :=
  .of_same rfl ⟨[], (List.append_nil _).symm⟩

/-- What is fixed of an order is read alike. -/
theorem order? (h : Grows db db') {α : Type} {f : Order → α} (hf : ∀ order, f order.fixed = f order)
    (id : UUID) : (db'.order? id).map f = (db.order? id).map f := by
  have hfind : ∀ orders : List Order, (orders.find? (·.id == id)).map f =
      ((orders.map (·.fixed)).find? (·.id == id)).map f := by
    intro orders
    rw [List.find?_map, Option.map_map]
    refine (congrArg _ ?_).trans (congrArg (Option.map · _) (funext fun order ↦ (hf order).symm))
    rfl
  rw [Database.order?, Database.order?, hfind db'.orders, h.orders, ← hfind]

/-- An incident is still there. -/
theorem incident? (h : Grows db db') {id : UUID} {incident : Incident}
    (hi : db.incident? id = some incident) :
    ∃ incident', db'.incident? id = some incident' ∧ incident'.bare = incident.bare := by
  obtain ⟨more, hmore⟩ := h.incidents
  have hfind : ∀ incidents : List Incident, (incidents.find? (·.id == id)).map (·.bare) =
      (incidents.map (·.bare)).find? (·.id == id) := by
    intro incidents
    rw [List.find?_map]
    rfl
  have hfound : (db'.incident? id).map (·.bare) = some incident.bare := by
    rw [Database.incident?, hfind, hmore, List.find?_append, ← hfind]
    rw [Database.incident?] at hi
    rw [hi, Option.map_some, Option.some_or]
  exact Option.map_eq_some_iff.mp hfound

/-- A stop that was where it has to be still is. -/
theorem expectedLocation? (h : Grows db db') {stop : RouteStop} {locationId : UUID}
    (hl : stop.expectedLocation? db = some locationId) :
    stop.expectedLocation? db' = some locationId := by
  rw [RouteStop.expectedLocation?] at hl ⊢
  split at hl
  · rw [h.order? (f := (·.pickupLocationId)) fun _ ↦ rfl]
    exact hl
  · rw [h.order? (f := (·.deliveryLocationId)) fun _ ↦ rfl]
    exact hl
  · obtain ⟨incident, hi, hplace⟩ := Option.bind_eq_some_iff.mp hl
    obtain ⟨id, hid, hi⟩ := Option.bind_eq_some_iff.mp hi
    obtain ⟨incident', hi', hbare⟩ := h.incident? hi
    rw [hid, Option.bind_some, hi', Option.bind_some, ← hplace]
    exact (congrArg Incident.incidentLocationId hbare :)

end Grows

/-! ### Transactions -/

/-- A transition changes nothing of an order but its progress. -/
theorem fixed_applyTransition {thresholdSeconds : Int} {base : DeliveryPlan}
    {route : VehicleRoute} {stop : RouteStop} {target : StopStatus} {eventTime : Instant} :
    (applyTransition thresholdSeconds db base route stop target eventTime).orders.map (·.fixed) =
      db.orders.map (·.fixed) := by
  have hupdated : (db.updateOrder stop.orderId (advanceOrder stop.stopType target)).orders.map
      (·.fixed) = db.orders.map (·.fixed) := by
    refine map_updateWhere fun order ↦ ?_
    rw [advanceOrder]
    split <;> rfl
  rw [← hupdated]
  exact map_recalculateRoute thresholdSeconds _ eventTime (fun _ _ ↦ rfl) _

/-- Orders with the same ids and statuses have not moved backwards. -/
theorem ordersForward_of_map
    (h : db'.orders.map (fun order ↦ (order.id, order.executionStatus)) =
      db.orders.map fun order ↦ (order.id, order.executionStatus)) : OrdersForward db db' := by
  intro id order ho
  have hstatus := order?_of_map_eq h id
  rw [ho] at hstatus
  obtain ⟨order', ho', he⟩ := Option.map_eq_some_iff.mp hstatus
  exact ⟨order', ho', Nat.le_of_eq (congrArg _ he.symm)⟩

/-- An order goes one step forwards. -/
theorem grows_advanceExecution {orderId : UUID} {target : OrderExecutionStatus}
    (h : Resources.advanceExecution db orderId target = .ok db') : Grows db db' := by
  obtain rfl | ⟨order, ho, hnext, rfl⟩ := Resources.advanceExecution_ok h
  · exact .refl db'
  · refine ⟨map_updateWhere fun _ ↦ rfl, ⟨[], (List.append_nil _).symm⟩, fun id row hrow ↦ ?_⟩
    have hfind := @find?_updateWhere _ db.orders (·.id == orderId)
      (fun order ↦ { order with executionStatus := target }) (·.id == id) fun _ ↦ rfl
    rw [Database.order?] at hrow
    rw [hrow, Option.map_some] at hfind
    refine ⟨_, hfind, ?_⟩
    split
    · next hid =>
      have hsame : row = order := by
        have howned : row.id = id := eq_of_beq (List.find?_some hrow :)
        rw [Database.order?, ← eq_of_beq hid, howned, hrow, Option.some.injEq] at ho
        exact ho
      rw [hsame]
      exact Resources.rank_le_of_next hnext
    · exact Nat.le_refl _

/-- Every transaction lets the database grow. -/
theorem Effect.grows (he : Effect settings db action db') : Grows db db' := by
  cases he with
  | idle => exact .refl db
  | moved hcall hc =>
    exact ⟨fixed_applyTransition, ⟨[], (List.append_nil _).symm⟩, ordersForward_applyTransition⟩
  | advanced ha => exact grows_advanceExecution ha
  | flagged riskOf =>
    refine ⟨?_, ⟨[], (List.append_nil _).symm⟩, ordersForward_of_map ?_⟩
    · rw [List.map_map]
      rfl
    · rw [List.map_map]
      rfl
  | reported hr =>
    obtain ⟨context, locationId, -, -, -, -, rfl⟩ := VehicleIncidentWorkflow.reportUnavailable_ok hr
    exact .of_same rfl ⟨_, List.map_append⟩
  | delayed hd =>
    rcases MerchantDelayWorkflow.assessDelay_ok hd with
      rfl | ⟨context, incident, -, -, -, -, -, rfl | rfl⟩
    · exact .refl _
    · exact .of_same rfl ⟨_, List.map_append⟩
    · exact ⟨MerchantDelayWorkflow.map_shiftRisks _ _ _ (fun _ _ ↦ rfl) _,
        ⟨_, List.map_append⟩,
        ordersForward_of_map (MerchantDelayWorkflow.map_shiftRisks _ _ _ (fun _ _ ↦ rfl) _)⟩
  | planned _ plans _ _ =>
    exact .of_same plans.orders ⟨[], by rw [plans.incidents, List.append_nil]⟩
  | approved _ _ _ =>
    have plans := applyApproval_plans db
    exact .of_same (plans _).orders ⟨[], by rw [(plans _).incidents, List.append_nil]⟩

end PenroseRoute.System
