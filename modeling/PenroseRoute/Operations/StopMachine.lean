import PenroseRoute.Operations.AlertRefresh
import PenroseRoute.Operations.Progress

/-!
# The stop machine

Sequences of `arrive`, `start_service` and `complete` on one database with its alerts. A call that
raises is rolled back. One call moves orders forwards only, keeps the stops of every plan in order,
and leaves a route that it changes COMPLETED exactly when all stops of it are; the alert refresh
at its end writes risk flags and alerts only.
-/

namespace PenroseRoute.Operations

open PenroseRoute.Db PenroseRoute.Lib StopExecutionService

/-! ### Orders -/

/-- Every order is still there, and its execution status has not moved backwards. -/
def OrdersForward (db db' : Database) : Prop :=
  ∀ id order, db.order? id = some order → ∃ order', db'.order? id = some order' ∧
    order.executionStatus.rank ≤ order'.executionStatus.rank

/-- The order has been delivered. -/
def Delivered (db : Database) (orderId : UUID) : Prop :=
  ∃ order, db.order? orderId = some order ∧ order.executionStatus = .completed

/-- No order has gone back. -/
theorem OrdersForward.refl (db : Database) : OrdersForward db db :=
  fun _ order ho ↦ ⟨order, ho, Nat.le_refl _⟩

/-- Orders that go forwards twice go forwards. -/
theorem OrdersForward.trans {db db' db'' : Database} (h : OrdersForward db db')
    (h' : OrdersForward db' db'') : OrdersForward db db'' := by
  intro id order ho
  obtain ⟨order', ho', hle⟩ := h id order ho
  obtain ⟨order'', ho'', hle'⟩ := h' id order' ho'
  exact ⟨order'', ho'', Nat.le_trans hle hle'⟩

/-- COMPLETED is the last status. -/
theorem eq_completed_of_rank {status : OrderExecutionStatus} (h : 4 ≤ status.rank) :
    status = .completed := by
  cases status
  case completed => rfl
  all_goals exact absurd h (by decide)

/-- What has been delivered stays so. -/
theorem OrdersForward.delivered {db db' : Database} (h : OrdersForward db db') {orderId : UUID}
    (hd : Delivered db orderId) : Delivered db' orderId := by
  obtain ⟨order, ho, hs⟩ := hd
  obtain ⟨order', ho', hle⟩ := h orderId order ho
  rw [hs] at hle
  exact ⟨order', ho', eq_completed_of_rank hle⟩

/-- A transition moves its order forwards. -/
theorem rank_le_advanceOrder (stopType : StopType) (target : StopStatus) (order : Order) :
    order.executionStatus.rank ≤ (advanceOrder stopType target order).executionStatus.rank := by
  rw [advanceOrder]
  split
  · exact Nat.le_refl _
  · next desired _ =>
    change _ ≤ (if desired.rank > order.executionStatus.rank then desired
      else order.executionStatus).rank
    split
    · next h => exact Nat.le_of_lt h
    · exact Nat.le_refl _

/-- A completed delivery completes its order. -/
theorem advanceOrder_delivery (order : Order) :
    (advanceOrder .delivery .completed order).executionStatus = .completed := by
  change (if OrderExecutionStatus.rank .completed > order.executionStatus.rank then
    OrderExecutionStatus.completed else order.executionStatus) = .completed
  split
  · rfl
  · next h => exact eq_completed_of_rank (Nat.not_lt.mp h)

/-- The recalculated risks leave everything else of the orders. -/
theorem map_recalculateRoute {α : Type} (thresholdSeconds : Int) (stops : List RouteStop)
    (currentTime : Instant) {f : Order → α}
    (hf : ∀ order risk, f { order with riskStatus := risk } = f order) (orders : List Order) :
    (RiskService.recalculateRoute thresholdSeconds stops currentTime orders).map f =
      orders.map f := by
  rw [RiskService.recalculateRoute]
  generalize RiskService.routeDelaySeconds stops currentTime = delay
  induction stops generalizing orders with
  | nil => rfl
  | cons stop rest ih =>
    rw [List.foldl_cons, ih]
    refine map_updateWhere fun order ↦ ?_
    rw [RiskService.recalculateOrder]
    split
    · rfl
    · split <;> exact hf order _

/-- Orders with the same ids and statuses are looked up alike. -/
theorem order?_of_map_eq {db db' : Database}
    (h : db'.orders.map (fun order ↦ (order.id, order.executionStatus)) =
      db.orders.map fun order ↦ (order.id, order.executionStatus)) (id : UUID) :
    (db'.order? id).map (·.executionStatus) = (db.order? id).map (·.executionStatus) := by
  have hfind : ∀ orders : List Order, (orders.find? (·.id == id)).map (·.executionStatus) =
      ((orders.map fun order ↦ (order.id, order.executionStatus)).find? (·.1 == id)).map
        (·.2) := by
    intro orders
    rw [List.find?_map, Option.map_map]
    rfl
  rw [Database.order?, Database.order?, hfind, hfind, h]

/-! ### Calls -/

/-- A call of the service. `refreshedAt` is `occurred_at` too, or the time when the clock is read
again for the alert refresh. -/
structure Call where
  action : StopAction
  stopId : UUID
  occurredAt : Instant
  refreshedAt : Instant
  deriving DecidableEq, Repr

namespace Call

variable {thresholdSeconds : Int} {s : AlertService.State} {call : Call}

/-- The service method of a call. -/
def run (thresholdSeconds : Int) (s : AlertService.State) (call : Call) :
    Except AppError (AlertService.State × StopExecutionResult) :=
  match call.action with
  | .arrive => arrive thresholdSeconds s call.stopId call.occurredAt call.refreshedAt
  | .startService => startService thresholdSeconds s call.stopId call.occurredAt call.refreshedAt
  | .complete => complete thresholdSeconds s call.stopId call.occurredAt call.refreshedAt

/-- The tables after a call: those of its commits, or the old ones when it raises. -/
def perform (thresholdSeconds : Int) (s : AlertService.State) (call : Call) :
    AlertService.State :=
  match call.run thresholdSeconds s with
  | .ok (s', _) => s'
  | .error _ => s

/-- The alert refresh at the end of a call. -/
def refresh (thresholdSeconds : Int) (s : AlertService.State) (businessDate : BusinessDate)
    (call : Call) : AlertService.State :=
  refreshAlertsForBusinessDate thresholdSeconds s businessDate call.refreshedAt

/-- Every call is a command. -/
theorem run_eq (thresholdSeconds : Int) (s : AlertService.State) (call : Call) :
    call.run thresholdSeconds s = command thresholdSeconds s call.stopId call.action.expected
      call.action.target call.occurredAt call.refreshedAt := by
  rw [run]
  split <;> next h => rw [h]; rfl

/-- What a call has done: its stop was there already, or a checked transition. -/
theorem run_ok {s' : AlertService.State} {result : StopExecutionResult}
    (h : call.run thresholdSeconds s = .ok (s', result)) :
    ∃ plan route stop, s.db.lockedStop? call.stopId = some (plan, route, stop) ∧
      plan.status = .current ∧
      ((stop.status = call.action.target ∧
          s' = call.refresh thresholdSeconds s plan.businessDate) ∨
        (Checked s.db call.stopId call.action.expected call.action.target call.occurredAt plan route
            stop ∧
          s' = call.refresh thresholdSeconds { s with
            db := applyTransition thresholdSeconds s.db plan route stop call.action.target
              call.occurredAt } plan.businessDate)) := by
  rw [run_eq] at h
  obtain ⟨⟨db, reached⟩, ht, h⟩ := bind_eq_ok.mp h
  cases h
  rcases transition_ok ht with ⟨rfl, plan, route, stop, hl, hcurrent, hs⟩ |
    ⟨plan, route, stop, hc, rfl⟩
  · refine ⟨plan, route, stop, hl, hcurrent, .inl ⟨hs, ?_⟩⟩
    rw [refresh, transition_date ht hl]
  · refine ⟨plan, route, stop, hc.locked, hc.current, .inr ⟨hc, ?_⟩⟩
    rw [refresh, transition_date ht hc.locked]

/-- A call that raises changes nothing. -/
theorem perform_of_error {error : AppError} (h : call.run thresholdSeconds s = .error error) :
    call.perform thresholdSeconds s = s := by
  rw [perform, h]

/-- A call changes nothing, or does what it does. -/
theorem perform_cases (thresholdSeconds : Int) (s : AlertService.State) (call : Call) :
    call.perform thresholdSeconds s = s ∨
      ∃ result, call.run thresholdSeconds s = .ok (call.perform thresholdSeconds s, result) := by
  rw [perform]
  cases h : call.run thresholdSeconds s with
  | ok outcome => exact .inr ⟨outcome.2, rfl⟩
  | error error => exact .inl rfl

/-- A call whose stop is where it leads refreshes the alerts of the date and changes nothing
else. -/
theorem perform_of_reached {plan : DeliveryPlan} {route : VehicleRoute} {stop : RouteStop}
    (hl : s.db.lockedStop? call.stopId = some (plan, route, stop))
    (hs : stop.status = call.action.target) :
    call.perform thresholdSeconds s = s ∨
      call.perform thresholdSeconds s = call.refresh thresholdSeconds s plan.businessDate := by
  refine (perform_cases thresholdSeconds s call).imp_right fun hrun ↦ ?_
  obtain ⟨result, hrun⟩ := hrun
  obtain ⟨plan', route', stop', hl', -, ⟨-, he⟩ | ⟨hc, -⟩⟩ := run_ok hrun
  · rw [hl, Option.some.injEq, Prod.mk.injEq] at hl'
    rw [he, hl'.1]
  · rw [hl, Option.some.injEq, Prod.mk.injEq, Prod.mk.injEq] at hl'
    have hboth := hc.expected.symm.trans (hl'.2.2 ▸ hs)
    revert hboth
    cases call.action <;> exact fun h ↦ (by cases h)

/-- A call that is accepted, with a refresh that does not fail. -/
def Evaluated (thresholdSeconds : Int) (s : AlertService.State) (call : Call) : Prop :=
  ∃ db result, transition thresholdSeconds s.db call.stopId call.action.expected
      call.action.target call.occurredAt = .ok (db, result) ∧
    (AlertService.evaluateBusinessDate thresholdSeconds db s.tables result.businessDate
      call.refreshedAt).toOption.isSome

/-- A call keeps the alert tables sound. -/
theorem perform_sound (h : AlertService.Sound s.tables) (thresholdSeconds : Int) (call : Call) :
    AlertService.Sound (call.perform thresholdSeconds s).tables := by
  rcases perform_cases thresholdSeconds s call with hsame | ⟨result, hrun⟩
  · rw [hsame]
    exact h
  · obtain ⟨plan, route, stop, -, -, ⟨-, he⟩ | ⟨-, he⟩⟩ := run_ok hrun
    · rw [he]
      exact refresh_sound h thresholdSeconds _ _
    · rw [he]
      refine refresh_sound ?_ thresholdSeconds _ _
      exact h

end Call

/-! ### One transition -/

section

variable {thresholdSeconds : Int} {db : Database} {stopId : UUID} {action : StopAction}
  {eventTime : Instant} {base : DeliveryPlan} {route : VehicleRoute} {stop : RouteStop}

/-- The orders of a transition, but for their risk. -/
theorem order?_applyTransition (id : UUID) :
    ((applyTransition thresholdSeconds db base route stop action.target eventTime).order? id).map
      (·.executionStatus) = ((db.order? id).map fun order ↦
        if order.id == stop.orderId then advanceOrder stop.stopType action.target order
        else order).map (·.executionStatus) := by
  have hid : ∀ order, (advanceOrder stop.stopType action.target order).id = order.id := by
    intro order
    rw [advanceOrder]
    split <;> rfl
  have hupdated : (db.updateOrder stop.orderId (advanceOrder stop.stopType action.target)).order?
      id = (db.order? id).map fun order ↦
        if order.id == stop.orderId then advanceOrder stop.stopType action.target order
        else order :=
    find?_updateWhere fun order ↦ by rw [hid]
  rw [← hupdated]
  exact order?_of_map_eq (map_recalculateRoute thresholdSeconds _ eventTime (fun _ _ ↦ rfl) _) id

/-- A transition moves orders forwards only. -/
theorem ordersForward_applyTransition :
    OrdersForward db (applyTransition thresholdSeconds db base route stop action.target
      eventTime) := by
  intro id order ho
  have hmoved := @order?_applyTransition thresholdSeconds db action eventTime base route stop id
  rw [ho, Option.map_some, Option.map_some] at hmoved
  obtain ⟨order', ho', he⟩ := Option.map_eq_some_iff.mp hmoved
  refine ⟨order', ho', ?_⟩
  rw [he]
  split
  · exact rank_le_advanceOrder _ _ _
  · exact Nat.le_refl _

/-- A completed delivery has delivered its order. -/
theorem delivered_applyTransition {order : Order} (ho : db.order? stop.orderId = some order)
    (hd : stop.stopType = .delivery) (ha : action = .complete) :
    Delivered (applyTransition thresholdSeconds db base route stop action.target eventTime)
      stop.orderId := by
  subst ha
  have hmoved := @order?_applyTransition thresholdSeconds db .complete eventTime base route stop
    stop.orderId
  rw [ho, Option.map_some, Option.map_some, List.find?_some ho, hd] at hmoved
  obtain ⟨order', ho', he⟩ := Option.map_eq_some_iff.mp hmoved
  exact ⟨order', ho', he.trans (advanceOrder_delivery order)⟩

end

/-! ### Plans -/

end PenroseRoute.Operations

namespace PenroseRoute.Db

open Lib Operations

/-- A plan that is executed in order: the stops of its routes are worked off in order, and what
has been delivered on it is COMPLETED. -/
structure DeliveryPlan.Executed (db : Database) (plan : DeliveryPlan) : Prop where
  routeIds : (plan.routes.map (·.id)).Nodup
  routes : ∀ route ∈ plan.routes, route.Executed
  delivered : ∀ route ∈ plan.routes, ∀ stop ∈ route.stops, stop.stopType = .delivery →
    stop.status = .completed → Delivered db stop.orderId

end PenroseRoute.Db

namespace PenroseRoute.Operations

open PenroseRoute.Db PenroseRoute.Lib StopExecutionService

/-- A route is COMPLETED exactly when all its stops are, and then it has an actual start and an
actual end in this order. -/
structure Settled (route : VehicleRoute) : Prop where
  completed : route.status = .completed ↔ ∀ stop ∈ route.stops, stop.status = .completed
  window : route.status = .completed → ∃ start finish, route.actualStartAt = some start ∧
    route.actualEndAt = some finish ∧ start ≤ finish

section

variable {db : Database} {stopId : UUID} {action : StopAction} {eventTime : Instant}
  {base plan : DeliveryPlan} {route : VehicleRoute} {stop : RouteStop}

/-- The stops of a route after a transition. -/
theorem advanceRoute_stops (target : StopStatus) :
    (advanceRoute stopId target eventTime route).stops =
      updateWhere route.stops (·.id == stopId) (advanceStop target eventTime) := by
  rw [advanceRoute]
  split <;> split <;> rfl

/-- A checked transition settles its route. -/
theorem Checked.settled (h : Checked db stopId action.expected action.target eventTime base route
    stop) : Settled (advanceRoute stop.id action.target eventTime route) := by
  obtain ⟨-, -, hmem, -⟩ := lockedStop?_mem h.locked
  have hreached : (advanceStop action.target eventTime stop).status = action.target := by
    cases action <;> rfl
  have hmoved : advanceStop action.target eventTime stop ∈
      (advanceRoute stop.id action.target eventTime route).stops := by
    rw [advanceRoute_stops]
    exact mem_updateWhere_of_true hmem (beq_self_eq_true _)
  have hwindow := h.routeWindow
  by_cases hall : action.target = .completed ∧ (route.updateStop stop.id
      (advanceStop action.target eventTime)).stops.all (·.status == .completed) = true
  · have hstatus : (advanceRoute stop.id action.target eventTime route).status = .completed ∧
        (advanceRoute stop.id action.target eventTime route).actualEndAt = some eventTime := by
      rw [advanceRoute, if_pos hall]
      exact ⟨rfl, rfl⟩
    refine ⟨⟨fun _ other ho ↦ ?_, fun _ ↦ hstatus.1⟩, fun _ ↦ ?_⟩
    · rw [advanceRoute_stops] at ho
      exact eq_of_beq (List.all_eq_true.mp hall.2 other ho)
    · rw [hstatus.2, actualWindowHolds, Option.all_some, Option.any_eq_true] at hwindow
      obtain ⟨start, hstart, hle⟩ := hwindow
      exact ⟨start, eventTime, hstart, hstatus.2, of_decide_eq_true hle⟩
  · have hstatus : (advanceRoute stop.id action.target eventTime route).status ≠ .completed := by
      rw [advanceRoute, if_neg hall]
      split
      · exact fun hc ↦ (by cases hc)
      · exact h.runnable.2
    refine ⟨⟨fun hc ↦ absurd hc hstatus, fun hdone ↦ absurd ?_ hall⟩, fun hc ↦ absurd hc hstatus⟩
    refine ⟨hreached ▸ hdone _ hmoved, List.all_eq_true.mpr fun other ho ↦ beq_iff_eq.mpr ?_⟩
    refine hdone other ?_
    rw [advanceRoute_stops]
    exact ho

/-- A plan after a transition on a plan of the same database. -/
def movedPlan (base : DeliveryPlan) (route : VehicleRoute) (stop : RouteStop)
    (target : StopStatus) (eventTime : Instant) (plan : DeliveryPlan) : DeliveryPlan :=
  if plan.id == base.id then plan.updateRoute route.id (advanceRoute stop.id target eventTime)
  else plan

/-- A transition moves every plan of the database. -/
theorem plans_applyTransition (thresholdSeconds : Int) (target : StopStatus) :
    (applyTransition thresholdSeconds db base route stop target eventTime).plans =
      db.plans.map (movedPlan base route stop target eventTime) := rfl

/-- The routes of a moved plan are what they were apart from statuses and actual times. -/
theorem map_routes_movedPlan {α β : Type} {f : RouteStop → α} {g : VehicleRoute → List α → β}
    (hf : ∀ (stop : RouteStop) (status : StopStatus) (arrival departure : Option Instant),
      f { stop with
        status := status
        actualArrivalAt := arrival
        actualDepartureAt := departure } = f stop)
    (hg : ∀ (route : VehicleRoute) (status : RouteStatus) (start finish : Option Instant) stops as,
      g { route with
        status := status
        actualStartAt := start
        actualEndAt := finish
        stops := stops } as = g route as) (target : StopStatus) :
    ((movedPlan base route stop target eventTime plan).routes.map fun route ↦
      g route (route.stops.map f)) = plan.routes.map fun route ↦ g route (route.stops.map f) := by
  rw [movedPlan]
  split
  · refine map_updateWhere fun other ↦ ?_
    have hstops : (advanceRoute stop.id target eventTime other).stops.map f =
        other.stops.map f := by
      rw [advanceRoute_stops]
      refine map_updateWhere fun row ↦ ?_
      cases target <;> exact hf row _ _ _
    rw [hstops, advanceRoute]
    split <;> split <;> exact hg other _ _ _ _ _
  · rfl

/-- A route of a moved plan is an old one or the one of the transition. -/
theorem mem_routes_movedPlan (h : Checked db stopId action.expected action.target eventTime base
    route stop) (hids : (db.plans.map (·.id)).Nodup) (hp : plan ∈ db.plans)
    (hroutes : (plan.routes.map (·.id)).Nodup) {moved : VehicleRoute}
    (hm : moved ∈ (movedPlan base route stop action.target eventTime plan).routes) :
    moved ∈ plan.routes ∨ plan = base ∧ route ∈ plan.routes ∧
      moved = advanceRoute stop.id action.target eventTime route := by
  obtain ⟨hbase, hroute, -, -⟩ := lockedStop?_mem h.locked
  rw [movedPlan] at hm
  split at hm
  · next hid =>
    have hsame : plan = base := eq_of_key_eq hids hp hbase (eq_of_beq hid)
    rcases mem_updateWhere.mp hm with ⟨old, hold, ⟨hc, rfl⟩ | ⟨-, rfl⟩⟩
    · subst hsame
      have hown := eq_of_key_eq hroutes hold hroute (eq_of_beq hc)
      subst hown
      exact .inr ⟨rfl, hold, rfl⟩
    · exact .inl hold
  · exact .inl hm

/-- The routes of a moved plan keep their ids. -/
theorem movedPlan_routeIds (target : StopStatus) :
    (movedPlan base route stop target eventTime plan).routes.map (·.id) =
      plan.routes.map (·.id) := by
  rw [movedPlan]
  split
  · refine map_updateWhere fun other ↦ ?_
    rw [advanceRoute]
    split <;> split <;> rfl
  · rfl

/-- A plan stays executed in order. -/
theorem Checked.planExecuted (h : Checked db stopId action.expected action.target eventTime base
    route stop) (hids : (db.plans.map (·.id)).Nodup) (hp : plan ∈ db.plans)
    (he : plan.Executed db) (thresholdSeconds : Int) :
    (movedPlan base route stop action.target eventTime plan).Executed
      (applyTransition thresholdSeconds db base route stop action.target eventTime) := by
  obtain ⟨-, -, hmem, -⟩ := lockedStop?_mem h.locked
  have hforward := @ordersForward_applyTransition thresholdSeconds db action eventTime base route
    stop
  refine ⟨?_, fun moved hm ↦ ?_, fun moved hm other ho hd hs ↦ ?_⟩
  · rw [movedPlan_routeIds]
    exact he.routeIds
  · rcases mem_routes_movedPlan h hids hp he.routeIds hm with hold | ⟨-, hroute, rfl⟩
    · exact he.routes moved hold
    · exact h.executed (he.routes route hroute)
  · rcases mem_routes_movedPlan h hids hp he.routeIds hm with hold | ⟨-, hroute, rfl⟩
    · exact hforward.delivered (he.delivered moved hold other ho hd hs)
    · rw [advanceRoute_stops] at ho
      rcases mem_updateWhere.mp ho with ⟨old, hold, ⟨hc, rfl⟩ | ⟨-, rfl⟩⟩
      · have hown := eq_of_key_eq (he.routes route hroute).stopIds hold hmem (eq_of_beq hc)
        subst hown
        obtain ⟨order, horder⟩ := h.order
        cases action with
        | complete => exact delivered_applyTransition horder hd rfl
        | arrive => cases hs
        | startService => cases hs
      · exact hforward.delivered (he.delivered route hroute other hold hd hs)

end

/-- The stop of a transition, its route and its plan are found again as it has left them. -/
theorem lockedStop?_applyTransition (thresholdSeconds : Int) (target : StopStatus)
    (h : db.lockedStop? stopId = some (base, route, stop)) :
    (applyTransition thresholdSeconds db base route stop target eventTime).lockedStop? stopId =
      some (movedPlan base route stop target eventTime base,
        advanceRoute stop.id target eventTime route, advanceStop target eventTime stop) := by
  let movedRoute (plan : DeliveryPlan) (other : VehicleRoute) : VehicleRoute :=
    if plan.id == base.id && other.id == route.id then advanceRoute stop.id target eventTime other
    else other
  let movedStop (plan : DeliveryPlan) (other : VehicleRoute) (row : RouteStop) : RouteStop :=
    if plan.id == base.id && other.id == route.id && row.id == stop.id then
      advanceStop target eventTime row
    else row
  have hid : ∀ row, (advanceStop target eventTime row).id = row.id := by
    intro row
    cases target <;> rfl
  have hroutes : ∀ plan, (movedPlan base route stop target eventTime plan).routes =
      plan.routes.map (movedRoute plan) := by
    intro plan
    by_cases hp : (plan.id == base.id) = true
    · simp only [movedPlan, movedRoute, hp, if_true, Bool.true_and]
      rfl
    · rw [Bool.not_eq_true] at hp
      simp only [movedPlan, movedRoute, hp, Bool.false_and, Bool.false_eq_true, if_false,
        List.map_id']
  have hstops : ∀ plan other, (movedRoute plan other).stops.find? (·.id == stopId) =
      (other.stops.find? (·.id == stopId)).map (movedStop plan other) := by
    intro plan other
    by_cases hc : (plan.id == base.id && other.id == route.id) = true
    · simp only [movedRoute, movedStop, hc, if_true, Bool.true_and, advanceRoute_stops]
      exact find?_updateWhere fun row ↦ by rw [hid]
    · rw [Bool.not_eq_true] at hc
      simp only [movedRoute, movedStop, hc, Bool.false_and, Bool.false_eq_true, if_false,
        Option.map_id']
  have hfound : (applyTransition thresholdSeconds db base route stop target
      eventTime).lockedStop? stopId = (db.lockedStop? stopId).map fun found ↦
        (movedPlan base route stop target eventTime found.1, movedRoute found.1 found.2.1,
          movedStop found.1 found.2.1 found.2.2) := by
    rw [Database.lockedStop?, Database.lockedStop?, plans_applyTransition, List.findSome?_map,
      List.map_findSome?]
    refine congrArg (db.plans.findSome? ·) (funext fun plan ↦ ?_)
    rw [Function.comp_apply, Function.comp_apply, hroutes, List.findSome?_map, List.map_findSome?]
    refine congrArg (plan.routes.findSome? ·) (funext fun other ↦ ?_)
    rw [Function.comp_apply, Function.comp_apply, hstops, Option.map_map, Option.map_map]
    rfl
  rw [hfound, h, Option.map_some]
  simp only [movedRoute, movedStop, beq_self_eq_true, Bool.and_self, if_true]

/-! ### Sequences of calls -/

/-- What a sequence of calls does to a plan: a route that it changes is left settled. -/
structure Served (plan plan' : DeliveryPlan) : Prop where
  id : plan'.id = plan.id
  status : plan'.status = plan.status
  routeIds : plan'.routes.map (·.id) = plan.routes.map (·.id)
  routes : ∀ route' ∈ plan'.routes, route' ∈ plan.routes ∨ Settled route'

/-- A plan serves what it serves. -/
theorem Served.refl (plan : DeliveryPlan) : Served plan plan :=
  ⟨rfl, rfl, rfl, fun _ hr ↦ .inl hr⟩

/-- What is served twice is served. -/
theorem Served.trans {plan plan' plan'' : DeliveryPlan} (h : Served plan plan')
    (h' : Served plan' plan'') : Served plan plan'' where
  id := h'.id.trans h.id
  status := h'.status.trans h.status
  routeIds := h'.routeIds.trans h.routeIds
  routes route hr := by
    rcases h'.routes route hr with hr | hs
    · exact h.routes route hr
    · exact .inr hs

/-- A plan of a database after some calls. -/
structure ServedIn (db db' : Database) (plan plan' : DeliveryPlan) : Prop where
  planIds : (db'.plans.map (·.id)).Nodup
  mem : plan' ∈ db'.plans
  executed : plan'.Executed db'
  served : Served plan plan'
  forward : OrdersForward db db'

/-- Nothing has happened yet. -/
theorem ServedIn.refl {db : Database} {plan : DeliveryPlan} (hids : (db.plans.map (·.id)).Nodup)
    (hp : plan ∈ db.plans) (he : plan.Executed db) : ServedIn db db plan plan :=
  ⟨hids, hp, he, .refl plan, .refl db⟩

/-- Risk flags are nothing that an order does. -/
theorem ordersForward_of_sameFacts {db db' : Database} (h : AlertService.SameFacts db db') :
    OrdersForward db db' := by
  refine fun id order ho ↦ ?_
  have hsame := h.order? id
  rw [ho, Option.map_some] at hsame
  obtain ⟨order', ho', he⟩ := Option.map_eq_some_iff.mp hsame
  exact ⟨order', ho', Nat.le_of_eq (congrArg (fun order ↦ order.executionStatus.rank) he.symm)⟩

/-- Neither do they change a plan. -/
theorem ServedIn.refreshed {db db' db'' : Database} {plan plan' : DeliveryPlan}
    (h : ServedIn db db' plan plan') (hfacts : AlertService.SameFacts db' db'') :
    ServedIn db db'' plan plan' := by
  have hplans : db''.plans = db'.plans := by rw [hfacts.rest]
  have hforward := ordersForward_of_sameFacts hfacts
  refine ⟨?_, ?_, ⟨h.executed.routeIds, h.executed.routes, ?_⟩, h.served,
    h.forward.trans hforward⟩
  · rw [hplans]
    exact h.planIds
  · rw [hplans]
    exact h.mem
  · exact fun route hr stop hs hd hdone ↦
      hforward.delivered (h.executed.delivered route hr stop hs hd hdone)

/-- One transition. -/
theorem Checked.servedIn {db : Database} {plan base : DeliveryPlan} {route : VehicleRoute}
    {stop : RouteStop} {stopId : UUID} {action : StopAction} {eventTime : Instant}
    (h : Checked db stopId action.expected action.target eventTime base route stop)
    (hids : (db.plans.map (·.id)).Nodup) (hp : plan ∈ db.plans) (he : plan.Executed db)
    (thresholdSeconds : Int) :
    ServedIn db (applyTransition thresholdSeconds db base route stop action.target eventTime) plan
      (movedPlan base route stop action.target eventTime plan) := by
  refine ⟨?_, ?_, Checked.planExecuted h hids hp he thresholdSeconds, ?_,
    ordersForward_applyTransition⟩
  · have hkeys : (applyTransition thresholdSeconds db base route stop action.target
        eventTime).plans.map (·.id) = db.plans.map (·.id) := by
      rw [plans_applyTransition, List.map_map]
      refine List.map_congr_left fun other _ ↦ ?_
      rw [Function.comp_apply, movedPlan]
      split <;> rfl
    rw [hkeys]
    exact hids
  · rw [plans_applyTransition]
    exact List.mem_map_of_mem hp
  · refine ⟨?_, ?_, movedPlan_routeIds _, fun route' hr ↦ ?_⟩
    · rw [movedPlan]
      split <;> rfl
    · rw [movedPlan]
      split <;> rfl
    · rcases mem_routes_movedPlan h hids hp he.routeIds hr with hold | ⟨-, -, rfl⟩
      · exact .inl hold
      · exact .inr (Checked.settled h)

/-- One call. -/
theorem perform_served {s : AlertService.State} {plan : DeliveryPlan}
    (hids : (s.db.plans.map (·.id)).Nodup) (hp : plan ∈ s.db.plans) (he : plan.Executed s.db)
    (thresholdSeconds : Int) (call : Call) :
    ∃ plan', ServedIn s.db (call.perform thresholdSeconds s).db plan plan' := by
  rcases call.perform_cases thresholdSeconds s with hsame | ⟨result, hrun⟩
  · rw [hsame]
    exact ⟨plan, .refl hids hp he⟩
  · obtain ⟨base, route, stop, -, -, ⟨-, hmoved⟩ | ⟨hc, hmoved⟩⟩ := Call.run_ok hrun
    · rw [hmoved]
      exact ⟨plan, (ServedIn.refl hids hp he).refreshed (refresh_sameFacts _ s _ _)⟩
    · rw [hmoved]
      exact ⟨_, (Checked.servedIn hc hids hp he thresholdSeconds).refreshed
        (refresh_sameFacts thresholdSeconds { s with db := _ } _ _)⟩

/-- A sequence of calls. -/
theorem performs_served {s : AlertService.State} {plan : DeliveryPlan}
    (hids : (s.db.plans.map (·.id)).Nodup) (hp : plan ∈ s.db.plans) (he : plan.Executed s.db)
    (thresholdSeconds : Int) (calls : List Call) :
    ∃ plan', ServedIn s.db (calls.foldl (Call.perform thresholdSeconds) s).db plan plan' := by
  induction calls generalizing s plan with
  | nil => exact ⟨plan, .refl hids hp he⟩
  | cons call rest ih =>
    obtain ⟨next, hnext⟩ := perform_served hids hp he thresholdSeconds call
    obtain ⟨plan', hrest⟩ := ih hnext.planIds hnext.mem hnext.executed
    exact ⟨plan', hrest.planIds, hrest.mem, hrest.executed, hnext.served.trans hrest.served,
      hnext.forward.trans hrest.forward⟩

/-- Calls keep the alert tables sound. -/
theorem performs_sound {s : AlertService.State} (h : AlertService.Sound s.tables)
    (thresholdSeconds : Int) (calls : List Call) :
    AlertService.Sound (calls.foldl (Call.perform thresholdSeconds) s).tables := by
  induction calls generalizing s with
  | nil => exact h
  | cons call rest ih => exact ih (Call.perform_sound h thresholdSeconds call)

/-- After a call that has refreshed the alerts, the same action changes nothing when its own refresh
is of no later time. -/
theorem Call.perform_again {thresholdSeconds : Int} {s : AlertService.State} {call again : Call}
    (hsound : AlertService.Sound s.tables) (hev : call.Evaluated thresholdSeconds s)
    (hstop : again.stopId = call.stopId) (haction : again.action = call.action)
    (hle : again.refreshedAt ≤ call.refreshedAt) :
    again.perform thresholdSeconds (call.perform thresholdSeconds s) =
      call.perform thresholdSeconds s := by
  obtain ⟨db, result, ht, hev⟩ := hev
  have hperform : call.perform thresholdSeconds s =
      call.refresh thresholdSeconds { s with db := db } result.businessDate := by
    rw [perform, run_eq, command, ht]
    rfl
  -- The stop is where the call leads, on the plan of the date that was refreshed.
  obtain ⟨plan, route, stop, hl, hdate, hs⟩ : ∃ plan route stop,
      db.lockedStop? call.stopId = some (plan, route, stop) ∧
        plan.businessDate = result.businessDate ∧ stop.status = call.action.target := by
    rcases transition_ok ht with ⟨rfl, plan, route, stop, hl, -, hs⟩ | ⟨plan, route, stop, hc, rfl⟩
    · exact ⟨plan, route, stop, hl, (transition_date ht hl).symm, hs⟩
    · refine ⟨_, _, _, lockedStop?_applyTransition thresholdSeconds _ hc.locked, ?_, ?_⟩
      · rw [transition_date ht hc.locked, movedPlan]
        split <;> rfl
      · cases call.action <;> rfl
  have hfacts := refresh_sameFacts thresholdSeconds { s with db := db } result.businessDate
    call.refreshedAt
  have hl' : (call.perform thresholdSeconds s).db.lockedStop? again.stopId =
      some (plan, route, stop) := by
    rw [hperform, refresh, hstop, hfacts.rest]
    exact hl
  rw [← haction] at hs
  rcases @perform_of_reached thresholdSeconds _ again _ _ _ hl' hs with hkept | hrefreshed
  · exact hkept
  · rw [hrefreshed, hperform, hdate]
    exact refresh_again hsound hev hle

/-- Some stop of the route has been completed since. -/
def CompletedSince (route route' : VehicleRoute) : Prop :=
  ∃ stop ∈ route.stops, stop.status ≠ .completed ∧
    ∃ stop' ∈ route'.stops, stop'.id = stop.id ∧ stop'.status = .completed

/-- A route on which a stop was completed is settled. -/
theorem Served.settled {plan plan' : DeliveryPlan} (h : Served plan plan') {db : Database}
    (he : plan.Executed db) {route route' : VehicleRoute} (hr : route ∈ plan.routes)
    (hr' : route' ∈ plan'.routes) (hid : route'.id = route.id)
    (hc : CompletedSince route route') : Settled route' := by
  rcases h.routes route' hr' with hold | hs
  · have hsame := eq_of_key_eq he.routeIds hold hr hid
    subst hsame
    obtain ⟨stop, hstop, hopen, stop', hstop', hsid, hdone⟩ := hc
    have hown := eq_of_key_eq (he.routes _ hr).stopIds hstop' hstop hsid
    exact absurd (hown ▸ hdone) hopen
  · exact hs

/-! ### What the order of the stops says -/

/-- The stops of a route as execution has left them: COMPLETED stops come first, at most one
stop is ARRIVED or IN_SERVICE and it is the first one not COMPLETED, no stop is left before it
is reached and none is reached before the one before it was left. -/
structure WorkedOff (stops : List RouteStop) : Prop where
  completedFirst : ∀ a ∈ stops, ∀ b ∈ stops, a.sequenceNo < b.sequenceNo →
    b.status = .completed → a.status = .completed
  oneUnderway : ∀ a ∈ stops, a.InProgress → ∀ b ∈ stops,
    (b.sequenceNo < a.sequenceNo → b.status = .completed) ∧
      (a.sequenceNo < b.sequenceNo → b.status = .planned)
  ownTimes : ∀ a ∈ stops, ∀ departure, a.actualDepartureAt = some departure →
    ∃ arrival, a.actualArrivalAt = some arrival ∧ arrival ≤ departure
  nextTimes : ∀ a ∈ stops, ∀ b ∈ stops, a.sequenceNo < b.sequenceNo → ∀ arrival,
    b.actualArrivalAt = some arrival → ∃ departure, a.actualDepartureAt = some departure ∧
      departure ≤ arrival

/-- In a list in order a smaller number stands before a larger one. -/
theorem before_of_lt {stops : List RouteStop} {R : RouteStop → RouteStop → Prop}
    (hs : stops.Pairwise fun a b ↦ a.sequenceNo < b.sequenceNo) (hR : stops.Pairwise R)
    {a b : RouteStop} (ha : a ∈ stops) (hb : b ∈ stops) (hlt : a.sequenceNo < b.sequenceNo) :
    R a b := by
  induction stops with
  | nil => cases ha
  | cons c rest ih =>
    rw [List.pairwise_cons] at hs hR
    rw [List.mem_cons] at ha hb
    rcases ha with rfl | ha
    · rcases hb with rfl | hb
      · exact absurd hlt (Nat.lt_irrefl _)
      · exact hR.1 b hb
    · rcases hb with rfl | hb
      · exact absurd (hs.1 a ha) (Nat.lt_asymm hlt)
      · exact ih hs.2 hR.2 ha hb

/-- A route whose stops are in order is worked off. -/
theorem executed_workedOff {route : VehicleRoute} (h : route.Executed) :
    WorkedOff route.stops := by
  have hbefore : ∀ a ∈ route.stops, ∀ b ∈ route.stops, a.sequenceNo < b.sequenceNo →
      InOrder.Before RouteStop.stage a b :=
    fun a ha b hb hlt ↦ before_of_lt h.sorted h.inOrder.pairwise ha hb hlt
  have hstage : ∀ stop ∈ route.stops, stop.stage = some .waiting ∨
      (∃ start, stop.stage = some (.begun start)) ∨
        ∃ start finish, stop.stage = some (.ended start finish) ∧ start ≤ finish := by
    intro stop hs
    rcases h.inOrder.stage_of_mem hs with hw | ⟨start, hb, -⟩ | ⟨start, finish, he, hle, -⟩
    · exact .inl hw
    · exact .inr (.inl ⟨start, hb⟩)
    · exact .inr (.inr ⟨start, finish, he, hle⟩)
  have hreached : ∀ a ∈ route.stops, ∀ b ∈ route.stops, a.sequenceNo < b.sequenceNo →
      b.stage ≠ some .waiting → ∃ start finish, a.stage = some (.ended start finish) := by
    intro a ha b hb hlt hn
    rcases hstage a ha with hw | ⟨start, hbegun⟩ | ⟨start, finish, he, -⟩
    · exact absurd ((hbefore a ha b hb hlt).waiting hw) hn
    · exact absurd ((hbefore a ha b hb hlt).begun start hbegun) hn
    · exact ⟨start, finish, he⟩
  refine ⟨?_, ?_, ?_, ?_⟩
  · intro a ha b hb hlt hdone
    obtain ⟨start, finish, he⟩ := hreached a ha b hb hlt fun hw ↦ by
      rw [(stage_eq_waiting.mp hw).1] at hdone
      cases hdone
    exact (stage_eq_ended.mp he).1
  · intro a ha hp b hb
    have hbegun : ∃ start, a.stage = some (.begun start) := by
      rcases hstage a ha with hw | hbegun | ⟨start, finish, he, -⟩
      · rcases hp with hp | hp
        · exact absurd (hp.symm.trans (stage_eq_waiting.mp hw).1) (by decide)
        · exact absurd (hp.symm.trans (stage_eq_waiting.mp hw).1) (by decide)
      · exact hbegun
      · rcases hp with hp | hp
        · exact absurd (hp.symm.trans (stage_eq_ended.mp he).1) (by decide)
        · exact absurd (hp.symm.trans (stage_eq_ended.mp he).1) (by decide)
    obtain ⟨start, hbegun⟩ := hbegun
    refine ⟨fun hlt ↦ ?_, fun hlt ↦ ?_⟩
    · obtain ⟨s, f, he⟩ := hreached b hb a ha hlt fun hw ↦ by
        rw [hbegun] at hw
        cases hw
      exact (stage_eq_ended.mp he).1
    · exact (stage_eq_waiting.mp ((hbefore a ha b hb hlt).begun start hbegun)).1
  · intro a ha departure hd
    rcases hstage a ha with hw | ⟨start, hb⟩ | ⟨start, finish, he, hle⟩
    · rw [(stage_eq_waiting.mp hw).2.2] at hd
      cases hd
    · rw [(stage_eq_begun.mp hb).2.2] at hd
      cases hd
    · have htimes := (stage_eq_ended.mp he).2
      rw [htimes.2] at hd
      cases hd
      exact ⟨start, htimes.1, hle⟩
  · intro a ha b hb hlt arrival harrival
    obtain ⟨start, finish, he⟩ := hreached a ha b hb hlt fun hw ↦ by
      rw [(stage_eq_waiting.mp hw).2.1] at harrival
      cases harrival
    refine ⟨finish, (stage_eq_ended.mp he).2.2, ?_⟩
    obtain ⟨hbegun, hended⟩ := (hbefore a ha b hb hlt).ended start finish he
    rcases hstage b hb with hw | ⟨start', hb'⟩ | ⟨start', finish', he', -⟩
    · rw [(stage_eq_waiting.mp hw).2.1] at harrival
      cases harrival
    · rw [(stage_eq_begun.mp hb').2.1] at harrival
      cases harrival
      exact hbegun _ hb'
    · rw [(stage_eq_ended.mp he').2.1] at harrival
      cases harrival
      exact hended _ _ he'

end PenroseRoute.Operations
