import PenroseRoute.Operations.RiskVerdicts
import PenroseRoute.System.Memberships

/-!
# Agreement of the risk computations

In a CURRENT plan whose deliveries and memberships name each other and in which no delivery waits
for a COMPLETED order, the four risk computations agree. An order gets COMPLETED without its
delivery when its execution status is advanced by hand, and a candidate can deliver a COMPLETED
order again; nothing else separates the two.
-/

namespace PenroseRoute.System

open PenroseRoute.Db PenroseRoute.Lib PenroseRoute.Operations PenroseRoute.Recovery
open PenroseRoute.Incidents PenroseRoute.Lifecycle PenroseRoute.Optimization
open StopExecutionService MerchantDelayWorkflow

/-- The deliveries of a plan that are still to be made. -/
def waitingDeliveries (plan : DeliveryPlan) : List RouteStop :=
  (plan.routes.flatMap (·.stops)).filter fun stop ↦
    stop.stopType == .delivery && stop.status != .completed

/-- The candidate of an attempt. -/
def candidateOf? (db : Database) (recoveryId : UUID) : Option DeliveryPlan :=
  (db.recoveryPlan? recoveryId).bind fun recovery ↦
    recovery.candidateDeliveryPlanId.bind db.plan?

/-- No order is advanced to COMPLETED while a CURRENT plan has still to deliver it, and no
candidate is approved that has still to deliver a COMPLETED order. -/
def CompletesByDelivery (settings : Settings) (s : SysState) : Action → Prop
  | .advanceExecution orderId .completed =>
    (s.db.order? orderId).any (·.executionStatus == .delivering) = true →
      ∀ plan ∈ s.db.plans, plan.status = .current → ∀ stop ∈ waitingDeliveries plan,
        stop.orderId ≠ orderId
  | .decide services recoveryId .approve reason now =>
    (Decisions.decide services settings.fingerprint s.db recoveryId .approve reason
        now).toOption.isSome = true →
      ∀ candidate ∈ candidateOf? s.db recoveryId, ∀ stop ∈ waitingDeliveries candidate,
        ∀ order ∈ s.db.order? stop.orderId, order.executionStatus ≠ .completed
  | _ => True

/-- The deliveries of a plan and its assigned memberships name each other, and none of them waits
for a COMPLETED order. -/
structure Matched (db : Database) (plan : DeliveryPlan) : Prop where
  named : DeliveriesNamed plan
  delivered : ∀ membership ∈ plan.planOrders, membership.assignmentStatus = .assigned →
    ∃ route ∈ plan.routes, membership.vehicleRouteId = some route.id ∧
      route.delivers membership.orderId = true
  waiting : ∀ stop ∈ waitingDeliveries plan, ¬ Delivered db stop.orderId

variable {settings : Settings} {s : SysState} {action : Action} {db db' : Database}
  {plan plan' : DeliveryPlan} {orderId : UUID}

/-- The waiting deliveries are the DELIVERY stops that are not COMPLETED. -/
theorem mem_waitingDeliveries {stop : RouteStop} : stop ∈ waitingDeliveries plan ↔
    ∃ route ∈ plan.routes, stop ∈ route.stops ∧ stop.stopType = .delivery ∧
      stop.status ≠ .completed := by
  rw [waitingDeliveries, List.mem_filter, List.mem_flatMap, Bool.and_eq_true, beq_iff_eq,
    bne_iff_ne]
  constructor
  · rintro ⟨⟨route, hr, hs⟩, h⟩
    exact ⟨route, hr, hs, h⟩
  · rintro ⟨route, hr, hs, h⟩
    exact ⟨⟨route, hr, hs⟩, h⟩

/-! ### What a layout decides -/

/-- Routes with the same fixed stops deliver the same orders. -/
theorem delivers_of_fixed {route route' : VehicleRoute}
    (h : route.stops.map (·.fixed) = route'.stops.map (·.fixed)) (orderId : UUID) :
    route.delivers orderId = route'.delivers orderId := by
  have hany : ∀ stops : List RouteStop,
      (stops.any fun stop ↦ stop.orderId == orderId && stop.stopType == .delivery) =
        (stops.map fun stop ↦ (stop.orderId, stop.stopType)).any fun key ↦
          key.1 == orderId && key.2 == .delivery := by
    intro stops
    rw [List.any_map]
    rfl
  rw [VehicleRoute.delivers, VehicleRoute.delivers, hany, keys_of_fixed h, ← hany]

/-- One vehicle delivers an order in plans with the same layout. -/
theorem oneDeliverer_of_layout (h : OneDeliverer plan.routes orderId)
    (hlayout : plan'.layout = plan.layout) : OneDeliverer plan'.routes orderId := by
  intro a ha b hb hda hdb
  obtain ⟨old, hold, -, hvehicle, hfixed⟩ := exists_of_layout hlayout ha
  obtain ⟨old', hold', -, hvehicle', hfixed'⟩ := exists_of_layout hlayout hb
  rw [← hvehicle, ← hvehicle']
  refine h old hold old' hold' ?_ ?_
  · rw [delivers_of_fixed hfixed, hda]
  · rw [delivers_of_fixed hfixed', hdb]

/-- Deliveries and memberships name each other in plans with the same layout and memberships. -/
theorem Matched.of_layout (h : Matched db plan) (hlayout : plan'.layout = plan.layout)
    (horders : plan'.planOrders = plan.planOrders)
    (hwaiting : ∀ stop ∈ waitingDeliveries plan', ¬ Delivered db' stop.orderId) :
    Matched db' plan' := by
  refine ⟨fun route' hr orderId hd ↦ ?_, fun membership hm hassigned ↦ ?_, hwaiting⟩
  · obtain ⟨route, hroute, hid, -, hfixed⟩ := exists_of_layout hlayout hr
    rw [← delivers_of_fixed hfixed] at hd
    obtain ⟨membership, hm, hmid, hnamed⟩ := h.named route hroute orderId hd
    exact ⟨membership, horders ▸ hm, hmid, hid ▸ hnamed⟩
  · rw [horders] at hm
    obtain ⟨route, hroute, hnamed, hd⟩ := h.delivered membership hm hassigned
    obtain ⟨route', hr, hid, -, hfixed⟩ := exists_of_layout hlayout.symm hroute
    refine ⟨route', hr, hid ▸ hnamed, ?_⟩
    rw [delivers_of_fixed hfixed, hd]

/-! ### Who delivers -/

/-- What the stops of routes are for and how far they are. -/
def stopKeys (routes : List VehicleRoute) : List (List (UUID × StopType × StopStatus)) :=
  routes.map fun route ↦ route.stops.map fun stop ↦ (stop.orderId, stop.stopType, stop.status)

private theorem exists_of_stopKeys {routes routes' : List VehicleRoute}
    (h : stopKeys routes' = stopKeys routes) {route : VehicleRoute} (hr : route ∈ routes)
    {stop : RouteStop} (hs : stop ∈ route.stops) : ∃ route' ∈ routes', ∃ stop' ∈ route'.stops,
      stop'.orderId = stop.orderId ∧ stop'.stopType = stop.stopType ∧
        stop'.status = stop.status := by
  have hmem : (route.stops.map fun stop ↦ (stop.orderId, stop.stopType, stop.status)) ∈
      stopKeys routes' := by
    rw [h]
    exact List.mem_map_of_mem hr
  obtain ⟨route', hr', hstops⟩ := List.mem_map.mp hmem
  have hstop : (stop.orderId, stop.stopType, stop.status) ∈ route'.stops.map fun stop ↦
      (stop.orderId, stop.stopType, stop.status) := by
    rw [hstops]
    exact List.mem_map.mpr ⟨stop, hs, rfl⟩
  obtain ⟨stop', hs', hkey⟩ := List.mem_map.mp hstop
  rw [Prod.mk.injEq, Prod.mk.injEq] at hkey
  exact ⟨route', hr', stop', hs', hkey⟩

private theorem deliveredAgain_of_stopKeys {routes routes' : List VehicleRoute}
    (h : DeliveredAgain routes orderId) (he : stopKeys routes' = stopKeys routes) :
    DeliveredAgain routes' orderId := by
  constructor
  · obtain ⟨route, hr, stop, hs, hid, hd, hstatus⟩ := h.done
    obtain ⟨route', hr', stop', hs', hid', hd', hstatus'⟩ := exists_of_stopKeys he hr hs
    exact ⟨route', hr', stop', hs', hid'.trans hid, hd'.trans hd, hstatus'.trans hstatus⟩
  · obtain ⟨route, hr, stop, hs, hid, hd, hstatus⟩ := h.waiting
    obtain ⟨route', hr', stop', hs', hid', hd', hstatus'⟩ := exists_of_stopKeys he hr hs
    exact ⟨route', hr', stop', hs', hid'.trans hid, hd'.trans hd, hstatus' ▸ hstatus⟩

private theorem stopKeys_shiftPlan (context : MerchantIncidentContext) (updatedReadyAt : Instant)
    (plan : DeliveryPlan) :
    stopKeys (shiftPlan context updatedReadyAt plan).routes =
      stopKeys plan.routes :=
  map_routes_shiftPlan
    (f := fun stop ↦ (stop.orderId, stop.stopType, stop.status)) (g := fun _ stops ↦ stops)
    (fun _ _ _ ↦ rfl) (fun _ _ _ ↦ rfl) context updatedReadyAt plan

/-- Every plan has one vehicle for the delivery of an order, or delivers it again. -/
def DeliversOnce (plan : DeliveryPlan) : Prop :=
  ∀ orderId, OneDeliverer plan.routes orderId ∨ DeliveredAgain plan.routes orderId

/-- A plan whose deliveries are named by its memberships delivers once. -/
theorem oneDeliverer_of_named (h : DeliveriesNamed plan) (hplan : PlanOk db plan)
    (hmembered : Membered db plan) (orderId : UUID) : OneDeliverer plan.routes orderId := by
  intro a ha b hb hda hdb
  rw [h.unique hmembered.onePerOrder hplan.executed.routeIds ha hb hda hdb]

/-- Every transaction leaves plans that deliver once or again. -/
theorem deliversOnce_apply (hids : (s.db.plans.map (·.id)).Nodup)
    (hplans : ∀ plan ∈ s.db.plans, PlanOk s.db plan)
    (hmembered : ∀ plan ∈ s.db.plans, Membered s.db plan)
    (hmatched : ∀ plan ∈ s.db.plans, plan.status = .current → Matched s.db plan)
    (h : ∀ plan ∈ s.db.plans, DeliversOnce plan) :
    ∀ plan ∈ (s.apply settings action).db.plans, DeliversOnce plan := by
  intro plan hp orderId
  cases apply_source settings s action hp with
  | kept hold hroutes =>
    rw [hroutes]
    exact h _ hold orderId
  | @moved _ _ _ _ base old _ _ hold hc =>
    by_cases hid : old.id = base.id
    · obtain ⟨hbase, -, -, -⟩ := lockedStop?_mem hc.locked
      obtain rfl : old = base := eq_of_key_eq hids hold hbase hid
      have hnamed := (hmatched old hold hc.current).named
      exact .inl (oneDeliverer_of_layout
        (oneDeliverer_of_named hnamed (hplans old hold) (hmembered old hold) orderId)
        layout_movedPlan)
    · rw [movedPlan, if_neg (mt eq_of_beq hid)]
      exact h old hold orderId
  | @shifted _ _ updatedReadyAt _ _ context old hold _ _ _ _ =>
    rcases h old hold orderId with hone | hagain
    · refine .inl (oneDeliverer_of_layout hone ?_)
      exact map_routes_shiftPlan (f := (·.fixed))
        (g := fun route stops ↦ (route.id, route.vehicleId, stops)) (fun _ _ _ ↦ rfl)
        (fun _ _ _ ↦ rfl) _ _ old
    · exact .inr (deliveredAgain_of_stopKeys hagain (stopKeys_shiftPlan _ _ old))
  | persisted hrun hpersisted =>
    obtain ⟨context, result, roads, hpersisted⟩ := hpersisted
    obtain ⟨incident, base, -, hb, hread⟩ := materializeRecoveryContext_ok hpersisted.read
    obtain ⟨matrix, input, -, hacc⟩ := hpersisted.accepted
    obtain ⟨nextId, hroutes⟩ := hpersisted.persisted
    have hbase := (plan?_mem hb).1
    exact oneDeliverer_or_again hread (hmembered base hbase).onePerOrder
      (hplans base hbase).executed.routeIds (hmatched base hbase hread.current).named hacc
      (persistRoutes_ok hroutes).1 orderId

/-! ### What completes an order -/

private theorem completing_of_desired {stopType : StopType} {call : StopAction}
    (h : desiredStatus stopType call.target = some .completed) :
    stopType = .delivery ∧ call = .complete := by
  cases stopType <;> cases call
  case delivery.complete => exact ⟨rfl, rfl⟩
  all_goals cases h

/-- A transition completes an order by its delivery only. -/
theorem delivered_of_applyTransition {thresholdSeconds : Int} {call : StopAction}
    {eventTime : Instant} {base : DeliveryPlan} {route : VehicleRoute} {stop : RouteStop}
    (h : Delivered (applyTransition thresholdSeconds db base route stop call.target eventTime)
      orderId) :
    Delivered db orderId ∨ orderId = stop.orderId ∧ stop.stopType = .delivery ∧
      call = .complete := by
  obtain ⟨order', ho', hdone⟩ := h
  have hmoved := @order?_applyTransition thresholdSeconds db call eventTime base route stop orderId
  rw [ho', Option.map_some, hdone] at hmoved
  obtain ⟨advanced, hadvanced, hstatus⟩ := Option.map_eq_some_iff.mp hmoved.symm
  obtain ⟨order, ho, rfl⟩ := Option.map_eq_some_iff.mp hadvanced
  by_cases hid : order.id = stop.orderId
  · rw [if_pos (beq_iff_eq.mpr hid), advanceOrder] at hstatus
    have howned : order.id = orderId := eq_of_beq (List.find?_some ho :)
    cases hdesired : desiredStatus stop.stopType call.target with
    | none =>
      rw [hdesired] at hstatus
      exact .inl ⟨order, ho, hstatus⟩
    | some desired =>
      rw [hdesired] at hstatus
      dsimp only at hstatus
      split at hstatus
      · refine .inr ⟨howned.symm.trans hid, ?_⟩
        rw [hstatus] at hdesired
        exact completing_of_desired hdesired
      · exact .inl ⟨order, ho, hstatus⟩
  · rw [if_neg (mt eq_of_beq hid)] at hstatus
    exact .inl ⟨order, ho, hstatus⟩

/-- Two stops for the delivery of one order on a CURRENT plan are one stop. -/
theorem delivery_unique (hplan : PlanOk db plan) (hmembered : Membered db plan)
    (hnamed : DeliveriesNamed plan) {a b : VehicleRoute} (ha : a ∈ plan.routes)
    (hb : b ∈ plan.routes) {stop other : RouteStop} (hs : stop ∈ a.stops) (ho : other ∈ b.stops)
    (hd : stop.stopType = .delivery) (hd' : other.stopType = .delivery)
    (hid : stop.orderId = other.orderId) : a = b ∧ stop = other := by
  have hsame : a = b := by
    have hda : a.delivers stop.orderId = true := delivers_iff.mpr ⟨stop, hs, rfl, hd⟩
    have hdb : b.delivers stop.orderId = true := delivers_iff.mpr ⟨other, ho, hid.symm, hd'⟩
    exact hnamed.unique hmembered.onePerOrder hplan.executed.routeIds ha hb hda hdb
  subst hsame
  exact ⟨rfl, eq_of_key_eq (hplan.linked a ha).once hs ho (Prod.ext hid (hd.trans hd'.symm))⟩

/-- A transition leaves the deliveries that wait to orders that are not COMPLETED. -/
theorem waiting_movedPlan {thresholdSeconds : Int} {stopId : UUID} {call : StopAction}
    {eventTime : Instant} {base : DeliveryPlan} {route : VehicleRoute} {stop : RouteStop}
    (hl : (ledgerOf db).Sound) (hplans : ∀ plan ∈ db.plans, PlanOk db plan)
    (hmembered : ∀ plan ∈ db.plans, Membered db plan)
    (hmatched : ∀ plan ∈ db.plans, plan.status = .current → Matched db plan)
    (h : Checked db stopId call.expected call.target eventTime base route stop)
    (hp : plan ∈ db.plans) (hs : plan.status = .current) :
    ∀ waiting ∈ waitingDeliveries (movedPlan base route stop call.target eventTime plan),
      ¬ Delivered (applyTransition thresholdSeconds db base route stop call.target eventTime)
        waiting.orderId := by
  intro waiting hw hdelivered
  obtain ⟨hbase, hroute, hstop, -⟩ := lockedStop?_mem h.locked
  obtain ⟨moved, hmoved, hmem, hd, hopen⟩ := mem_waitingDeliveries.mp hw
  -- The stop before the transition: the one that moves, or another one.
  have hold : ∃ old ∈ plan.routes, ∃ before ∈ old.stops, before.orderId = waiting.orderId ∧
      before.stopType = .delivery ∧ before.status ≠ .completed ∧
        (waiting.status = call.target ∨ ¬ (plan = base ∧ old = route ∧ before = stop)) := by
    rw [movedPlan] at hmoved
    split at hmoved
    · next hid =>
      obtain rfl : plan = base := eq_of_key_eq hl.planIds hp hbase (eq_of_beq hid)
      obtain ⟨old, hold, ⟨hown, rfl⟩ | ⟨hother, rfl⟩⟩ := mem_updateWhere.mp hmoved
      · obtain rfl : old = route :=
          eq_of_key_eq (hplans plan hp).executed.routeIds hold hroute (eq_of_beq hown)
        rw [advanceRoute_stops] at hmem
        obtain ⟨before, hbefore, ⟨hsid, rfl⟩ | ⟨hsid, rfl⟩⟩ := mem_updateWhere.mp hmem
        · obtain rfl : before = stop := eq_of_key_eq
            ((hplans plan hp).executed.routes old hold).stopIds hbefore hstop (eq_of_beq hsid)
          refine ⟨old, hold, before, hbefore, ?_, ?_, ?_, .inl ?_⟩
          · cases call <;> rfl
          · cases call <;> exact hd
          · rw [h.expected]
            cases call <;> exact fun hdone ↦ (by cases hdone)
          · cases call <;> rfl
        · refine ⟨old, hold, waiting, hbefore, rfl, hd, hopen, .inr fun hsame ↦ ?_⟩
          rw [hsame.2.2, beq_self_eq_true] at hsid
          cases hsid
      · refine ⟨moved, hold, waiting, hmem, rfl, hd, hopen, .inr fun hsame ↦ ?_⟩
        rw [hsame.2.1, beq_self_eq_true] at hother
        cases hother
    · next hid =>
      refine ⟨moved, hmoved, waiting, hmem, rfl, hd, hopen, .inr fun hsame ↦ hid ?_⟩
      rw [hsame.1, beq_self_eq_true]
  obtain ⟨old, hold, before, hbefore, horder, hkind, hnot, hcase⟩ := hold
  rcases delivered_of_applyTransition hdelivered with hdone | ⟨hid, hdelivery, rfl⟩
  · refine (hmatched plan hp hs).waiting before ?_ (horder ▸ hdone)
    exact mem_waitingDeliveries.mpr ⟨old, hold, hbefore, hkind, hnot⟩
  · -- The order is of one date, and its plan delivers it once.
    have hsame : plan = base := by
      obtain ⟨m, hm, hmid, -⟩ := (hmembered plan hp).stops old hold before hbefore
      obtain ⟨m', hm', hmid', -⟩ := (hmembered base hbase).stops route hroute stop hstop
      obtain ⟨order, ho, hdate⟩ := (hmembered plan hp).dated m hm
      obtain ⟨order', ho', hdate'⟩ := (hmembered base hbase).dated m' hm'
      rw [hmid, horder, hid, ← hmid', ho', Option.some.injEq] at ho
      subst ho
      have hfound := currentPlan?_of_mem hl hp hs
      rw [← hdate, hdate', currentPlan?_of_mem hl hbase h.current, Option.some.injEq] at hfound
      exact hfound.symm
    subst hsame
    obtain ⟨hown, hunique⟩ := delivery_unique (hplans plan hp) (hmembered plan hp)
      (hmatched plan hp hs).named hold hroute hbefore hstop hkind hdelivery (horder.trans hid)
    rcases hcase with hstatus | hother
    · exact hopen hstatus
    · exact hother ⟨rfl, hown, hunique⟩

/-! ### What an approval puts in force -/

/-- An approved candidate whose deliveries wait for open orders only is matched. -/
theorem matched_of_approved {recoveryId : UUID} {reviewable : Decisions.Reviewable}
    (h : Decisions.Locked db recoveryId reviewable)
    (hplan : PlanOk db reviewable.candidate) (hmembered : Membered db reviewable.candidate)
    (honce : DeliversOnce reviewable.candidate)
    (hwaiting : ∀ stop ∈ waitingDeliveries reviewable.candidate, ¬ Delivered db stop.orderId) :
    Matched db reviewable.candidate := by
  have hnames : ∀ membership ∈ reviewable.candidate.planOrders,
      membership.assignmentStatus = .assigned → ∃ route ∈ reviewable.candidate.routes,
        membership.vehicleRouteId = some route.id ∧ route.delivers membership.orderId = true := by
    intro membership hm hassigned
    have hsnapshot := h.snapshot
    simp only [Decisions.snapshotConsistent, Bool.and_eq_true, List.all_eq_true] at hsnapshot
    have hown := hsnapshot.2 membership (List.mem_filter.mpr ⟨hm, beq_iff_eq.mpr hassigned⟩)
    obtain ⟨route, hfound, hd⟩ := (Option.any_eq_true _ _).mp hown
    obtain ⟨routeId, hid, hfind⟩ := Option.bind_eq_some_iff.mp hfound
    have hrouteId : route.id = routeId := eq_of_beq (List.find?_some hfind :)
    exact ⟨route, List.mem_of_find?_eq_some hfind, hrouteId ▸ hid, hd⟩
  refine ⟨fun route hr orderId hd ↦ ?_, hnames, hwaiting⟩
  obtain ⟨stop, hs, hid, hkind⟩ := delivers_iff.mp hd
  obtain ⟨membership, hm, hmid, hassigned⟩ := hmembered.stops route hr stop hs
  obtain ⟨own, hown, hnamed, hdelivers⟩ := hnames membership hm hassigned
  refine ⟨membership, hm, hmid.trans hid, ?_⟩
  rcases honce orderId with hone | hagain
  · rw [hmid, hid] at hdelivers
    have hsame : own = route :=
      eq_of_key_eq hplan.vehicles hown hr (hone own hown route hr hdelivers hd)
    rw [hnamed, hsame]
  · -- A COMPLETED delivery has completed its order, for which another one waits.
    obtain ⟨done, hdone, other, ho, hoid, hokind, hcompleted⟩ := hagain.done
    obtain ⟨late, hlate, next, hn, hnid, hnkind, hopen⟩ := hagain.waiting
    have hdelivered := hplan.executed.delivered done hdone other ho hokind hcompleted
    refine absurd ?_ (hwaiting next (mem_waitingDeliveries.mpr ⟨late, hlate, hn, hnkind, hopen⟩))
    rw [hnid, ← hoid]
    exact hdelivered

/-! ### Transactions -/

private theorem delivered_of_map
    (h : db'.orders.map (fun order ↦ (order.id, order.executionStatus)) =
      db.orders.map fun order ↦ (order.id, order.executionStatus))
    (hd : Delivered db' orderId) : Delivered db orderId := by
  obtain ⟨order', ho', hdone⟩ := hd
  have hstatus := order?_of_map_eq h orderId
  rw [ho', Option.map_some, hdone] at hstatus
  exact Option.map_eq_some_iff.mp hstatus.symm

private theorem delivered_of_shiftRisks {thresholdSeconds : Int}
    {context : MerchantIncidentContext} {shifted : DeliveryPlan}
    (h : db'.orders =
      shiftRisks thresholdSeconds context shifted db.orders)
    (hd : Delivered db' orderId) : Delivered db orderId := by
  refine delivered_of_map ?_ hd
  rw [h]
  exact map_shiftRisks _ _ _ (fun _ _ ↦ rfl) _

private theorem delivered_of_advanced {advancedId : UUID} {target : OrderExecutionStatus}
    (h : Resources.advanceExecution db advancedId target = .ok db')
    (hd : Delivered db' orderId) : Delivered db orderId ∨ orderId = advancedId ∧
      target = .completed ∧
      (db.order? advancedId).any (·.executionStatus == .delivering) = true := by
  obtain rfl | ⟨order, ho, hnext, rfl⟩ := Resources.advanceExecution_ok h
  · exact .inl hd
  · obtain ⟨order', ho', hdone⟩ := hd
    have hfind := @find?_updateWhere _ db.orders (·.id == advancedId)
      (fun order ↦ { order with executionStatus := target }) (·.id == orderId) fun _ ↦ rfl
    rw [Database.order?, Database.updateOrder, hfind] at ho'
    obtain ⟨row, hrow, hsame⟩ := Option.map_eq_some_iff.mp ho'
    split at hsame
    · next hid =>
      have hown : row.id = orderId := eq_of_beq (List.find?_some hrow :)
      have htarget : target = .completed := by
        rw [← hsame] at hdone
        exact hdone
      subst htarget
      refine .inr ⟨hown.symm.trans (eq_of_beq hid), rfl, ?_⟩
      rw [ho, Option.any_some]
      revert hnext
      cases order.executionStatus <;> exact fun hn ↦ by first | rfl | cases hn
    · exact .inl ⟨row, hrow, hsame ▸ hdone⟩

/-- What holds of the plans of a run: all are in order and membered and deliver once or again, and
the CURRENT ones are matched. -/
structure RiskOk (s : SysState) : Prop where
  lifecycle : LifecycleOk s
  plans : ∀ plan ∈ s.db.plans, PlanOk s.db plan
  membered : ∀ plan ∈ s.db.plans, Membered s.db plan
  once : ∀ plan ∈ s.db.plans, DeliversOnce plan
  matched : ∀ plan ∈ s.db.plans, plan.status = .current → Matched s.db plan

/-- A transaction leaves matched plans in force where no order is completed without its delivery. -/
theorem RiskOk.matched_effect (h : RiskOk s) (he : Effect settings s.db action db')
    (hadvance : ∀ orderId, action = .advanceExecution orderId .completed →
      (s.db.order? orderId).any (·.executionStatus == .delivering) = true →
        ∀ plan ∈ s.db.plans, plan.status = .current → ∀ stop ∈ waitingDeliveries plan,
          stop.orderId ≠ orderId)
    (happrove : ∀ services recoveryId reason now,
      action = .decide services recoveryId .approve reason now →
        ∀ candidate ∈ candidateOf? s.db recoveryId, ∀ stop ∈ waitingDeliveries candidate,
          ¬ Delivered s.db stop.orderId) :
    ∀ plan ∈ db'.plans, plan.status = .current → Matched db' plan := by
  have hkeep : db'.plans = s.db.plans → (∀ orderId, Delivered db' orderId →
      Delivered s.db orderId) → ∀ plan ∈ db'.plans, plan.status = .current → Matched db' plan := by
    intro hplans hdelivered plan hp hs
    rw [hplans] at hp
    have hold := h.matched plan hp hs
    exact hold.of_layout rfl rfl fun stop hstop hd ↦ hold.waiting stop hstop (hdelivered _ hd)
  cases he with
  | idle => exact h.matched
  | moved hcall hc =>
    intro plan' hp hs
    rw [plans_applyTransition] at hp
    obtain ⟨plan, hplan, rfl⟩ := List.mem_map.mp hp
    have hcurrent : plan.status = .current := by
      rw [movedPlan] at hs
      split at hs <;> exact hs
    refine (h.matched plan hplan hcurrent).of_layout layout_movedPlan ?_
      (waiting_movedPlan h.lifecycle.sound h.plans h.membered h.matched hc hplan hcurrent)
    rw [movedPlan]
    split <;> rfl
  | @advanced advancedId target _ ha =>
    have hplans : db'.plans = s.db.plans := by
      obtain rfl | ⟨order, -, -, rfl⟩ := Resources.advanceExecution_ok ha <;> rfl
    intro plan hp hs
    rw [hplans] at hp
    have hold := h.matched plan hp hs
    refine hold.of_layout rfl rfl fun stop hstop hd ↦ ?_
    rcases delivered_of_advanced ha hd with hbefore | ⟨hid, rfl, hdelivering⟩
    · exact hold.waiting stop hstop hbefore
    · exact hadvance advancedId rfl hdelivering plan hp hs stop hstop hid
  | flagged riskOf =>
    refine hkeep rfl fun orderId hd ↦ delivered_of_map ?_ hd
    rw [List.map_map]
    rfl
  | reported hr =>
    obtain ⟨context, locationId, -, -, -, -, rfl⟩ := VehicleIncidentWorkflow.reportUnavailable_ok hr
    exact hkeep rfl fun _ hd ↦ hd
  | delayed hd =>
    rcases assessDelay_ok hd with
      rfl | ⟨context, incident, -, -, -, -, -, rfl | rfl⟩
    · exact h.matched
    · exact hkeep rfl fun _ hd ↦ hd
    · intro plan' hp hs
      obtain ⟨plan, hplan, ⟨-, rfl⟩ | ⟨-, rfl⟩⟩ := mem_updateWhere.mp hp
      · have hold := h.matched plan hplan hs
        refine hold.of_layout ?_ rfl fun stop' hstop hd ↦ ?_
        · exact map_routes_shiftPlan (f := (·.fixed))
            (g := fun route stops ↦ (route.id, route.vehicleId, stops)) (fun _ _ _ ↦ rfl)
            (fun _ _ _ ↦ rfl) _ _ plan
        · obtain ⟨route', hr, hs', hkind, hopen⟩ := mem_waitingDeliveries.mp hstop
          obtain ⟨route, hroute, stop, hstop, hid, hsame, hstatus⟩ :=
            exists_of_stopKeys (stopKeys_shiftPlan context _ plan).symm hr hs'
          refine hold.waiting stop (mem_waitingDeliveries.mpr ⟨route, hroute, hstop, ?_, ?_⟩) ?_
          · exact hsame.trans hkind
          · exact hstatus ▸ hopen
          · exact hid ▸ delivered_of_shiftRisks rfl hd
      · have hold := h.matched _ hplan hs
        refine hold.of_layout rfl rfl fun stop hstop hd ↦ hold.waiting stop hstop ?_
        exact delivered_of_shiftRisks rfl hd
  | planned _ plans _ current =>
    intro plan hp hs
    have hold := h.matched plan ((current plan hs).mp hp) hs
    refine hold.of_layout rfl rfl fun stop hstop hd ↦ hold.waiting stop hstop ?_
    exact delivered_of_map (by rw [plans.orders]) hd
  | @approved services recoveryId reason now reviewable hlocked facts schedule =>
    have horders := (applyApproval_plans s.db reviewable).orders
    intro plan hp hs
    rcases (applyApproval_current h.lifecycle.sound hlocked plan hs).mp hp with rfl | ⟨hold, -⟩
    · have hmem := (plan?_mem hlocked.candidate).1
      have hcandidate : candidateOf? s.db recoveryId = some reviewable.candidate := by
        rw [candidateOf?, hlocked.recovery, Option.bind_some, hlocked.candidateId,
          Option.bind_some, hlocked.candidate]
      have hwaiting := happrove services recoveryId reason now rfl _ hcandidate
      have hmatched := matched_of_approved hlocked (h.plans _ hmem) (h.membered _ hmem)
        (h.once _ hmem) hwaiting
      refine hmatched.of_layout rfl rfl fun stop hstop hd ↦ hmatched.waiting stop hstop ?_
      exact delivered_of_map (by rw [horders]) hd
    · have hmatched := h.matched plan hold hs
      refine hmatched.of_layout rfl rfl fun stop hstop hd ↦ hmatched.waiting stop hstop ?_
      exact delivered_of_map (by rw [horders]) hd

/-! ### Runs -/

/-- The plans of a fitted draft are in order and matched. -/
theorem Fitted.riskOk (h : Fitted s) : RiskOk s := by
  have hnamed : ∀ plan ∈ s.db.plans, DeliveriesNamed plan := by
    intro plan hp route hr orderId hd
    obtain ⟨stop, hs, hid, -⟩ := delivers_iff.mp hd
    obtain ⟨membership, hm, hmid⟩ := List.mem_map.mp (h.members plan hp route hr stop hs)
    refine ⟨membership, hm, hmid.trans hid, ?_⟩
    have hholds : route.holds membership.orderId = true :=
      List.contains_iff_mem.mpr (List.mem_map.mpr ⟨stop, hs, hmid.symm⟩)
    rcases h.fits plan hp membership hm with ⟨-, own, -, hnames, -, honly⟩ | ⟨-, -, -, hnone⟩
    · rw [hnames, honly route hr hholds]
    · rw [hnone route hr] at hholds
      cases hholds
  refine ⟨.initial h.drafted.initial, fun plan hp ↦ h.drafted.planOk hp,
    fun plan hp ↦ h.membered hp, fun plan hp orderId ↦ .inl ?_, fun plan hp _ ↦
      ⟨hnamed plan hp, fun membership hm hassigned ↦ ?_, fun stop hstop hdelivered ↦ ?_⟩⟩
  · exact oneDeliverer_of_named (hnamed plan hp) (h.drafted.planOk hp) (h.membered hp) orderId
  · rcases h.fits plan hp membership hm with ⟨-, own, hown, hnames, hboth, -⟩ | ⟨hun, -⟩
    · obtain ⟨-, -, delivery, hd, -, -, hid, hkind⟩ := hboth
      exact ⟨own, hown, hnames, delivers_iff.mpr ⟨delivery, hd, hid, hkind⟩⟩
    · rw [hun] at hassigned
      cases hassigned
  · obtain ⟨route, hr, hs, -⟩ := mem_waitingDeliveries.mp hstop
    obtain ⟨membership, hm, hid⟩ := List.mem_map.mp (h.members plan hp route hr stop hs)
    obtain ⟨order, ho, -, hplanned⟩ := h.orders plan hp membership hm
    obtain ⟨order', ho', hdone⟩ := hdelivered
    rw [← hid, ho, Option.some.injEq] at ho'
    rw [← ho', hplanned] at hdone
    cases hdone

/-- A step that completes orders by their deliveries only keeps all this. -/
theorem RiskOk.apply (h : RiskOk s) (hstep : CompletesByDelivery settings s action) :
    RiskOk (s.apply settings action) := by
  have heffect : Effect settings s.db action (s.apply settings action).db :=
    h.lifecycle.effect settings action
  have hids := h.lifecycle.sound.planIds
  refine ⟨h.lifecycle.apply settings action, plansOk_effect hids h.plans heffect,
    membered_effect h.membered heffect,
    deliversOnce_apply hids h.plans h.membered h.matched h.once, ?_⟩
  by_cases happlied : (s.apply settings action).db = s.db
  · rw [happlied]
    exact h.matched
  refine h.matched_effect heffect (fun orderId ha ↦ ?_) fun services recoveryId reason now ha ↦ ?_
  · subst ha
    exact hstep
  · subst ha
    have hok : (Decisions.decide services settings.fingerprint s.db recoveryId .approve reason
        now).toOption.isSome = true := by
      cases hd : Decisions.decide services settings.fingerprint s.db recoveryId .approve reason
          now with
      | ok db => rfl
      | error error =>
        refine absurd ?_ happlied
        rw [SysState.apply, hd]
        rfl
    rintro candidate hc stop hstop ⟨order, ho, hdone⟩
    exact hstep hok candidate hc stop hstop order ho hdone

/-- A run from a fitted draft in which orders are completed by their deliveries. -/
abbrev CompletingRun (settings : Settings) : SysState → Prop :=
  Reachable (SysState.apply settings) Fitted (CompletesByDelivery settings)

/-- Every assigned order of a CURRENT plan has its one delivery. -/
theorem RiskOk.deliveredAs (h : RiskOk s) (hp : plan ∈ s.db.plans) (hs : plan.status = .current)
    {membership : DeliveryPlanOrder} (hm : membership ∈ plan.planOrders)
    (hassigned : membership.assignmentStatus = .assigned) :
    ∃ route delivery order, DeliveredAs s.db plan membership route delivery order := by
  have hmatched := h.matched plan hp hs
  obtain ⟨order, ho, -⟩ := (h.membered plan hp).dated membership hm
  obtain ⟨route, hr, hnamed, hd⟩ := hmatched.delivered membership hm hassigned
  obtain ⟨delivery, hdelivery, hid, hkind⟩ := delivers_iff.mp hd
  refine ⟨route, delivery, order, ho, hassigned, hr, hnamed, hdelivery, hid, hkind,
    fun other hother stop hstop hsid hskind ↦ ?_, ?_⟩
  · exact delivery_unique (h.plans plan hp) (h.membered plan hp) hmatched.named hother hr hstop
      hdelivery hskind hkind (hsid.trans hid.symm)
  · constructor
    · intro hdone
      obtain ⟨order', ho', hcompleted⟩ :=
        (h.plans plan hp).executed.delivered route hr delivery hdelivery hkind hdone
      rw [hid, ho, Option.some.injEq] at ho'
      rw [ho', hcompleted]
    · intro hcompleted
      by_contra hopen
      refine hmatched.waiting delivery
        (mem_waitingDeliveries.mpr ⟨route, hr, hdelivery, hkind, hopen⟩) ⟨order, ?_, hcompleted⟩
      rw [hid, ho]

/-- In every state of a run in which orders are completed by their deliveries, and at every time:
`recalculate_route`, an evaluation of alerts, the order views and the route views have one verdict
on every assigned order of a CURRENT plan. -/
theorem risk_computations_agree (h : CompletingRun settings s) {businessDate : BusinessDate}
    (hplan : s.db.currentPlan? businessDate = some plan) {membership : DeliveryPlanOrder}
    (hm : membership ∈ plan.planOrders) (hassigned : membership.assignmentStatus = .assigned)
    (now : Instant) :
    ∃ status, Verdict settings.thresholdSeconds s.db plan now membership status := by
  have hall : RiskOk s :=
    Reachable.invariant (I := RiskOk) (fun s hs ↦ hs.riskOk) (fun s a hs ha ↦ hs.apply ha) h
  obtain ⟨hp, hdate, hs⟩ := currentPlan?_mem hplan
  obtain ⟨route, delivery, order, hdelivered⟩ := hall.deliveredAs hp hs hm hassigned
  exact ⟨_, hdelivered.agrees (hall.plans plan hp).executed.routeIds
    (hall.membered plan hp).onePerOrder hm (hdate ▸ hplan) _ now⟩

/-! ### Two orders -/

/-- The delay scenario fits. -/
theorem delayStart_fitted : Fitted delayStart where
  drafted := by
    refine ⟨⟨rfl, rfl, rfl, rfl, rfl, rfl, rfl, by decide, by decide, by decide⟩, ?_,
      by decide +kernel, by decide, by decide⟩
    intro plan hp
    rw [List.mem_singleton.mp hp]
    exact ⟨by decide, by decide, by decide, by decide⟩
  orders := by
    have hrows : ∀ plan ∈ delayStart.db.plans, ∀ membership ∈ plan.planOrders,
        (delayStart.db.order? membership.orderId).any fun order ↦
          order.businessDate == plan.businessDate && order.executionStatus == .planned := by
      decide
    intro plan hp membership hm
    obtain ⟨order, ho, hrow⟩ := (Option.any_eq_true _ _).mp (hrows plan hp membership hm)
    rw [Bool.and_eq_true, beq_iff_eq, beq_iff_eq] at hrow
    exact ⟨order, ho, hrow⟩
  members := by decide
  fits := by
    have hrows : ∀ plan ∈ delayStart.db.plans, ∀ membership ∈ plan.planOrders,
        membership.assignmentStatus = .assigned ∧ ∃ route ∈ plan.routes,
          membership.vehicleRouteId = some route.id ∧
            (∃ origin ∈ route.stops, ∃ delivery ∈ route.stops,
              origin.orderId = membership.orderId ∧ origin.stopType ≠ .delivery ∧
                delivery.orderId = membership.orderId ∧ delivery.stopType = .delivery) ∧
            ∀ other ∈ plan.routes, other.holds membership.orderId = true → other = route := by
      decide
    exact fun plan hp membership hm ↦ .inl (hrows plan hp membership hm)

/-- The state before the approval of the first candidate. -/
def proposedState : SysState :=
  approveOneOfTwo.dropLast.foldl (SysState.apply scenarioSettings) delayStart

private theorem completesByDelivery_approve {services : Services} {recoveryId : UUID}
    {reason : String} {now : Instant}
    (h : ∀ candidate ∈ candidateOf? s.db recoveryId, ∀ stop ∈ waitingDeliveries candidate,
      ∀ order ∈ s.db.order? stop.orderId, order.executionStatus ≠ .completed) :
    CompletesByDelivery settings s (.decide services recoveryId .approve reason now) :=
  fun _ ↦ h

/-- The stranding scenario is a run of completions. -/
theorem strandedState_completing : CompletingRun scenarioSettings strandedState := by
  have hproposed : CompletingRun scenarioSettings proposedState := by
    refine Reachable.run (.init delayStart_fitted) _ fun s action ha ↦ ?_
    simp only [approveOneOfTwo, List.dropLast, List.mem_cons, List.not_mem_nil, or_false] at ha
    rcases ha with rfl | rfl | rfl | rfl | rfl | rfl | rfl | rfl | rfl | rfl <;> trivial
  have happroved : strandedState = proposedState.apply scenarioSettings
      (.decide delayServices.toServices 102 .approve "approved" 120000000) := by
    have hlast : approveOneOfTwo = approveOneOfTwo.dropLast ++
        [.decide delayServices.toServices 102 .approve "approved" 120000000] := rfl
    rw [strandedState, hlast, List.foldl_concat]
    rfl
  rw [happroved]
  refine .step _ hproposed (completesByDelivery_approve ?_)
  decide +kernel

/-- The plan that the approval has put in force. -/
def approvedPlan : DeliveryPlan :=
  (strandedState.db.currentPlan? 738000).get (by decide +kernel)

/-- After the approval all computations agree on the order of vehicle 20, and it is late. -/
theorem risk_computations_agree_approved :
    strandedState.db.currentPlan? 738000 = some approvedPlan ∧ approvedPlan.versionNo = 2 ∧
      (∃ status, Verdict 600 strandedState.db approvedPlan 10000000000
        (approvedPlan.planOrders.head (by decide +kernel)) status) ∧
      (OperationsQueryService.orderViews 600 strandedState.db approvedPlan 10000000000).map
        (fun view ↦ (view.orderId, view.riskStatus)) = [(31, .atRisk), (32, .atRisk)] := by
  have hplan : strandedState.db.currentPlan? 738000 = some approvedPlan := by
    rw [approvedPlan, Option.some_get]
  refine ⟨hplan, by decide +kernel, ?_, by decide +kernel⟩
  exact risk_computations_agree strandedState_completing hplan (List.head_mem _)
    (by decide +kernel) 10000000000

/-- The driver of vehicle 20 delivers the order without reporting a stop, and the dispatcher
advances it by hand. -/
def advanceByHand : List Action :=
  [.advanceExecution 31 .pickupInProgress, .advanceExecution 31 .pickedUp,
    .advanceExecution 31 .delivering, .advanceExecution 31 .completed]

/-- The state after that. -/
def advancedState : SysState := advanceByHand.foldl (SysState.apply scenarioSettings) delayStart

/-- The plan of that state. -/
def advancedPlan : DeliveryPlan :=
  (advancedState.db.currentPlan? 738000).get (by decide +kernel)

/-- For an order that is COMPLETED without its delivery, the stored flag is AT_RISK and the view
is NORMAL. -/
theorem risk_computations_disagree :
    Reachable (SysState.apply scenarioSettings) Fitted (fun _ _ ↦ True) advancedState ∧
      advancedState.db.currentPlan? 738000 = some advancedPlan ∧
      ∃ membership ∈ advancedPlan.planOrders, membership.assignmentStatus = .assigned ∧
        ∀ status, ¬ Verdict 600 advancedState.db advancedPlan 10000000000 membership status := by
  have hplan : advancedState.db.currentPlan? 738000 = some advancedPlan := by
    rw [advancedPlan, Option.some_get]
  refine ⟨.run (.init delayStart_fitted) _ fun _ _ _ ↦ trivial, hplan,
    ⟨31, .assigned, some 42, none, none⟩, by decide +kernel, rfl, fun status h ↦ ?_⟩
  have hflags : ∀ route ∈ advancedPlan.routes, some 42 = some route.id →
      ((RiskService.recalculateRoute 600 route.stops 10000000000 advancedState.db.orders).find?
        (·.id == 31)).map (·.riskStatus) = some .atRisk := by
    decide +kernel
  have hviews : ∀ view ∈
      OperationsQueryService.orderViews 600 advancedState.db advancedPlan 10000000000,
      view.orderId = 31 → view.riskStatus = .normal := by
    decide +kernel
  obtain ⟨route, hr, hnamed, hflag⟩ := h.recalculated
  obtain ⟨⟨view, hv, hid⟩, hall⟩ := h.viewed
  have hstatus := hall view hv hid
  rw [hviews view hv hid] at hstatus
  rw [hflags route hr hnamed, ← hstatus] at hflag
  cases hflag

end PenroseRoute.System
