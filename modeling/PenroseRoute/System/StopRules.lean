import PenroseRoute.System.Growth
import PenroseRoute.System.Stranding

/-!
# Stop rules over runs

Every plan of a run is executed in order and its stops meet the stop rules, each delivery behind
its origin on its route: the planner leaves them so, the database checks a candidate when it is
written, and nothing that happens later touches what the rules are about.
-/

namespace PenroseRoute.System

open PenroseRoute.Db PenroseRoute.Lib PenroseRoute.Operations PenroseRoute.Recovery
open PenroseRoute.Incidents PenroseRoute.Lifecycle PenroseRoute.Optimization
open StopExecutionService

/-- A plan that is executed in order and whose stops meet the stop rules route by route. -/
structure PlanOk (db : Database) (plan : DeliveryPlan) : Prop where
  executed : plan.Executed db
  vehicles : (plan.routes.map (·.vehicleId)).Nodup
  linked : ∀ route ∈ plan.routes, route.WellLinked db

/-- A run before any execution: the plans are as the planner left them, meet the constraints of
the database, and link every delivery to a stop of its own route. -/
structure Drafted (s : SysState) : Prop where
  initial : s.Initial
  untouched : ∀ plan ∈ s.db.plans, plan.Untouched
  constraints : ∀ plan ∈ s.db.plans, plan.constraintsHold s.db = true
  stopIds : ∀ plan ∈ s.db.plans, ((plan.routes.flatMap (·.stops)).map (·.id)).Nodup
  origins : ∀ plan ∈ s.db.plans, ∀ route ∈ plan.routes, ∀ stop ∈ route.stops,
    ∀ id ∈ stop.precedenceStopId, ∃ origin ∈ route.stops, origin.id = id

variable {settings : Settings} {s : SysState} {action : Action} {db db' : Database}
  {plan plan' : DeliveryPlan}

/-! ### What the constraints say -/

/-- A route that meets the column checks has one stop of a kind for an order. -/
theorem once_of_checks {route : VehicleRoute} (h : route.checks = true) :
    (route.stops.map fun stop ↦ (stop.orderId, stop.stopType)).Nodup := by
  simp only [VehicleRoute.checks, Bool.and_eq_true, decide_eq_true_eq] at h
  exact h.1.1.2

/-- Its deliveries and nothing else have a precedence. -/
theorem precedence_of_checks {route : VehicleRoute} (h : route.checks = true) {stop : RouteStop}
    (hs : stop ∈ route.stops) : (stop.stopType == .delivery) = stop.precedenceStopId.isSome := by
  simp only [VehicleRoute.checks, Bool.and_eq_true, List.all_eq_true] at h
  have hstop := h.2 stop hs
  simp only [RouteStop.checks, Bool.and_eq_true, beq_iff_eq] at hstop
  exact hstop.1.1.2

/-- The trigger checks the place of a stop. -/
theorem located_of_relationshipsValid {stop : RouteStop}
    (h : stop.relationshipsValid db plan = true) :
    stop.expectedLocation? db = some stop.locationId := by
  rw [RouteStop.relationshipsValid, Bool.and_eq_true] at h
  have hplace := h.2
  rw [RouteStop.expectedLocation?]
  cases ht : stop.stopType with
  | pickup =>
    rw [ht] at hplace
    obtain ⟨order, ho, he⟩ := (Option.any_eq_true _ _).mp hplace
    dsimp only
    rw [ho, Option.map_some, eq_of_beq he]
  | delivery =>
    rw [ht] at hplace
    obtain ⟨order, ho, he⟩ := (Option.any_eq_true _ _).mp hplace
    dsimp only
    rw [ho, Option.map_some, eq_of_beq he]
  | handover =>
    rw [ht] at hplace
    exact eq_of_beq hplace

/-- It finds the origin of a delivery in the plan. -/
theorem preceding_of_relationshipsValid {stop : RouteStop}
    (h : stop.relationshipsValid db plan = true) (hd : stop.stopType = .delivery) :
    ∃ preceding, stop.precedenceStopId.bind plan.stop? = some preceding ∧
      preceding.orderId = stop.orderId ∧ preceding.stopType ≠ .delivery ∧
        preceding.sequenceNo < stop.sequenceNo := by
  rw [RouteStop.relationshipsValid, Bool.and_eq_true, hd, bne_self_eq_false, Bool.false_or] at h
  obtain ⟨preceding, hp, he⟩ := (Option.any_eq_true _ _).mp h.1
  rw [Bool.and_eq_true, Bool.and_eq_true, beq_iff_eq, bne_iff_ne, decide_eq_true_eq] at he
  exact ⟨preceding, hp, he.1.1, he.1.2, he.2⟩

/-- A plan of a draft is in order. -/
theorem Drafted.planOk (h : Drafted s) (hp : plan ∈ s.db.plans) : PlanOk s.db plan := by
  have huntouched := h.untouched plan hp
  have hids := h.stopIds plan hp
  obtain ⟨hchecks, hvehicles, -, -, htrigger⟩ :=
    (Created.constraints_iff s.db plan).mp (h.constraints plan hp)
  refine ⟨executed_of_untouched huntouched s.db, hvehicles, fun route hr ↦ ⟨?_, ?_, ?_⟩⟩
  · exact once_of_checks (hchecks route hr)
  · refine EachAfter.of_forall fun pre stop post he ↦ ?_
    have hs : stop ∈ route.stops := by
      rw [he]
      exact List.mem_append_right _ List.mem_cons_self
    have hprecedence := precedence_of_checks (hchecks route hr) hs
    rw [List.nil_append, OriginBefore]
    split
    · next hd =>
      obtain ⟨origin, hfound, horder, htype, hlt⟩ :=
        preceding_of_relationshipsValid (htrigger route hr stop hs) hd
      obtain ⟨id, hid, hfind⟩ := Option.bind_eq_some_iff.mp hfound
      obtain ⟨own, hown, hownId⟩ := h.origins plan hp route hr stop hs id hid
      have hsame : own = origin := by
        obtain ⟨hmem, horiginId⟩ := (find?_key_eq_some_iff hids).mp hfind
        exact eq_of_key_eq hids (List.mem_flatMap.mpr ⟨route, hr, hown⟩) hmem
          (hownId.trans horiginId.symm)
      subst hsame
      have hsorted := huntouched.sorted route hr
      rw [he] at hown hsorted
      rw [List.pairwise_append, List.pairwise_cons] at hsorted
      refine ⟨own, ?_, by rw [hid, hownId], horder, htype⟩
      rcases List.mem_append.mp hown with hpre | hpost
      · exact hpre
      · rcases List.mem_cons.mp hpost with rfl | hpost
        · exact absurd hlt (Nat.lt_irrefl _)
        · exact absurd (hsorted.2.1.1 own hpost) (Nat.lt_asymm hlt)
    · next hd =>
      rw [beq_false_of_ne hd] at hprecedence
      exact Option.isSome_eq_false_iff.mp hprecedence.symm |> Option.isNone_iff_eq_none.mp
  · exact fun stop hs ↦ located_of_relationshipsValid (htrigger route hr stop hs)

/-! ### What stays of a plan -/

/-- What is fixed of the stops of a route is all that the rules are about. -/
theorem wellLinked_of_fixed {route route' : VehicleRoute} (h : route.WellLinked db)
    (grows : Grows db db') (he : route'.stops.map (·.fixed) = route.stops.map (·.fixed)) :
    route'.WellLinked db' := by
  have hmap : ∀ {α : Type} {f : RouteStop → α}, (∀ stop, f stop.fixed = f stop) →
      route'.stops.map f = route.stops.map f := by
    intro α f hf
    have hcomp := congrArg (List.map f) he
    rwa [List.map_map, List.map_map, show f ∘ (·.fixed) = f from funext hf] at hcomp
  refine ⟨?_, h.linked.congr ?_ rfl he, fun stop' hs ↦ ?_⟩
  · rw [hmap fun _ ↦ rfl]
    exact h.once
  · intro before before' stop stop' hbefore hstop hok
    have hfield : ∀ {α : Type} {f : RouteStop → α}, (∀ stop, f stop.fixed = f stop) →
        ∀ {a b : RouteStop}, a.fixed = b.fixed → f a = f b := by
      intro α f hf a b hab
      rw [← hf a, ← hf b, hab]
    rw [OriginBefore] at hok ⊢
    rw [hfield (f := (·.stopType)) (fun _ ↦ rfl) hstop,
      hfield (f := (·.precedenceStopId)) (fun _ ↦ rfl) hstop,
      hfield (f := (·.orderId)) (fun _ ↦ rfl) hstop]
    split at hok
    · next hd =>
      rw [if_pos hd]
      obtain ⟨origin, ho, hlink, horder, htype⟩ := hok
      have hmem : origin.fixed ∈ before'.map (·.fixed) := by
        rw [hbefore]
        exact List.mem_map_of_mem ho
      obtain ⟨origin', ho', hsame⟩ := List.mem_map.mp hmem
      refine ⟨origin', ho', ?_, ?_, ?_⟩
      · rw [hfield (f := (·.id)) (fun _ ↦ rfl) hsame]
        exact hlink
      · rw [hfield (f := (·.orderId)) (fun _ ↦ rfl) hsame]
        exact horder
      · rw [hfield (f := (·.stopType)) (fun _ ↦ rfl) hsame]
        exact htype
    · next hd =>
      rw [if_neg hd]
      exact hok
  · have hmem : stop'.fixed ∈ route.stops.map (·.fixed) := by
      rw [← he]
      exact List.mem_map_of_mem hs
    obtain ⟨stop, hstop, hsame⟩ := List.mem_map.mp hmem
    have hplace := grows.expectedLocation? (h.located stop hstop)
    have hexpected : stop'.expectedLocation? db' = stop.expectedLocation? db' :=
      (congrArg (RouteStop.expectedLocation? db') hsame.symm :)
    rw [hexpected, hplace]
    exact congrArg some (congrArg RouteStop.locationId hsame :)

/-- A plan with the layout of one that is in order is in order where it is executed in order. -/
theorem PlanOk.of_layout (h : PlanOk db plan) (grows : Grows db db')
    (hlayout : plan'.layout = plan.layout) (hexecuted : plan'.Executed db') : PlanOk db' plan' := by
  refine ⟨hexecuted, ?_, fun route' hr ↦ ?_⟩
  · have hvehicles := congrArg (List.map fun entry ↦ entry.2.1) hlayout
    rw [DeliveryPlan.layout, DeliveryPlan.layout, List.map_map, List.map_map] at hvehicles
    have hsame : plan'.routes.map (·.vehicleId) = plan.routes.map (·.vehicleId) := hvehicles
    rw [hsame]
    exact h.vehicles
  · have hmem : (route'.id, route'.vehicleId, route'.stops.map (·.fixed)) ∈ plan.layout := by
      rw [← hlayout]
      exact List.mem_map.mpr ⟨route', hr, rfl⟩
    obtain ⟨route, hroute, he⟩ := List.mem_map.mp hmem
    rw [Prod.mk.injEq, Prod.mk.injEq] at he
    exact wellLinked_of_fixed (h.linked route hroute) grows he.2.2.symm

/-- Plans with the same work have the same layout, but for the vehicles. -/
theorem PlanOk.of_routes (h : PlanOk db plan) (grows : Grows db db')
    (hroutes : plan'.routes = plan.routes) : PlanOk db' plan' := by
  refine h.of_layout grows ?_ (executed_of_work h.executed ?_ grows.forward)
  · rw [DeliveryPlan.layout, hroutes]
    rfl
  · rw [DeliveryPlan.work, hroutes]
    rfl

/-- A transition keeps the layout of every plan. -/
theorem layout_movedPlan {base : DeliveryPlan} {route : VehicleRoute} {stop : RouteStop}
    {target : StopStatus} {eventTime : Instant} :
    (movedPlan base route stop target eventTime plan).layout = plan.layout :=
  map_routes_movedPlan (f := (·.fixed)) (g := fun route stops ↦ (route.id, route.vehicleId, stops))
    (fun _ _ _ _ ↦ rfl) (fun _ _ _ _ _ _ ↦ rfl) target

/-- A candidate that a run has made is in order. -/
theorem planOk_of_made {incidentId : UUID} {context : RecoveryContext} {result : SolverResult}
    {candidate : DeliveryPlan} (h : Made db incidentId context result candidate)
    (hplans : ∀ plan ∈ db.plans, PlanOk db plan) (grows : Grows db db') :
    PlanOk db' candidate := by
  obtain ⟨incident, base, -, hb, hread⟩ := materializeRecoveryContext_ok h.read
  obtain ⟨db₀, hcreated, -, horders, hincidents⟩ := h.created
  have hbase := hplans base (plan?_mem hb).1
  obtain ⟨hchecks, -, -, -, htrigger⟩ :=
    (Created.constraints_iff db₀ candidate).mp hcreated.constraints
  obtain ⟨roads, hpersisted⟩ := hcreated.persisted
  have hlinked := persistRoutes_linked hpersisted fun task ht ↦
    have hkept := keptWell hread hbase.executed.routes hbase.linked ht
    ⟨hkept.ids, hkept.linked⟩
  refine ⟨hcreated.executed hread hbase.executed grows.forward, hcreated.vehicles_nodup,
    fun route hr ↦ ⟨once_of_checks (hchecks route hr), hlinked route hr, fun stop hs ↦ ?_⟩⟩
  have hplace := located_of_relationshipsValid (htrigger route hr stop hs)
  refine grows.expectedLocation? ?_
  have hsame : stop.expectedLocation? db = stop.expectedLocation? db₀ := by
    rw [RouteStop.expectedLocation?, RouteStop.expectedLocation?, Database.order?,
      Database.order?, horders]
    have hincident : db.incident? = db₀.incident? := by
      funext id
      rw [Database.incident?, Database.incident?, hincidents]
    rw [hincident]
  rw [hsame]
  exact hplace

/-! ### Runs -/

/-- Every transaction leaves plans in order. -/
theorem plansOk_effect (hids : (db.plans.map (·.id)).Nodup)
    (h : ∀ plan ∈ db.plans, PlanOk db plan) (he : Effect settings db action db') :
    ∀ plan ∈ db'.plans, PlanOk db' plan := by
  have grows := he.grows
  have hbare : ∀ {added : List DeliveryPlan}, Plans db db' added →
      (∀ candidate ∈ added, PlanOk db' candidate) → ∀ plan ∈ db'.plans, PlanOk db' plan := by
    intro added plans hadded plan' hp
    have hmem : plan'.bare ∈ (db.plans ++ added).map (·.bare) := by
      rw [← plans.plans]
      exact List.mem_map_of_mem hp
    obtain ⟨old, hold, hsame⟩ := List.mem_map.mp hmem
    have hroutes : plan'.routes = old.routes := (congrArg DeliveryPlan.routes hsame.symm :)
    rcases List.mem_append.mp hold with hold | hnew
    · exact (h old hold).of_routes grows hroutes
    · exact (hadded old hnew).of_routes (.refl db') hroutes
  cases he with
  | idle => exact h
  | moved hcall hc =>
    intro plan' hp
    rw [plans_applyTransition] at hp
    obtain ⟨plan, hplan, rfl⟩ := List.mem_map.mp hp
    exact (h plan hplan).of_layout grows layout_movedPlan
      (Checked.planExecuted hc hids hplan (h plan hplan).executed _)
  | advanced ha =>
    have hsame : db'.plans = db.plans := by
      obtain rfl | ⟨order, -, -, rfl⟩ := Resources.advanceExecution_ok ha <;> rfl
    rw [hsame]
    exact fun plan hp ↦ (h plan hp).of_routes grows rfl
  | flagged riskOf => exact fun plan hp ↦ (h plan hp).of_routes grows rfl
  | reported hr =>
    obtain ⟨context, locationId, -, -, -, -, rfl⟩ := VehicleIncidentWorkflow.reportUnavailable_ok hr
    exact fun plan hp ↦ (h plan hp).of_routes grows rfl
  | delayed hd =>
    rcases MerchantDelayWorkflow.assessDelay_ok hd with
      rfl | ⟨context, incident, -, -, -, -, -, rfl | rfl⟩
    · exact h
    · exact fun plan hp ↦ (h plan hp).of_routes grows rfl
    · intro plan' hp
      obtain ⟨plan, hplan, ⟨-, rfl⟩ | ⟨-, rfl⟩⟩ := mem_updateWhere.mp hp
      · refine (h plan hplan).of_layout grows ?_ ?_
        · exact MerchantDelayWorkflow.map_routes_shiftPlan (f := (·.fixed))
            (g := fun route stops ↦ (route.id, route.vehicleId, stops)) (fun _ _ _ ↦ rfl)
            (fun _ _ _ ↦ rfl) _ _ plan
        · refine executed_of_work (h plan hplan).executed ?_ grows.forward
          exact MerchantDelayWorkflow.map_routes_shiftPlan (f := (·.unscheduled))
            (g := fun route stops ↦ (route.id, stops)) (fun _ _ _ ↦ rfl) (fun _ _ _ ↦ rfl) _ _ plan
      · exact (h _ hplan).of_routes grows rfl
  | planned _ plans made _ =>
    refine hbare plans fun candidate hc ↦ ?_
    obtain ⟨incidentId, context, result, hmade⟩ := made candidate hc
    exact planOk_of_made hmade h grows
  | approved _ _ _ => exact hbare (applyApproval_plans _ _) fun _ hc ↦ by cases hc

/-- A run from a draft. -/
abbrev DraftedRun (settings : Settings) : SysState → Prop :=
  Reachable (SysState.apply settings) Drafted fun _ _ ↦ True

/-- In every state of a run from a draft, the lifecycle and all plans are in order. -/
theorem DraftedRun.ok (h : DraftedRun settings s) :
    LifecycleOk s ∧ ∀ plan ∈ s.db.plans, PlanOk s.db plan := by
  refine Reachable.invariant (I := fun s ↦ LifecycleOk s ∧ ∀ plan ∈ s.db.plans, PlanOk s.db plan)
    (fun s hs ↦ ⟨.initial hs.initial, fun plan hp ↦ hs.planOk hp⟩) ?_ h
  intro s a hs _
  have heffect : Effect settings s.db a (s.apply settings a).db := hs.1.effect settings a
  exact ⟨hs.1.apply settings a, plansOk_effect hs.1.sound.planIds hs.2 heffect⟩

/-- For every state of a run from a draft, every context read from it and every result that is
accepted for it: the stops that `_persist_candidate_routes` writes meet the stop rules exactly
when no solver route stops for an order as the base route of its vehicle does already with a
stop that is COMPLETED or on a route that is not rebuilt. -/
theorem candidate_stop_rules_iff (h : DraftedRun settings s) {incidentId : UUID}
    {scope : ReplanningScope} {operationalTime : Instant} {context : RecoveryContext}
    {matrix : RoutingMatrix} {input : SolverInput} {result : SolverResult} {roads : RoadRoutes}
    {nextId : Nat} {candidate : DeliveryPlan}
    (hread : materializeRecoveryContext s.db incidentId scope operationalTime = .ok context)
    (hinput : buildRecoverySolverInput context matrix = .ok input) (hacc : Accepted input result)
    (hp : persistCandidateRoutes context result roads nextId = .ok candidate.routes) :
    candidate.StopRules s.db ↔ NoRepeat context result := by
  obtain ⟨hlifecycle, hplans⟩ := h.ok
  obtain ⟨incident, base, hi, hb, hr⟩ := materializeRecoveryContext_ok hread
  have hbase := hplans base (plan?_mem hb).1
  have hid : incident.id = incidentId := eq_of_beq (List.find?_some hi :)
  rw [← hid] at hi
  exact persistCandidateRoutes_rules hi hr hbase.executed.routes hbase.linked hinput hacc hp

/-! ### An order that is delivered after the report -/

/-- Vehicle 20 has two orders of merchant 7, and nothing has started. -/
def laterStart : SysState := { delayStart with db := laterOrderDatabase }

/-- Merchant 7 reports its delay. -/
def reportDelay : List Action := [.assessDelay 738000 7 900000000 0 true]

/-- Vehicle 20 picks the first order up all the same and delivers it. -/
def deliverFirst : List Action :=
  [.arrive 53 60000000, .startService 53 60000000, .complete 53 90000000,
    .arrive 54 100000000, .startService 54 100000000, .complete 54 110000000]

/-- The state after the report. -/
def reportedState : SysState := reportDelay.foldl (SysState.apply scenarioSettings) laterStart

/-- The state after the delivery. -/
def deliveredState : SysState := deliverFirst.foldl (SysState.apply scenarioSettings) reportedState

/-- The later scenario begins with a draft. -/
theorem laterStart_drafted : Drafted laterStart where
  initial := ⟨rfl, rfl, rfl, rfl, rfl, rfl, rfl, by decide, by decide, by decide⟩
  untouched plan hp := by
    rw [List.mem_singleton.mp hp]
    exact ⟨by decide, by decide, by decide, by decide⟩
  constraints := by decide +kernel
  stopIds := by decide
  origins := by decide

/-- The reported state is a run from a draft. -/
theorem reportedState_run : DraftedRun scenarioSettings reportedState :=
  Reachable.run (.init laterStart_drafted) reportDelay fun _ _ _ ↦ trivial

/-- Before anything is delivered, the candidate meets the stop rules. -/
theorem reported_candidate_meets_rules :
    laterOrderCandidate.2.StopRules reportedState.db ∧
      laterOrderCandidate.2.routes.map (fun route ↦ route.stops.length) = [2, 4] := by
  have hread : materializeRecoveryContext reportedState.db 100 .affectedRoute 120000000 =
      .ok laterOrderContext := rfl
  have hinput : buildRecoverySolverInput laterOrderContext
      (uniformMatrix laterOrderContext.locations) = .ok laterOrderInput := rfl
  have hpersisted : persistCandidateRoutes laterOrderContext laterOrderResult none
      (laterOrderReported.nextId + 1) = .ok laterOrderCandidate.2.routes := rfl
  refine ⟨(candidate_stop_rules_iff reportedState_run hread hinput
    ⟨rfl, rfl, by decide +kernel⟩ hpersisted).mpr ?_, by decide +kernel⟩
  simp only [NoRepeat, Repeats]
  decide +kernel

/-- The context of the delay after the delivery: the delivered order is still a target. -/
def deliveredContext : RecoveryContext :=
  (materializeRecoveryContext deliveredState.db 100 .affectedRoute 120000000).toOption.get
    (by decide +kernel)

/-- The solver input of that context. -/
def deliveredInput : SolverInput :=
  (buildRecoverySolverInput deliveredContext
    (uniformMatrix deliveredContext.locations)).toOption.get (by decide +kernel)

/-- The routes that are made of it. -/
def deliveredRoutes : List VehicleRoute :=
  (persistCandidateRoutes deliveredContext laterOrderResult none
    (deliveredState.db.nextId + 1)).toOption.get (by decide +kernel)

/-- The plan with these routes. -/
def deliveredCandidate : DeliveryPlan :=
  candidatePlan deliveredState.db deliveredContext deliveredRoutes []

/-- The delivered order is planned again on the route that keeps its COMPLETED stops, and the
database refuses the candidate. -/
theorem delivered_order_breaks_rules :
    DraftedRun scenarioSettings deliveredState ∧
      materializeRecoveryContext deliveredState.db 100 .affectedRoute 120000000 =
        .ok deliveredContext ∧
      buildRecoverySolverInput deliveredContext (uniformMatrix deliveredContext.locations) =
        .ok deliveredInput ∧
      Accepted deliveredInput laterOrderResult ∧ laterOrderResult.NoEmptyRoute ∧
      persistCandidateRoutes deliveredContext laterOrderResult none
        (deliveredState.db.nextId + 1) = .ok deliveredRoutes ∧
      deliveredCandidate.routes = deliveredRoutes ∧
      createCandidate deliveredState.db deliveredContext laterOrderResult none =
        .error (.integrity "delivery_plans") ∧
      ¬ deliveredCandidate.StopRules deliveredState.db := by
  have hroutes : deliveredCandidate.routes = deliveredRoutes := by
    rw [deliveredCandidate, candidatePlan]
  refine ⟨Reachable.run reportedState_run deliverFirst fun _ _ _ ↦ trivial, eq_ok_get _,
    eq_ok_get _, ⟨rfl, rfl, by decide +kernel⟩, ?_, ?_, hroutes, ?_, fun h ↦ ?_⟩
  · intro route hr
    rw [List.mem_singleton.mp hr]
    decide
  · rw [deliveredRoutes]
    exact eq_ok_get _
  · decide +kernel
  · have hrepeated : ∃ route ∈ deliveredRoutes,
        ¬ (route.stops.map fun stop ↦ (stop.orderId, stop.stopType)).Nodup := by
      decide +kernel
    obtain ⟨route, hr, hn⟩ := hrepeated
    exact hn (h.once route (hroutes ▸ hr))

end PenroseRoute.System
