import PenroseRoute.System.StopRules

/-!
# Merchant delays that are known

A merchant reports new ready times during the day. A recovery reads the ready times of its
targets from their orders and from the one incident that it recovers, so it knows of a report
only when it is that of its own incident.
-/

namespace PenroseRoute.System

open PenroseRoute.Db PenroseRoute.Lib PenroseRoute.Operations PenroseRoute.Recovery
open PenroseRoute.Incidents PenroseRoute.Lifecycle PenroseRoute.Optimization

/-! ### Reports -/

/-- A ready time that a merchant has reported for a business date. -/
structure Report where
  businessDate : BusinessDate
  merchantId : UUID
  updatedReadyAt : Instant
  deriving DecidableEq, Repr

/-- The latest ready time that a merchant has reported for a date. -/
def latestReported (reports : List Report) (businessDate : BusinessDate) (merchantId : UUID) :
    Option Instant :=
  (reports.reverse.find? fun report ↦
    report.businessDate == businessDate && report.merchantId == merchantId).map (·.updatedReadyAt)

/-- A state with the reports that were accepted so far. -/
structure ReportedState where
  state : SysState
  reports : List Report

/-- The report of an action that was accepted, with or without an incident. -/
def acceptedReport (settings : Settings) (db : Database) : Action → List Report
  | .assessDelay businessDate merchantId updatedReadyAt eventTime explicitIncident =>
    match MerchantDelayWorkflow.assessDelay settings.thresholdSeconds db businessDate merchantId
      updatedReadyAt eventTime explicitIncident with
    | .ok _ => [{ businessDate, merchantId, updatedReadyAt }]
    | .error _ => []
  | _ => []

/-- One transaction with its report. -/
def applyReported (settings : Settings) (r : ReportedState) (action : Action) : ReportedState where
  state := r.state.apply settings action
  reports := r.reports ++ acceptedReport settings r.state.db action

/-- Before any incident and any report. -/
structure Unreported (r : ReportedState) : Prop where
  initial : r.state.Initial
  reports : r.reports = []

/-- A run with its reports. -/
abbrev ReportedRun (settings : Settings) : ReportedState → Prop :=
  Reachable (applyReported settings) Unreported fun _ _ ↦ True

/-! ### Handovers -/

/-- A handover is only asked for goods that were aboard. -/
def HandoversAboard (db : Database) : Prop :=
  ∀ incident ∈ db.incidents, ∀ item ∈ incident.affectedOrders, item.handoverRequired = true →
    ∃ order, db.order? item.orderId = some order ∧
      OrderExecutionStatus.rank .pickedUp ≤ order.executionStatus.rank

variable {settings : Settings} {action : Action} {db db' : Database} {r : ReportedState}

/-- New incidents with their handovers aboard keep them aboard. -/
theorem HandoversAboard.grow (h : HandoversAboard db) (grows : Grows db db')
    (hnew : ∀ incident ∈ db'.incidents, (∃ old ∈ db.incidents, old.bare = incident.bare) ∨
      ∀ item ∈ incident.affectedOrders, item.handoverRequired = true →
        ∃ order, db'.order? item.orderId = some order ∧
          OrderExecutionStatus.rank .pickedUp ≤ order.executionStatus.rank) :
    HandoversAboard db' := by
  intro incident hi item hitem hh
  rcases hnew incident hi with ⟨old, hold, hbare⟩ | hfresh
  · have hsame : incident.affectedOrders = old.affectedOrders :=
      (congrArg Incident.affectedOrders hbare.symm :)
    rw [hsame] at hitem
    obtain ⟨order, ho, hrank⟩ := h old hold item hitem hh
    obtain ⟨order', ho', hle⟩ := grows.forward item.orderId order ho
    exact ⟨order', ho', Nat.le_trans hrank hle⟩
  · exact hfresh item hitem hh

/-- What is aboard has been picked up. -/
theorem rank_of_aboard {status : OrderExecutionStatus} (h : aboard status = true) :
    OrderExecutionStatus.rank .pickedUp ≤ status.rank := by
  cases status
  case pickedUp => decide
  case delivering => decide
  all_goals cases h

/-- What a breakdown hands over was aboard, and what a delay affects was not. -/
theorem handover_of_assess {routeId : UUID} {order : Order} {isDirect requiresReplanning : Bool}
    {item : IncidentAffectedOrder}
    (h : assessMerchantOrder routeId order isDirect requiresReplanning = some item) :
    item.handoverRequired = false := by
  rw [assessMerchantOrder] at h
  split at h
  · cases h
  · cases h
    rfl

/-- Every transaction keeps this. -/
theorem HandoversAboard.effect (h : HandoversAboard db) (he : Effect settings db action db') :
    HandoversAboard db' := by
  have grows := he.grows
  have hkept : db'.incidents.map (·.bare) = db.incidents.map (·.bare) → HandoversAboard db' := by
    intro hsame
    refine h.grow grows fun incident hi ↦ .inl ?_
    have hmem : incident.bare ∈ db.incidents.map (·.bare) := by
      rw [← hsame]
      exact List.mem_map_of_mem hi
    exact List.mem_map.mp hmem
  cases he with
  | idle => exact h
  | moved hcall hc => exact hkept rfl
  | advanced ha => exact hkept (by obtain rfl | ⟨order, -, -, rfl⟩ :=
      Resources.advanceExecution_ok ha <;> rfl)
  | flagged riskOf => exact hkept rfl
  | reported hr =>
    obtain ⟨context, locationId, hread, -, -, -, rfl⟩ :=
      VehicleIncidentWorkflow.reportUnavailable_ok hr
    refine h.grow grows fun incident hi ↦ ?_
    rcases List.mem_append.mp hi with hold | hnew
    · exact .inl ⟨incident, hold, rfl⟩
    · refine .inr fun item hitem hh ↦ ?_
      rw [List.mem_singleton.mp hnew] at hitem
      obtain ⟨order, ho, rfl⟩ := List.mem_map.mp hitem
      rw [assessVehicleOrder_handoverRequired] at hh
      rw [hread.orders] at ho
      obtain ⟨membership, -, hfound⟩ := List.mem_filterMap.mp ho
      have hid : order.id = membership.orderId := eq_of_beq (List.find?_some hfound :)
      refine ⟨order, ?_, rank_of_aboard hh⟩
      rw [(assessVehicleOrder_facts _ order).1, hid]
      exact hfound
  | delayed hd =>
    rcases MerchantDelayWorkflow.assessDelay_ok hd with
      rfl | ⟨context, incident, -, -, -, -, ⟨provisional, requires, haffected⟩, hdb⟩
    · exact h
    · have hincidents : db'.incidents = db.incidents ++ [incident] := by
        rcases hdb with rfl | rfl <;> rfl
      refine h.grow grows fun other ho ↦ ?_
      rw [hincidents] at ho
      rcases List.mem_append.mp ho with hold | hnew
      · exact .inl ⟨other, hold, rfl⟩
      · refine .inr fun item hitem hh ↦ ?_
        rw [List.mem_singleton.mp hnew, haffected] at hitem
        obtain ⟨impact, himpact, rfl⟩ := List.mem_map.mp hitem
        obtain ⟨reached, -, hassess⟩ := List.mem_filterMap.mp himpact
        have hnone : impact.handoverRequired = true := hh
        rw [handover_of_assess hassess] at hnone
        cases hnone
  | planned _ plans _ _ => exact hkept plans.incidents
  | approved _ _ _ => exact hkept (applyApproval_plans _ _).incidents

/-- In every run, the lifecycle is in order and handovers are of goods that were aboard. -/
theorem ReportedRun.ok (h : ReportedRun settings r) :
    LifecycleOk r.state ∧ HandoversAboard r.state.db := by
  refine Reachable.invariant (I := fun r ↦ LifecycleOk r.state ∧ HandoversAboard r.state.db)
    ?_ ?_ h
  · intro r hr
    refine ⟨.initial hr.initial, fun incident hi ↦ ?_⟩
    rw [hr.initial.incidents] at hi
    cases hi
  · intro r a hr _
    have heffect : Effect settings r.state.db a (r.state.apply settings a).db :=
      hr.1.effect settings a
    exact ⟨hr.1.apply settings a, hr.2.effect heffect⟩

/-! ### What a recovery knows -/

/-- A target order that has not been picked up, with a reported ready time behind its own. -/
structure Late (reports : List Report) (db : Database) (context : RecoveryContext)
    (orderId : UUID) (order : Order) (reported : Instant) : Prop where
  target : orderId ∈ context.targetOrderIds
  found : db.order? orderId = some order
  waiting : order.executionStatus.rank < OrderExecutionStatus.rank .pickedUp
  latest : latestReported reports context.businessDate order.merchantId = some reported
  later : order.pickupReadyAt < reported

/-- The recovery keeps every reported delay: the solver may pick no late order up before its
reported ready time, and every candidate has a pickup for it, none of them before that time. -/
structure DelayKept (reports : List Report) (db : Database) (context : RecoveryContext)
    (input : SolverInput) : Prop where
  solver : ∀ orderId order reported, Late reports db context orderId order reported →
    ∀ solverOrder ∈ input.orders, solverOrder.orderId = orderId →
      reported ≤ context.currentTime + timedelta solverOrder.readyTimeSeconds
  stops : ∀ result, Accepted input result → ∀ db₁ db₂ roads candidate,
    createCandidate db₁ context result roads = .ok (db₂, candidate) →
      ∀ orderId order reported, Late reports db context orderId order reported →
        (∃ route ∈ candidate.routes, ∃ stop ∈ route.newStops, stop.orderId = orderId ∧
          stop.stopType = .pickup) ∧
        ∀ route ∈ candidate.routes, ∀ stop ∈ route.newStops, stop.orderId = orderId →
          stop.stopType = .pickup → reported ≤ stop.plannedArrivalAt

/-- The recovery knows of a reported ready time: it has come, or the incident is a delay of the
merchant whose own updated ready time covers it in whole seconds from now. -/
def Known (incident : Incident) (currentTime : Instant) (order : Order) (reported : Instant) :
    Prop :=
  reported ≤ currentTime ∨
    (incident.incidentType = .merchantDelay ∧ incident.merchantId = some order.merchantId ∧
      ∃ updatedReadyAt, incident.updatedReadyAt = some updatedReadyAt ∧
        reported ≤ currentTime + timedelta (seconds currentTime updatedReadyAt))

variable {incident : Incident} {plan : DeliveryPlan} {scope : ReplanningScope}
  {operationalTime : Instant} {context : RecoveryContext} {reports : List Report}
  {orderId : UUID} {order : Order} {reported : Instant}

/-- In whole seconds from now, an earlier time covers a later one only when that has come. -/
theorem le_seconds_of_lt {currentTime own later : Int} (h : own < later) :
    later ≤ currentTime + timedelta (seconds currentTime own) ↔ later ≤ currentTime := by
  have hspec := seconds_spec currentTime own
  rw [timedelta] at hspec ⊢
  omega

/-- Whole seconds from now are not before now. -/
theorem le_add_seconds {currentTime value later : Int} (h : later ≤ currentTime) :
    later ≤ currentTime + timedelta (seconds currentTime value) := by
  rw [timedelta]
  omega

/-- The facts of a late order: it is picked up, and its ready time covers the reported one
exactly when the recovery knows of it. -/
theorem Late.fact (h : Late reports db context orderId order reported)
    (hr : ReadFrom db incident plan scope operationalTime context)
    (hi : incident ∈ db.incidents) (haboard : HandoversAboard db) :
    ∃ fact, context.targetOrder? orderId = some fact ∧ fact.handoverRequired = false ∧
      fact.deliveryOnly = false ∧
      (reported ≤ context.currentTime + timedelta (seconds context.currentTime fact.pickupReadyAt) ↔
        Known incident context.currentTime order reported) := by
  obtain ⟨target, htarget, hid⟩ := List.mem_map.mp h.target
  have hsome : (context.targetOrder? orderId).isSome = true :=
    List.find?_isSome.mpr ⟨target, htarget, beq_iff_eq.mpr hid⟩
  obtain ⟨fact, hf⟩ := Option.isSome_iff_exists.mp hsome
  obtain ⟨hmem, hfid⟩ := targetOrder?_mem hf
  obtain ⟨membership, row, -, hrow, hof⟩ := hr.factOf hmem
  rw [hfid, h.found, Option.some.injEq] at hrow
  subst hrow
  have hhandover : fact.handoverRequired = false := by
    rw [Bool.eq_false_iff]
    intro hh
    rw [hof.handoverRequired] at hh
    obtain ⟨item, hitem, hrequired⟩ := (Option.any_eq_true _ _).mp hh
    obtain ⟨order', ho', hrank⟩ := haboard incident hi item (List.mem_of_find?_eq_some hitem)
      hrequired
    have hitemId : item.orderId = order.id := eq_of_beq (List.find?_some hitem :)
    rw [hitemId, ← hof.orderId, hfid, h.found, Option.some.injEq] at ho'
    subst ho'
    exact absurd h.waiting (Nat.not_lt.mpr hrank)
  refine ⟨fact, hf, hhandover, ?_, ?_⟩
  · rw [hof.deliveryOnly, Bool.and_eq_false_iff, Bool.eq_false_iff]
    exact .inl fun ha ↦ absurd h.waiting (Nat.not_lt.mpr (rank_of_aboard ha))
  · rw [hof.pickupReadyAt]
    by_cases hown : incident.incidentType = .merchantDelay ∧
        incident.merchantId = some order.merchantId
    · rw [if_pos hown]
      cases hupdated : incident.updatedReadyAt with
      | none =>
        rw [Option.getD_none, le_seconds_of_lt h.later]
        refine ⟨.inl, fun hk ↦ hk.resolve_right ?_⟩
        rintro ⟨-, -, updatedReadyAt, hu, -⟩
        rw [hupdated] at hu
        cases hu
      | some updatedReadyAt =>
        rw [Option.getD_some]
        constructor
        · exact fun hle ↦ .inr ⟨hown.1, hown.2, updatedReadyAt, hupdated, hle⟩
        · rintro (hpast | ⟨-, -, other, hu, hle⟩)
          · exact le_add_seconds hpast
          · rw [hupdated, Option.some.injEq] at hu
            rw [hu]
            exact hle
    · rw [if_neg hown, le_seconds_of_lt h.later]
      exact ⟨.inl, fun hk ↦ hk.resolve_right fun hc ↦ hown ⟨hc.1, hc.2.1⟩⟩

/-- For every state of a run with its reports and every recovery that is generated from it: it
keeps the reported delays exactly when it knows of the latest reported ready time of every
target order that is still to be picked up. -/
theorem delayKept_iff (h : ReportedRun settings r) {incidentId : UUID} {matrix : RoutingMatrix}
    {input : SolverInput} (hi : r.state.db.incident? incidentId = some incident)
    (hread : materializeRecoveryContext r.state.db incidentId scope operationalTime = .ok context)
    (hinput : buildRecoverySolverInput context matrix = .ok input) :
    DelayKept r.reports r.state.db context input ↔
      ∀ orderId order reported, Late r.reports r.state.db context orderId order reported →
        Known incident context.currentTime order reported := by
  obtain ⟨other, plan, ho, -, hr⟩ := materializeRecoveryContext_ok hread
  rw [hi, Option.some.injEq] at ho
  subst ho
  have hmem : incident ∈ r.state.db.incidents := List.mem_of_find?_eq_some hi
  have hfact := fun orderId order reported
    (hl : Late r.reports r.state.db context orderId order reported) ↦ hl.fact hr hmem h.ok.2
  have hready : ∀ {orderId : UUID} {fact : RecoveryOrderFact} {solverOrder : SolverOrder},
      context.targetOrder? orderId = some fact → fact.handoverRequired = false →
      solverOrder ∈ input.orders → solverOrder.orderId = orderId →
      solverOrder.readyTimeSeconds = seconds context.currentTime fact.pickupReadyAt := by
    intro orderId fact solverOrder hf hhandover hs hid
    rw [targetOrder?_fields hinput hf hs hid, solverOrderFields, hhandover]
    rfl
  constructor
  · intro hkept orderId order reported hl
    obtain ⟨fact, hf, hhandover, -, hiff⟩ := hfact orderId order reported hl
    obtain ⟨hmemFact, hfid⟩ := targetOrder?_mem hf
    obtain ⟨solverOrder, hs, he⟩ := (exists_solverOrder hinput).1 fact hmemFact
    have hid : solverOrder.orderId = orderId := by
      rw [he]
      exact hfid
    have hle := hkept.solver orderId order reported hl solverOrder hs hid
    rw [hready hf hhandover hs hid] at hle
    exact hiff.mp hle
  · intro hknown
    refine ⟨fun orderId order reported hl solverOrder hs hid ↦ ?_, ?_⟩
    · obtain ⟨fact, hf, hhandover, -, hiff⟩ := hfact orderId order reported hl
      rw [hready hf hhandover hs hid]
      exact hiff.mpr (hknown orderId order reported hl)
    · intro result hacc db₁ db₂ roads candidate hc orderId order reported hl
      obtain ⟨fact, hf, hhandover, honly, hiff⟩ := hfact orderId order reported hl
      have hle := hiff.mpr (hknown orderId order reported hl)
      obtain ⟨hcreated, -⟩ := createCandidate_ok hc
      have hdriven := routesDriven_of_validate hacc.valid
      constructor
      · obtain ⟨hmemFact, hfid⟩ := targetOrder?_mem hf
        obtain ⟨solverOrder, hs, he⟩ := (exists_solverOrder hinput).1 fact hmemFact
        have hid : solverOrder.orderId = orderId := by
          rw [he]
          exact hfid
        have hplace : solverOrder.pickupLocationId = some fact.pickupLocationId := by
          rw [he, solverOrderFields, hhandover, honly]
          rfl
        obtain ⟨solver, hsolver, hserved, -⟩ := hacc.served hs
        rcases hserved with ⟨origin, delivery, hstops, horigin, -⟩ | ⟨hnone, -⟩
        · have hmemOrigin : origin ∈ solver.stopsOf solverOrder.orderId := by
            rw [hstops]
            exact List.mem_cons_self
          obtain ⟨hstop, hoid⟩ := List.mem_filter.mp hmemOrigin
          have hkind := horigin.kind
          rw [SolverResultValidator.originType, hplace, Option.isSome_some, if_pos rfl,
            Option.some.injEq] at hkind
          obtain ⟨route, hroute, -, hnew⟩ := hcreated.route_of_solver hdriven.vehicles hsolver
          obtain ⟨stop, hm, target, -, hnewStop⟩ := exists_of_forall₂_left hnew hstop
          refine ⟨route, hroute, stop, hm, ?_, ?_⟩
          · rw [hnewStop]
            exact (of_decide_eq_true hoid).trans hid
          · rw [hnewStop]
            exact hkind.symm
        · rw [SolverOrder.originLocation, hplace, Option.some_or] at hnone
          cases hnone
      · intro route hroute stop hstop hoid hp
        obtain ⟨solver, hsolver, -, solverStop, hm, target, htarget, hnewStop⟩ :=
          hcreated.solver_of_newStop hdriven.vehicles hroute hstop
        have hkind : solverStop.stopType = .pickup := by
          rw [hnewStop] at hp
          exact hp
        have hsolverId : solverStop.orderId = orderId := by
          rw [hnewStop] at hoid
          exact hoid
        rw [hsolverId, hf, Option.some.injEq] at htarget
        subst htarget
        have hsecond := (seconds_of_accepted hinput hdriven hsolver hm
          (by rw [hsolverId]; exact hf)).2 hkind
        rw [hnewStop]
        refine Int.le_trans hle (Int.add_le_add_left ?_ _)
        exact Int.mul_le_mul_of_nonneg_right (Int.ofNat_le.mpr hsecond) (by decide)

/-! ### Two reports -/

/-- Merchant 7 reports its delay. -/
def ownReported : ReportedState :=
  reportDelay.foldl (applyReported scenarioSettings) { state := delayStart, reports := [] }

/-- The scenario of the reported delay is a run. -/
theorem ownReported_run : ReportedRun scenarioSettings ownReported :=
  Reachable.run (.init ⟨⟨rfl, rfl, rfl, rfl, rfl, rfl, rfl, by decide, by decide, by decide⟩, rfl⟩)
    reportDelay fun _ _ _ ↦ trivial

/-- The recovery of that delay keeps it. -/
theorem own_delay_kept :
    DelayKept ownReported.reports ownReported.state.db wholeSecondContext wholeSecondInput ∧
      Late ownReported.reports ownReported.state.db wholeSecondContext 31
        (scenarioOrder 31 2 .planned) 900000000 := by
  have hread : materializeRecoveryContext ownReported.state.db 100 .affectedRoute 120000000 =
      .ok wholeSecondContext := rfl
  have hinput : buildRecoverySolverInput wholeSecondContext
      (uniformMatrix wholeSecondContext.locations) = .ok wholeSecondInput := rfl
  have hi : ownReported.state.db.incident? 100 =
      some ((delayedDatabase 900000000).incident? 100 |>.get rfl) := rfl
  refine ⟨(delayKept_iff ownReported_run hi hread hinput).mpr ?_, ?_⟩
  · have hall : ∀ orderId ∈ wholeSecondContext.targetOrderIds,
        (ownReported.state.db.order? orderId).all (fun order ↦ order.merchantId == 7 &&
          (latestReported ownReported.reports wholeSecondContext.businessDate
            order.merchantId).all (· == 900000000)) = true := by
      decide +kernel
    intro orderId order reported hl
    have hrow := hall orderId hl.target
    rw [hl.found, Option.all_some, hl.latest, Option.all_some, Bool.and_eq_true, beq_iff_eq,
      beq_iff_eq] at hrow
    refine .inr ⟨rfl, ?_, 900000000, rfl, ?_⟩
    · rw [hrow.1]
      rfl
    · rw [hrow.2]
      decide +kernel
  · exact ⟨by decide +kernel, rfl, by decide, rfl, by decide⟩

/-- Vehicle 20 has an order of merchant 7 and one of merchant 9. -/
def mixedDatabase : Database :=
  { laterOrderDatabase with
    merchants := [7, 8, 9]
    orders := delayDatabase.orders ++ [{ scenarioOrder 33 3 .planned with merchantId := 9 }]
    plans := laterOrderDatabase.plans.map fun plan ↦ { plan with
      routes := plan.routes.map fun route ↦ { route with
        stops := route.stops.map fun stop ↦
          if stop.id = 55 then { stop with timeWindowStartAt := some 0 } else stop } } }

/-- Merchant 7 reports 500 seconds, which needs no replanning, then merchant 9 reports 900. -/
def reportTwice : List Action :=
  [.assessDelay 738000 7 500000000 0 true, .assessDelay 738000 9 900000000 0 true]

/-- The state after both reports. -/
def twiceReported : ReportedState :=
  reportTwice.foldl (applyReported scenarioSettings)
    { state := { delayStart with db := mixedDatabase }, reports := [] }

/-- The context of the second report. -/
def secondContext : RecoveryContext :=
  (materializeRecoveryContext twiceReported.state.db 101 .affectedRoute 120000000).toOption.get
    (by decide +kernel)

/-- The solver input of that context. -/
def secondInput : SolverInput :=
  (buildRecoverySolverInput secondContext (uniformMatrix secondContext.locations)).toOption.get
    (by decide +kernel)

/-- Order 31 is picked up in a minute, order 33 when its goods are ready. -/
def secondResult : SolverResult where
  status := .feasible
  routes := [{
    vehicleId := 20
    stops := [servedStop 31 1 .pickup 0 60 60 1,
      servedStop 33 1 .pickup 1 780 60 1,
      servedStop 31 2 .delivery 2 900 60 (-1),
      servedStop 33 3 .delivery 3 1020 60 (-1)]
    distanceMeters := 200
    durationSeconds := 1080 }]
  unassignedOrders := []
  totalDistanceMeters := 200
  totalDurationSeconds := 1080
  diagnostic := none

/-- The database and the candidate that `_create_candidate` makes of it. -/
def secondCandidate : Database × DeliveryPlan :=
  (createCandidate twiceReported.state.db secondContext secondResult none).toOption.get
    (by decide +kernel)

/-- The recovery of the second report forgets the first: order 31 is picked up before merchant 7
has its goods ready. -/
theorem first_delay_forgotten :
    ReportedRun scenarioSettings twiceReported ∧
      materializeRecoveryContext twiceReported.state.db 101 .affectedRoute 120000000 =
        .ok secondContext ∧
      buildRecoverySolverInput secondContext (uniformMatrix secondContext.locations) =
        .ok secondInput ∧
      Accepted secondInput secondResult ∧
      createCandidate twiceReported.state.db secondContext secondResult none =
        .ok secondCandidate ∧
      Late twiceReported.reports twiceReported.state.db secondContext 31
        (scenarioOrder 31 2 .planned) 500000000 ∧
      (∃ route ∈ secondCandidate.2.routes, ∃ stop ∈ route.newStops, stop.orderId = 31 ∧
        stop.stopType = .pickup ∧ stop.plannedArrivalAt < 500000000) ∧
      ¬ DelayKept twiceReported.reports twiceReported.state.db secondContext secondInput := by
  have hacc : Accepted secondInput secondResult := ⟨rfl, rfl, by decide +kernel⟩
  have hcreated : createCandidate twiceReported.state.db secondContext secondResult none =
      .ok secondCandidate := by
    rw [secondCandidate]
    exact eq_ok_get _
  have hlate : Late twiceReported.reports twiceReported.state.db secondContext 31
      (scenarioOrder 31 2 .planned) 500000000 :=
    ⟨by decide +kernel, by decide +kernel, by decide, by decide +kernel, by decide⟩
  have hearly : ∃ route ∈ secondCandidate.2.routes, ∃ stop ∈ route.newStops, stop.orderId = 31 ∧
      stop.stopType = .pickup ∧ stop.plannedArrivalAt < 500000000 := by
    decide +kernel
  refine ⟨?_, ?_, ?_, hacc, hcreated, hlate, hearly, fun h ↦ ?_⟩
  · exact Reachable.run (.init ⟨⟨rfl, rfl, rfl, rfl, rfl, rfl, rfl, by decide, by decide,
      by decide⟩, rfl⟩) reportTwice fun _ _ _ ↦ trivial
  · rw [secondContext]
    exact eq_ok_get _
  · rw [secondInput]
    exact eq_ok_get _
  · obtain ⟨route, hr, stop, hs, hid, hp, hlt⟩ := hearly
    have hle := (h.stops secondResult hacc _ _ _ _ hcreated 31 _ _ hlate).2 route hr stop hs hid hp
    exact Int.not_lt.mpr hle hlt

end PenroseRoute.System
