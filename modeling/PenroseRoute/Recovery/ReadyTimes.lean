import PenroseRoute.Recovery.CandidateTimes

/-!
# Ready times of a delayed merchant

A merchant delay has one updated ready time, and the merchant's orders have each their own.
The context puts the updated time in the place of every own one.
-/

namespace PenroseRoute.Recovery

open PenroseRoute.Db PenroseRoute.Lib PenroseRoute.Operations PenroseRoute.Optimization

/-- A time that makes the pickup of an order no earlier: not before its own ready time and, for
an order of the delayed merchant, not before the updated one. -/
structure NotEarlier (incident : Incident) (order : Order) (value : Instant) : Prop where
  own : order.pickupReadyAt ≤ value
  updated : incident.merchantId = some order.merchantId →
    ∀ updatedReadyAt, incident.updatedReadyAt = some updatedReadyAt → updatedReadyAt ≤ value

/-- No pickup gets earlier: not in the facts of a context, not in the solver input that is made
of it, and not in the new stops of any candidate for it. -/
structure NeverEarlier (db : Database) (incident : Incident) (context : RecoveryContext)
    (input : SolverInput) : Prop where
  facts : ∀ fact ∈ context.targetOrders, ∀ order, db.order? fact.orderId = some order →
    NotEarlier incident order fact.pickupReadyAt
  others : ∀ fact ∈ context.targetOrders, ∀ order, db.order? fact.orderId = some order →
    incident.merchantId ≠ some order.merchantId → fact.pickupReadyAt = order.pickupReadyAt
  solver : ∀ solverOrder ∈ input.orders, ∀ order, db.order? solverOrder.orderId = some order →
    NotEarlier incident order (context.currentTime + timedelta solverOrder.readyTimeSeconds)
  stops : ∀ result, Accepted input result → ∀ db₁ db₂ roads candidate,
    createCandidate db₁ context result roads = .ok (db₂, candidate) →
      ∀ route ∈ candidate.routes, ∀ stop ∈ route.newStops, stop.stopType = .pickup →
        ∀ order, db.order? stop.orderId = some order →
          NotEarlier incident order stop.plannedArrivalAt ∧
            ∃ start, stop.timeWindowStartAt = some start ∧ NotEarlier incident order start

/-- The delay is a delay for an order: the updated ready time is not before its own one, and
the time that counts is whole seconds away or has come. -/
structure DelayCovers (currentTime : Instant) (incident : Incident) (order : Order) : Prop where
  delayed : incident.merchantId = some order.merchantId → ∀ updatedReadyAt,
    incident.updatedReadyAt = some updatedReadyAt →
      order.pickupReadyAt ≤ updatedReadyAt ∧ Lossless currentTime updatedReadyAt
  other : incident.merchantId ≠ some order.merchantId → Lossless currentTime order.pickupReadyAt

variable {db : Database} {incident : Incident} {plan : DeliveryPlan} {scope : ReplanningScope}
  {operationalTime : Instant} {context : RecoveryContext}

/-- The facts of a target order are read from its row. -/
theorem ReadFrom.factOf (h : ReadFrom db incident plan scope operationalTime context)
    {fact : RecoveryOrderFact} (hf : fact ∈ context.targetOrders) :
    ∃ membership order, plan.planOrders.find? (·.orderId == fact.orderId) = some membership ∧
      db.order? fact.orderId = some order ∧ FactOf incident plan membership order fact := by
  obtain ⟨orderId, -, hfact⟩ := exists_of_forall₂_right h.targetOrders hf
  obtain ⟨membership, order, hm, ho, hof⟩ := orderFact_ok hfact
  have hid : orderId = fact.orderId := by
    rw [hof.orderId]
    exact (eq_of_beq (List.find?_some ho :)).symm
  rw [hid] at hm ho
  exact ⟨membership, order, hm, ho, hof⟩

/-- A target order is found under its id. -/
theorem targetOrder?_mem {orderId : UUID} {fact : RecoveryOrderFact}
    (h : context.targetOrder? orderId = some fact) :
    fact ∈ context.targetOrders ∧ fact.orderId = orderId :=
  ⟨List.mem_of_find?_eq_some h, eq_of_beq (List.find?_some h :)⟩

/-- A merchant delay has an updated ready time and no place of a breakdown. -/
theorem merchantDelay_fields (htype : incident.incidentType = .merchantDelay)
    (hfields : incident.typeFieldsHold = true) :
    (∃ updatedReadyAt, incident.updatedReadyAt = some updatedReadyAt) ∧
      incident.incidentLocationId = none := by
  rw [Incident.typeFieldsHold, htype] at hfields
  simp only [Bool.and_eq_true, Option.isNone_iff_eq_none, Option.isSome_iff_exists] at hfields
  exact ⟨hfields.1.2, hfields.1.1.1.2⟩

/-- The facts of a merchant delay carry the ready time that counts, and no handover. -/
theorem ReadFrom.readyAt (h : ReadFrom db incident plan scope operationalTime context)
    (htype : incident.incidentType = .merchantDelay) (hfields : incident.typeFieldsHold = true)
    {fact : RecoveryOrderFact} (hf : fact ∈ context.targetOrders) :
    ∃ order, db.order? fact.orderId = some order ∧ fact.handoverRequired = false ∧
      (incident.merchantId = some order.merchantId →
        incident.updatedReadyAt = some fact.pickupReadyAt) ∧
      (incident.merchantId ≠ some order.merchantId →
        fact.pickupReadyAt = order.pickupReadyAt) := by
  obtain ⟨⟨updatedReadyAt, hupdated⟩, hlocation⟩ := merchantDelay_fields htype hfields
  obtain ⟨membership, order, -, ho, hof⟩ := h.factOf hf
  have hready := hof.pickupReadyAt
  refine ⟨order, ho, ?_, fun hm ↦ ?_, fun hm ↦ ?_⟩
  · rw [Bool.eq_false_iff]
    intro hh
    have hsome := (hof.handoverLocationId hh).2
    rw [hlocation] at hsome
    cases hsome
  · rw [if_pos ⟨htype, hm⟩, hupdated, Option.getD_some] at hready
    rw [hready, hupdated]
  · rw [if_neg fun hc ↦ hm hc.2] at hready
    exact hready

/-- A fact and its order of the solver input. -/
theorem exists_solverOrder {matrix : RoutingMatrix} {input : SolverInput}
    (hinput : buildRecoverySolverInput context matrix = .ok input) :
    (∀ fact ∈ context.targetOrders, ∃ solverOrder ∈ input.orders,
      solverOrder.toSolverOrderFields = solverOrderFields context.currentTime fact) ∧
    ∀ solverOrder ∈ input.orders, ∃ fact ∈ context.targetOrders,
      solverOrder.toSolverOrderFields = solverOrderFields context.currentTime fact := by
  have hfields := (buildRecoverySolverInput_ok hinput).1
  constructor
  · intro fact hf
    have hmem := List.mem_map_of_mem (f := solverOrderFields context.currentTime) hf
    rw [← hfields] at hmem
    exact List.mem_map.mp hmem
  · intro solverOrder hs
    have hmem := List.mem_map_of_mem (f := SolverOrder.toSolverOrderFields) hs
    rw [hfields] at hmem
    obtain ⟨fact, hf, he⟩ := List.mem_map.mp hmem
    exact ⟨fact, hf, he.symm⟩

/-- For every merchant delay and every scope: no pickup gets earlier exactly when the updated
ready time is not before the own one of any target order of the merchant, and the ready times
lose nothing in whole seconds. -/
theorem merchantDelay_neverEarlier_iff {incidentId : UUID} {matrix : RoutingMatrix}
    {input : SolverInput} (hi : db.incident? incidentId = some incident)
    (htype : incident.incidentType = .merchantDelay) (hfields : incident.typeFieldsHold = true)
    (hread : materializeRecoveryContext db incidentId scope operationalTime = .ok context)
    (hinput : buildRecoverySolverInput context matrix = .ok input) :
    NeverEarlier db incident context input ↔
      ∀ fact ∈ context.targetOrders, ∀ order, db.order? fact.orderId = some order →
        DelayCovers context.currentTime incident order := by
  obtain ⟨other, plan, ho, -, hr⟩ := materializeRecoveryContext_ok hread
  rw [hi, Option.some.injEq] at ho
  subst ho
  obtain ⟨hofFact, hofSolver⟩ := exists_solverOrder hinput
  constructor
  · intro h fact hf order ho
    obtain ⟨row, hrow, hhandover, hdelayed, hother⟩ := hr.readyAt htype hfields hf
    rw [ho, Option.some.injEq] at hrow
    subst hrow
    obtain ⟨solverOrder, hs, he⟩ := hofFact fact hf
    have hid : solverOrder.orderId = fact.orderId := by rw [he]; rfl
    have hseconds : solverOrder.readyTimeSeconds =
        seconds context.currentTime fact.pickupReadyAt := by
      rw [he, solverOrderFields, hhandover]
      rfl
    have hsolver := h.solver solverOrder hs order (by rw [hid]; exact ho)
    rw [hseconds] at hsolver
    refine ⟨fun hm updatedReadyAt hu ↦ ?_, fun hm ↦ ?_⟩
    · have hsame := hdelayed hm
      rw [hu, Option.some.injEq] at hsame
      refine ⟨?_, (le_seconds_iff _ _).mp ?_⟩
      · rw [hsame]
        exact (h.facts fact hf order ho).own
      · have hle := hsolver.updated hm updatedReadyAt hu
        rw [← hsame] at hle
        exact hle
    · have hle := hsolver.own
      rw [hother hm] at hle
      exact (le_seconds_iff _ _).mp hle
  · intro h
    have hfact : ∀ fact ∈ context.targetOrders, ∀ order, db.order? fact.orderId = some order →
        NotEarlier incident order fact.pickupReadyAt ∧
          Lossless context.currentTime fact.pickupReadyAt ∧ fact.handoverRequired = false := by
      intro fact hf order ho
      obtain ⟨row, hrow, hhandover, hdelayed, hother⟩ := hr.readyAt htype hfields hf
      rw [ho, Option.some.injEq] at hrow
      subst hrow
      have hcover := h fact hf order ho
      by_cases hm : incident.merchantId = some order.merchantId
      · obtain ⟨hle, hloss⟩ := hcover.delayed hm _ (hdelayed hm)
        refine ⟨⟨hle, fun _ updatedReadyAt hu ↦ ?_⟩, hloss, hhandover⟩
        rw [hdelayed hm, Option.some.injEq] at hu
        exact Int.le_of_eq hu.symm
      · refine ⟨⟨Int.le_of_eq (hother hm).symm, fun hc ↦ absurd hc hm⟩, ?_, hhandover⟩
        rw [hother hm]
        exact hcover.other hm
    have hlater : ∀ {order : Order} {value value' : Int}, NotEarlier incident order value →
        value ≤ value' → NotEarlier incident order value' := fun hn hle ↦
      ⟨Int.le_trans hn.own hle, fun hm u hu ↦ Int.le_trans (hn.updated hm u hu) hle⟩
    refine ⟨fun fact hf order ho ↦ (hfact fact hf order ho).1, ?_, ?_, ?_⟩
    · intro fact hf order ho hm
      obtain ⟨row, hrow, -, -, hother⟩ := hr.readyAt htype hfields hf
      rw [ho, Option.some.injEq] at hrow
      subst hrow
      exact hother hm
    · intro solverOrder hs order ho
      obtain ⟨fact, hf, he⟩ := hofSolver solverOrder hs
      have hid : solverOrder.orderId = fact.orderId := by rw [he]; rfl
      rw [hid] at ho
      obtain ⟨hn, hloss, hhandover⟩ := hfact fact hf order ho
      have hseconds : solverOrder.readyTimeSeconds =
          seconds context.currentTime fact.pickupReadyAt := by
        rw [he, solverOrderFields, hhandover]
        rfl
      rw [hseconds]
      exact hlater hn ((le_seconds_iff _ _).mpr hloss)
    · intro result hacc db₁ db₂ roads candidate hcreated route hroute stop hstop hp order ho
      have hdriven := routesDriven_of_validate hacc.valid
      obtain ⟨solver, hs, -, solverStop, hm, hsolved⟩ :=
        (createCandidate_ok hcreated).1.solver_of_newStop hdriven.vehicles hroute hstop
      obtain ⟨fact, hf, he⟩ := hsolved.targetOrder?
      obtain ⟨hmem, hid⟩ := targetOrder?_mem hf
      rw [← hid] at ho
      obtain ⟨hn, hloss, -⟩ := hfact fact hmem order ho
      have hkind : solverStop.stopType = .pickup := by
        rw [he] at hp
        exact hp
      have htarget : context.targetOrder? solverStop.orderId = some fact := by
        rw [he] at hf
        exact hf
      have hsecond := (seconds_of_accepted hinput hdriven hs hm htarget).2 hkind
      rw [he]
      refine ⟨hlater hn ?_, fact.pickupReadyAt, ?_, hn⟩
      · exact (le_arrival_iff context.currentTime fact.pickupReadyAt hsecond).mpr (.inl hloss)
      · rw [newStop, hkind]

/-! ### Two orders of one merchant -/

/-- Merchant 7 has an order that is ready at once and one that is ready after 5000 seconds. -/
def laterOrderDatabase : Database :=
  { delayDatabase with
    orders := delayDatabase.orders ++ [{ scenarioOrder 33 3 .planned with
      pickupReadyAt := 5000000000 }]
    plans := [{ handoverBase 1 2 with
      assignedOrderCount := 3
      routes := [
        scenarioRoute 41 1 10 3 .planned [scenarioStop 51 32 1 1 .pickup none false,
          scenarioStop 52 32 3 2 .delivery (some 51) false],
        scenarioRoute 42 2 20 2 .planned [scenarioStop 53 31 1 1 .pickup none false,
          scenarioStop 54 31 2 2 .delivery (some 53) false,
          { scenarioStop 55 33 1 3 .pickup none false with
            timeWindowStartAt := some 5000000000 },
          scenarioStop 56 33 3 4 .delivery (some 55) false]]
      planOrders := [⟨31, .assigned, some 42, none, none⟩, ⟨32, .assigned, some 41, none, none⟩,
        ⟨33, .assigned, some 42, none, none⟩] }] }

/-- The merchant is late by 900 seconds. -/
def laterOrderReported : Database :=
  ((Incidents.MerchantDelayWorkflow.assessDelay 600 laterOrderDatabase 738000 7 900000000 0
    true).toOption.get rfl).1

/-- The incident of that delay. -/
def laterOrderIncident : Incident := (laterOrderReported.incident? 100).get rfl

/-- The context of that incident. -/
def laterOrderContext : RecoveryContext :=
  (materializeRecoveryContext laterOrderReported 100 .affectedRoute 120000000).toOption.get rfl

/-- The solver input of that context. -/
def laterOrderInput : SolverInput :=
  (buildRecoverySolverInput laterOrderContext
    (uniformMatrix laterOrderContext.locations)).toOption.get rfl

/-- Both orders are picked up as soon as the updated ready time has come. -/
def laterOrderResult : SolverResult where
  status := .feasible
  routes := [{
    vehicleId := 20
    stops := [servedStop 31 1 .pickup 0 780 60 1,
      servedStop 33 1 .pickup 1 840 60 1,
      servedStop 31 2 .delivery 2 960 60 (-1),
      servedStop 33 3 .delivery 3 1080 60 (-1)]
    distanceMeters := 200
    durationSeconds := 1140 }]
  unassignedOrders := []
  totalDistanceMeters := 200
  totalDurationSeconds := 1140
  diagnostic := none

/-- The database and the candidate that `_create_candidate` makes of it. -/
def laterOrderCandidate : Database × DeliveryPlan :=
  (createCandidate laterOrderReported laterOrderContext laterOrderResult none).toOption.get rfl

/-- The updated ready time takes the place of a later own one: the facts, the solver input and
the candidate pick order 33 up more than an hour before its goods are ready. -/
theorem laterOrder_pickup_earlier :
    laterOrderReported.incident? 100 = some laterOrderIncident ∧
      laterOrderIncident.incidentType = .merchantDelay ∧
      laterOrderIncident.typeFieldsHold = true ∧
      materializeRecoveryContext laterOrderReported 100 .affectedRoute 120000000 =
        .ok laterOrderContext ∧
      buildRecoverySolverInput laterOrderContext (uniformMatrix laterOrderContext.locations) =
        .ok laterOrderInput ∧
      Accepted laterOrderInput laterOrderResult ∧
      createCandidate laterOrderReported laterOrderContext laterOrderResult none =
        .ok laterOrderCandidate ∧
      (∃ fact ∈ laterOrderContext.targetOrders, ∃ order ∈ laterOrderReported.orders,
        order.id = fact.orderId ∧ fact.pickupReadyAt < order.pickupReadyAt) ∧
      (∃ route ∈ laterOrderCandidate.2.routes, ∃ stop ∈ route.newStops,
        ∃ order ∈ laterOrderReported.orders, order.id = stop.orderId ∧
          stop.stopType = .pickup ∧ stop.plannedArrivalAt < order.pickupReadyAt) ∧
      ¬ NeverEarlier laterOrderReported laterOrderIncident laterOrderContext laterOrderInput := by
  refine ⟨rfl, rfl, rfl, rfl, rfl, ⟨rfl, rfl, by decide +kernel⟩, rfl, by decide +kernel,
    by decide +kernel, fun h ↦ ?_⟩
  have hearlier : ∃ fact ∈ laterOrderContext.targetOrders, ∃ order,
      laterOrderReported.order? fact.orderId = some order ∧
        fact.pickupReadyAt < order.pickupReadyAt :=
    ⟨laterOrderContext.targetOrders.getLast (by decide +kernel), by decide +kernel,
      laterOrderReported.orders.getLast (by decide +kernel), by decide +kernel,
      by decide +kernel⟩
  obtain ⟨fact, hf, order, ho, hlt⟩ := hearlier
  exact Int.not_lt.mpr (h.facts fact hf order ho).own hlt

/-- A delay behind the ready times of all target orders makes no pickup earlier. -/
theorem wholeSecond_neverEarlier :
    NeverEarlier (delayedDatabase 900000000) ((delayedDatabase 900000000).incident? 100 |>.get rfl)
      wholeSecondContext wholeSecondInput ∧
    wholeSecondContext.targetOrders.map (fun fact ↦ (fact.orderId, fact.pickupReadyAt)) =
      [(31, 900000000)] := by
  have hread : materializeRecoveryContext (delayedDatabase 900000000) 100 .affectedRoute
      120000000 = .ok wholeSecondContext := rfl
  have hinput : buildRecoverySolverInput wholeSecondContext
      (uniformMatrix wholeSecondContext.locations) = .ok wholeSecondInput := rfl
  refine ⟨(merchantDelay_neverEarlier_iff rfl rfl rfl hread hinput).mpr ?_, by decide +kernel⟩
  have hcover : ∀ fact ∈ wholeSecondContext.targetOrders,
      ((delayedDatabase 900000000).order? fact.orderId).all (fun order ↦
        order.pickupReadyAt ≤ 900000000 ∧ order.merchantId = 7) = true := by
    decide +kernel
  intro fact hf order ho
  have hrow := hcover fact hf
  rw [ho, Option.all_some, decide_eq_true_eq] at hrow
  refine ⟨fun _ updatedReadyAt hu ↦ ?_, fun hm ↦ absurd ?_ hm⟩
  · have hvalue : updatedReadyAt = 900000000 := by
      cases hu
      rfl
    rw [hvalue]
    exact ⟨hrow.1, by decide +kernel⟩
  · rw [hrow.2]
    rfl

end PenroseRoute.Recovery
