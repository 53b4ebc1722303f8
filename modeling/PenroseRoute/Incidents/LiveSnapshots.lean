import PenroseRoute.Incidents.Interleaving
import PenroseRoute.Operations.StopMachine

/-!
# Snapshots of live orders

An incident records the execution status of its orders as its report read them with the
memberships. As long as no order is advanced between that and the lock of its row, these are the
committed statuses when the incident commits.
-/

namespace PenroseRoute.Incidents

open PenroseRoute.Db PenroseRoute.Lib PenroseRoute.Operations PenroseRoute.Resources

variable {thresholdSeconds : Int} {db db' : Database} {context : Context} {request : Request}

/-! ### What is read -/

/-- The committed status of an order is the one in the session. -/
def Live (db : Database) (order : Order) : Prop :=
  (db.order? order.id).map (·.executionStatus) = some order.executionStatus

/-- An order that is looked up has the id. -/
theorem live_of_order? {orderId : UUID} {order : Order} (h : db.order? orderId = some order) :
    order.id = orderId ∧ Live db order := by
  have hid : order.id = orderId := by simpa using List.find?_some h
  refine ⟨hid, ?_⟩
  rw [Live, hid, h]
  rfl

/-- The orders of the context of a delay. -/
theorem reached_orders {businessDate : BusinessDate} {merchantId : UUID}
    {context : MerchantDelayWorkflow.MerchantIncidentContext}
    (h : MerchantDelayWorkflow.resolveMerchantIncidentContext db businessDate merchantId =
      .ok context) :
    ∀ item ∈ context.orders, Live db item.order ∧
      item.order.id ∈ context.routeIds.flatMap fun routeId ↦
        (listRoutePlanOrders context.plan routeId).map (·.orderId) := by
  obtain ⟨plan, -, h⟩ := bind_eq_ok.mp h
  obtain ⟨-, h⟩ := unit_bind_eq_ok.mp h
  obtain ⟨-, h⟩ := unit_bind_eq_ok.mp h
  obtain ⟨originalReadyAt, -, h⟩ := bind_eq_ok.mp h
  cases h
  intro item hitem
  obtain ⟨route, hroute, hreached⟩ := List.mem_flatMap.mp hitem
  rw [MerchantDelayWorkflow.reachedOrders, List.mem_filterMap] at hreached
  obtain ⟨membership, hmembership, hfound⟩ := hreached
  dsimp only at hfound
  split at hfound
  · obtain ⟨order, horder, rfl⟩ := Option.map_eq_some_iff.mp hfound
    obtain ⟨hid, hlive⟩ := live_of_order? horder
    refine ⟨hlive, List.mem_flatMap.mpr ⟨route.id, List.mem_map_of_mem hroute, ?_⟩⟩
    exact List.mem_map.mpr ⟨membership, hmembership, hid.symm⟩
  · cases hfound

/-- The affected orders are read as they are and locked afterwards. -/
theorem resolve_live (h : request.resolve db = .ok context) :
    ∀ order ∈ context.affected, Live db order ∧ order.id ∈ context.orderIds := by
  cases request with
  | vehicle businessDate vehicleId eventTime location =>
    obtain ⟨c, hc, rfl⟩ := map_eq_ok.mp h
    intro order horder
    refine ⟨?_, ?_⟩
    · have hread := (VehicleIncidentWorkflow.resolveVehicleIncidentContext_ok hc).orders
      rw [Context.affected, hread, List.mem_filterMap] at horder
      obtain ⟨membership, -, hfound⟩ := horder
      exact (live_of_order? hfound).2
    · rw [Context.orderIds, List.mem_insertionSort]
      exact List.mem_map_of_mem horder
  | merchant businessDate merchantId updatedReadyAt eventTime explicitIncident =>
    obtain ⟨c, hc, rfl⟩ := map_eq_ok.mp h
    intro order horder
    rw [Context.affected, List.mem_map] at horder
    obtain ⟨item, hitem, rfl⟩ := horder
    rw [Context.orderIds, List.mem_insertionSort]
    exact reached_orders hc item (List.mem_filter.mp hitem).1

/-! ### What is decided -/

/-- The row of an affected order is decided on a status. -/
def DecidedOn (incidentType : IncidentType) (affected : IncidentAffectedOrder)
    (status : OrderExecutionStatus) : Prop :=
  affected.executionStatusSnapshot = status ∧
    match incidentType with
    | .vehicleUnavailable => affected.handoverRequired = aboard status ∧
        affected.requiresReplanning = (status != .completed)
    | .merchantDelay => affected.handoverRequired = false ∧ aboard status = false ∧
        status ≠ .completed

/-- The rows of the affected orders of an outcome are decided on what the session has. -/
def DecidedIn (context : Context) (incident : Incident) : Prop :=
  ∀ affected ∈ incident.affectedOrders, ∃ order ∈ context.affected,
    affected.orderId = order.id ∧
      DecidedOn incident.incidentType affected order.executionStatus

/-- Only an order that is not picked up is affected by a delay. -/
theorem assessMerchantOrder_some {routeId : UUID} {order : Order}
    {isDirect requiresReplanning : Bool} {affected : IncidentAffectedOrder}
    (h : assessMerchantOrder routeId order isDirect requiresReplanning = some affected) :
    affected.orderId = order.id ∧ affected.executionStatusSnapshot = order.executionStatus ∧
      affected.handoverRequired = false ∧ aboard order.executionStatus = false ∧
      order.executionStatus ≠ .completed ∧
      (assessMerchantOrder routeId order isDirect true).isSome := by
  unfold assessMerchantOrder at h ⊢
  split at h
  · cases h
  · next hopen =>
    cases h
    rw [if_neg hopen]
    rw [Bool.or_eq_true, not_or, Bool.not_eq_true, beq_iff_eq] at hopen
    exact ⟨rfl, rfl, rfl, hopen.1, hopen.2, rfl⟩

/-- An assessment that is made is decided in its context. -/
theorem assess_decided {outcome : Outcome}
    (h : request.assess thresholdSeconds db context = .ok (some outcome)) :
    DecidedIn context outcome.incident := by
  cases request with
  | vehicle businessDate vehicleId eventTime location =>
    cases context with
    | merchant context => cases h
    | vehicle context =>
      obtain ⟨o, ho, hsome⟩ := map_eq_ok.mp h
      cases hsome
      obtain ⟨-, ho⟩ := unit_bind_eq_ok.mp ho
      obtain ⟨locationId, -, ho⟩ := bind_eq_ok.mp ho
      obtain ⟨-, ho⟩ := unit_bind_eq_ok.mp ho
      cases ho
      intro affected haffected
      obtain ⟨order, horder, rfl⟩ := List.mem_map.mp haffected
      have hfacts := assessVehicleOrder_facts context.route.id order
      refine ⟨order, horder, hfacts.1, hfacts.2.2, ?_⟩
      exact ⟨assessVehicleOrder_handoverRequired _ order,
        assessVehicleOrder_requiresReplanning _ order⟩
  | merchant businessDate merchantId updatedReadyAt eventTime explicitIncident =>
    cases context with
    | vehicle context => cases h
    | merchant context =>
      unfold Request.assess MerchantDelayWorkflow.assessDelayed at h
      dsimp only at h
      split at h
      · obtain ⟨-, h⟩ := unit_bind_eq_ok.mp h
        cases h
      obtain ⟨-, h⟩ := unit_bind_eq_ok.mp h
      obtain ⟨-, h⟩ := unit_bind_eq_ok.mp h
      cases h
      intro affected haffected
      obtain ⟨impact, himpact, rfl⟩ := List.mem_map.mp haffected
      obtain ⟨item, hitem, hassessed⟩ := List.mem_filterMap.mp himpact
      obtain ⟨hid, hsnapshot, hhandover, haboard, hcompleted, hsome⟩ :=
        assessMerchantOrder_some hassessed
      refine ⟨item.order, List.mem_map.mpr ⟨item, List.mem_filter.mpr ⟨hitem, hsome⟩, rfl⟩, hid,
        hsnapshot, hhandover, haboard, hcompleted⟩

/-! ### What commits change -/

/-- The writes of a report change no execution status. -/
theorem order?_apply (outcome : Outcome) (db : Database) (orderId : UUID) :
    ((outcome.apply db).order? orderId).map (·.executionStatus) =
      (db.order? orderId).map (·.executionStatus) := by
  refine order?_of_map_eq ?_ orderId
  unfold Outcome.apply
  dsimp only
  split
  · rfl
  · exact MerchantDelayWorkflow.map_shiftRisks _ _ _ (fun _ _ ↦ rfl) _
  · rfl

/-- An order that advances leaves the others as they are. -/
theorem order?_advance {orderId other : UUID} (target : OrderExecutionStatus)
    (hne : other ≠ orderId) :
    (db.updateOrder orderId fun order ↦ { order with executionStatus := target }).order? other =
      db.order? other := by
  have hfound : ∀ order ∈ db.order? other, (if order.id == orderId then
      { order with executionStatus := target } else order) = order := by
    intro order horder
    have hid := (live_of_order? horder).1
    rw [if_neg (by rw [hid]; simpa using hne)]
  have hfind : (updateWhere db.orders (·.id == orderId) fun order ↦
      { order with executionStatus := target }).find? (·.id == other) =
      (db.order? other).map fun order ↦ if order.id == orderId then
        { order with executionStatus := target } else order := find?_updateWhere fun _ ↦ rfl
  change (updateWhere _ _ _).find? _ = _
  rw [hfind]
  cases hrow : db.order? other with
  | none => rfl
  | some order => exact congrArg some (hfound order hrow)

/-! ### Interleavings -/

/-- The affected orders of a report in the session are live, and each is locked or still to be
locked. -/
def Read (db : Database) (context : Context) (pending : List UUID) (rows : List Row) : Prop :=
  ∀ order ∈ context.affected, Live db order ∧ (order.id ∈ pending ∨ Row.order order.id ∈ rows)

/-- What an open transaction knows. -/
def Fact (db : Database) : ReportTransaction → Prop
  | .advance _ _ .locking _ => True
  | .advance orderId _ _ rows => Row.order orderId ∈ rows
  | .report _ (.lockingOrders context pending) rows => Read db context pending rows
  | .report _ (.assessed context outcome) rows => Read db context [] rows ∧
    ∀ o, outcome = some o → DecidedIn context o.incident
  | .report _ _ _ => True

/-- The commit of a transaction advances no affected order that another one has read and not locked
yet. -/
def Undisturbed (_ : Database) (t other : ReportTransaction) : Prop :=
  match t with
  | .advance orderId _ .flushed _ => orderId ∉ other.exposed
  | _ => True

private theorem Read.stable {pending : List UUID} {rows rows' : List Row} {orderId : UUID}
    (h : Read db context pending rows) (target : OrderExecutionStatus)
    (hpending : orderId ∈ context.affected.map (·.id) → orderId ∉ pending)
    (hrow : Row.order orderId ∈ rows') (hfree : ¬ ∃ row ∈ rows', row ∈ rows) :
    Read (db.updateOrder orderId fun order ↦ { order with executionStatus := target }) context
      pending rows := by
  intro order horder
  obtain ⟨hlive, hlocked⟩ := h order horder
  have hne : order.id ≠ orderId := by
    rintro rfl
    cases hlocked with
    | inl hin => exact hpending (List.mem_map_of_mem horder) hin
    | inr hin => exact hfree ⟨_, hrow, hin⟩
  refine ⟨?_, hlocked⟩
  rw [Live, order?_advance target hne]
  exact hlive

private theorem Fact.of_read {t : ReportTransaction}
    (h : ∀ context pending rows, Read db context pending rows → t.rows = rows →
      (∀ orderId ∈ context.affected.map (·.id), orderId ∈ pending → orderId ∈ t.exposed) →
      Read db' context pending rows) (hfact : Fact db t) : Fact db' t := by
  cases t with
  | advance orderId target point rows => cases point <;> exact hfact
  | report request point rows =>
    cases point with
    | selecting => trivial
    | locking planId pending => trivial
    | lockingOrders context pending =>
      refine h context pending rows hfact rfl fun orderId hid hin ↦ ?_
      exact List.mem_filter.mpr ⟨hid, by simpa using hin⟩
    | assessed context outcome =>
      exact ⟨h context [] rows hfact.1 rfl fun _ _ hin ↦ (by cases hin), hfact.2⟩

/-- The reports keep what they have read beside the commits that do not disturb it. -/
theorem reports_keeps :
    (reports thresholdSeconds).KeepsUnder Undisturbed (fun _ ↦ True) Fact where
  symm := fun a b ⟨row, ha, hb⟩ ↦ ⟨row, hb, ha⟩
  begins := by
    intro db t h
    cases h <;> trivial
  statement := by
    intro db t t' _ hfact h
    cases h with
    | lockAdvanced horder => exact List.mem_cons_self
    | advance hnext => exact hfact
    | select hplan => trivial
    | lockRow => trivial
    | readMemberships hresolve hplan =>
      intro order horder
      exact ⟨(resolve_live hresolve order horder).1, .inl (resolve_live hresolve order horder).2⟩
    | lockOrder =>
      intro order horder
      obtain ⟨hlive, hlocked⟩ := hfact order horder
      refine ⟨hlive, ?_⟩
      rw [List.mem_cons] at hlocked ⊢
      rcases hlocked with (hid | hin) | hin
      · exact .inr (.inl (congrArg Row.order hid))
      · exact .inl hin
      · exact .inr (.inr hin)
    | assess hassess =>
      refine ⟨hfact, fun o ho ↦ ?_⟩
      subst ho
      exact assess_decided hassess
  commits := fun _ _ _ _ _ _ ↦ trivial
  stable := by
    intro db t db' other _ hfact hcommit hfree hok hother
    cases hcommit with
    | @advance orderId target rows =>
      refine Fact.of_read (fun context pending rows' hread hrows hexposed ↦ ?_) hother
      refine hread.stable target (fun hid hin ↦ hok (hexposed orderId hid hin)) hfact ?_
      rw [← hrows]
      exact hfree
    | @report request context outcome rows =>
      refine Fact.of_read (fun context pending rows' hread _ _ order horder ↦ ?_) hother
      refine ⟨?_, (hread order horder).2⟩
      cases outcome with
      | none => exact (hread order horder).1
      | some outcome =>
        rw [Live, Option.elim_some, order?_apply]
        exact (hread order horder).1

/-- As long as no affected order is advanced between the read of the memberships and the lock of
its row, the snapshots of an incident are the committed statuses when it commits, and what it
decides is decided on them. -/
theorem reported_orders_live {db : Database} {s s' : Protocol.State Database ReportTransaction}
    (hrun : (reports thresholdSeconds).RunUnder Undisturbed ⟨db, []⟩ s)
    (hstep : (reports thresholdSeconds).Step s s') {new : List Incident}
    (hnew : s'.table.incidents = s.table.incidents ++ new) :
    ∀ incident ∈ new, ∀ affected ∈ incident.affectedOrders,
      ∃ order, s'.table.order? affected.orderId = some order ∧
        DecidedOn incident.incidentType affected order.executionStatus := by
  have hholds : (reports thresholdSeconds).Holds (fun _ ↦ True) Fact s :=
    (Protocol.Holds.of_idle trivial).runUnder reports_keeps hrun
  have hnone : s'.table.incidents = s.table.incidents → new = [] := by
    intro hsame
    rw [hsame] at hnew
    exact List.self_eq_append_right.mp hnew
  intro incident hincident affected haffected
  cases hstep with
  | begin => rw [hnone rfl] at hincident; cases hincident
  | statement => rw [hnone rfl] at hincident; cases hincident
  | rollback => rw [hnone rfl] at hincident; cases hincident
  | @commit table table' before after t hcommit =>
    have hfact := hholds.facts t (List.mem_append_right _ List.mem_cons_self)
    cases hcommit with
    | advance => rw [hnone rfl] at hincident; cases hincident
    | @report request context outcome rows =>
      obtain ⟨hread, hdecided⟩ := hfact
      cases outcome with
      | none => rw [hnone rfl] at hincident; cases hincident
      | some outcome =>
        have hincidents : (outcome.apply table).incidents =
            table.incidents ++ [{ outcome.incident with id := table.nextId }] := by
          unfold Outcome.apply
          dsimp only
          split <;> rfl
        dsimp only [Option.elim_some] at hnew ⊢
        rw [hincidents, List.append_cancel_left_eq] at hnew
        rw [← hnew, List.mem_singleton] at hincident
        subst hincident
        obtain ⟨order, horder, hid, hon⟩ := hdecided outcome rfl affected haffected
        have hlive := (hread order horder).1
        rw [Live, ← order?_apply outcome] at hlive
        obtain ⟨row, hrow, hstatus⟩ := Option.map_eq_some_iff.mp hlive
        refine ⟨row, hid ▸ hrow, ?_⟩
        rw [hstatus]
        exact hon

/-! ### An order that is picked up in between -/

private def pickedOrder : Order :=
  ⟨1, "", 1, 1, 1, 1, 2, 0, 0, 0, 3600, 0, 1, .pickupInProgress, .normal⟩

private def brokenVehicle : Vehicle := ⟨1, "", 10, .active, 1, 0⟩

private def brokenRoute : VehicleRoute :=
  ⟨1, 1, 1, 1, 1, 1, 2, .active, 0, 3000, none, none, 0, 3000, 10, none, none, []⟩

private def brokenPlan : DeliveryPlan :=
  ⟨1, 1, 1, 1, none, .current, .valid, 0, 3000, 1, 1, 0, none, [brokenRoute],
    [⟨1, .assigned, some 1, none, none⟩]⟩

private def brokenStart : Database :=
  ⟨[pickedOrder], [brokenVehicle], [], [], [], [brokenPlan], [], [], 2⟩

private def brokenRequest : Request := .vehicle 1 1 0 .recorded

private def brokenContext : Context :=
  .vehicle ⟨brokenPlan, brokenRoute, brokenVehicle, [pickedOrder]⟩

private def brokenOutcome : Outcome :=
  ⟨VehicleIncidentWorkflow.unavailableIncident 2
    ⟨brokenPlan, brokenRoute, brokenVehicle, [pickedOrder]⟩ 1 0, some (1, 1, 0), none⟩

private def brokenRows : List Row := [.vehicle 1, .plan 1, .route 1]

-- The report has read the order, which is then picked up before its row is locked.
private def brokenRead : ReportTransaction :=
  .report brokenRequest (.lockingOrders brokenContext [1]) brokenRows

private theorem brokenStep (thresholdSeconds : Int) (db : Database) {t t' : ReportTransaction}
    (h : ReportTransaction.Statement thresholdSeconds db t t') :
    (reports thresholdSeconds).StepUnder Undisturbed ⟨db, [t]⟩ ⟨db, [t']⟩ :=
  Protocol.StepUnder.statement_head h fun _ ho ↦ (by cases ho)

private theorem brokenRead_run (thresholdSeconds : Int) :
    (reports thresholdSeconds).RunUnder Undisturbed ⟨brokenStart, []⟩
      ⟨brokenStart, [brokenRead]⟩ := by
  have hbegin : (reports thresholdSeconds).StepUnder Undisturbed ⟨brokenStart, []⟩
      ⟨brokenStart, [.report brokenRequest .selecting []]⟩ :=
    .begin (.report brokenRequest) fun _ ho ↦ (by cases ho)
  have hselect := (Relation.ReflTransGen.single hbegin).tail
    (brokenStep thresholdSeconds brokenStart (.select rfl))
  have hlocks := ((hselect.tail (brokenStep _ _ .lockRow)).tail (brokenStep _ _ .lockRow)).tail
    (brokenStep _ _ .lockRow)
  exact hlocks.tail (brokenStep _ _ (.readMemberships rfl rfl))

private def brokenAssessed : ReportTransaction :=
  .report brokenRequest (.assessed brokenContext (some brokenOutcome)) (.order 1 :: brokenRows)

private theorem brokenAssessed_run (thresholdSeconds : Int) :
    (reports thresholdSeconds).RunUnder Undisturbed ⟨brokenStart, []⟩
      ⟨brokenStart, [brokenAssessed]⟩ :=
  ((brokenRead_run thresholdSeconds).tail (brokenStep _ _ .lockOrder)).tail
    (brokenStep _ _ (.assess rfl))

/-- A breakdown that nothing disturbs records the live status of its order. -/
theorem reported_orders_live_breakdown :
    ∃ s s' incident, (reports 900).RunUnder Undisturbed ⟨brokenStart, []⟩ s ∧
      (reports 900).Step s s' ∧ s'.table.incidents = s.table.incidents ++ [incident] ∧
      incident.affectedOrders.length = 1 ∧
      ∀ affected ∈ incident.affectedOrders,
        ∃ order, s'.table.order? affected.orderId = some order ∧
          DecidedOn incident.incidentType affected order.executionStatus := by
  have hcommit : (reports 900).Step ⟨brokenStart, [brokenAssessed]⟩
      ⟨brokenOutcome.apply brokenStart, []⟩ :=
    Protocol.Step.commit_head .report
  exact ⟨_, _, _, brokenAssessed_run 900, hcommit, rfl, rfl,
    reported_orders_live (brokenAssessed_run 900) hcommit rfl _ List.mem_cons_self⟩

private def pickedUp : Database :=
  brokenStart.updateOrder 1 fun order ↦ { order with executionStatus := .pickedUp }

private theorem pickedUp_run (thresholdSeconds : Int) :
    (reports thresholdSeconds).Run ⟨brokenStart, []⟩ ⟨pickedUp, [brokenAssessed]⟩ := by
  have hread : (reports thresholdSeconds).Run ⟨brokenStart, []⟩ ⟨brokenStart, [brokenRead]⟩ :=
    Protocol.run_of_runUnder (brokenRead_run thresholdSeconds)
  have hfree : ∀ t : ReportTransaction, t.rows = [] ∨ t.rows = [.order 1] →
      ∀ other ∈ [brokenRead], ¬ (reports thresholdSeconds).conflict t other := by
    intro t ht other ho
    rw [List.mem_singleton] at ho
    subst ho
    rintro ⟨row, hrow, hin⟩
    cases ht with
    | inl ht => rw [ht] at hrow; cases hrow
    | inr ht =>
      rw [ht, List.mem_singleton] at hrow
      subst hrow
      exact absurd hin (by decide)
  have hbegin : (reports thresholdSeconds).Step ⟨brokenStart, [brokenRead]⟩
      ⟨brokenStart, [.advance 1 .pickedUp .locking [], brokenRead]⟩ :=
    .begin (.advance 1 .pickedUp) (hfree _ (.inl rfl))
  have hlock : (reports thresholdSeconds).Step
      ⟨brokenStart, [.advance 1 .pickedUp .locking [], brokenRead]⟩
      ⟨brokenStart, [.advance 1 .pickedUp (.locked pickedOrder) [.order 1], brokenRead]⟩ :=
    Protocol.Step.statement_head (.lockAdvanced rfl) (hfree _ (.inr rfl))
  have hflush : (reports thresholdSeconds).Step
      ⟨brokenStart, [.advance 1 .pickedUp (.locked pickedOrder) [.order 1], brokenRead]⟩
      ⟨brokenStart, [.advance 1 .pickedUp .flushed [.order 1], brokenRead]⟩ :=
    Protocol.Step.statement_head (.advance rfl) (hfree _ (.inr rfl))
  have hcommit : (reports thresholdSeconds).Step
      ⟨brokenStart, [.advance 1 .pickedUp .flushed [.order 1], brokenRead]⟩
      ⟨pickedUp, [brokenRead]⟩ :=
    Protocol.Step.commit_head .advance
  have hadvanced := (((hread.tail hbegin).tail hlock).tail hflush).tail hcommit
  exact (hadvanced.tail (brokenStep _ _ .lockOrder).step).tail (brokenStep _ _ (.assess rfl)).step

/-- An order that is picked up between the read of the memberships and the lock of its row is
recorded with the status before, and no handover is asked for. -/
theorem picked_up_unnoticed :
    ¬ ∀ (thresholdSeconds : Int) (db : Database)
      (s s' : Protocol.State Database ReportTransaction),
      (reports thresholdSeconds).Run ⟨db, []⟩ s → (reports thresholdSeconds).Step s s' →
      ∀ new, s'.table.incidents = s.table.incidents ++ new → ∀ incident ∈ new,
        ∀ affected ∈ incident.affectedOrders, ∃ order,
          s'.table.order? affected.orderId = some order ∧
            affected.executionStatusSnapshot = order.executionStatus := by
  intro hclaim
  have hcommit : (reports 900).Step ⟨pickedUp, [brokenAssessed]⟩
      ⟨brokenOutcome.apply pickedUp, []⟩ :=
    Protocol.Step.commit_head .report
  obtain ⟨order, horder, hstatus⟩ := hclaim 900 brokenStart _ _ (pickedUp_run 900) hcommit _ rfl _
    List.mem_cons_self (assessVehicleOrder 1 pickedOrder) List.mem_cons_self
  have hlive : (brokenOutcome.apply pickedUp).order? 1 =
      some { pickedOrder with executionStatus := .pickedUp } := by decide +kernel
  have hid : (assessVehicleOrder 1 pickedOrder).orderId = 1 := rfl
  dsimp only at horder
  rw [hid, hlive] at horder
  cases horder
  cases hstatus

end PenroseRoute.Incidents
