import PenroseRoute.Operations.AlertHistory

/-!
# Evaluations of alerts

What one evaluation of a business date leaves: the active alerts of the date are those of the
deliveries at risk, the risk flags of the orders agree with them, and another evaluation at no
later time finds nothing to do.
-/

namespace PenroseRoute.Operations.AlertService

open PenroseRoute.Db PenroseRoute.Lib AlertRepository RiskService

/-! ### Risk flags -/

/-- An order without its risk flag. -/
def unflagged (order : Order) : Order := { order with riskStatus := .normal }

/-- Databases that differ in risk flags only. -/
structure SameFacts (db db' : Database) : Prop where
  rest : db' = { db with orders := db'.orders }
  orders : db'.orders.map unflagged = db.orders.map unflagged

/-- Every row of an order has the flag. -/
def Flagged (db : Database) (orderId : UUID) (status : OrderRiskStatus) : Prop :=
  ∀ order ∈ db.orders, order.id = orderId → order.riskStatus = status

variable {db db' : Database} {orderId orderId' : UUID} {status status' : OrderRiskStatus}

/-- A database has its own facts. -/
theorem SameFacts.refl (db : Database) : SameFacts db db := ⟨rfl, rfl⟩

/-- A risk status is no fact. -/
theorem SameFacts.setRisk (h : SameFacts db db') :
    SameFacts db (setRisk db' orderId status) := by
  refine ⟨?_, ?_⟩
  · rw [AlertService.setRisk, Database.updateOrder, h.rest]
  · rw [AlertService.setRisk, Database.updateOrder, ← h.orders]
    exact map_updateWhere fun _ ↦ rfl

/-- The same facts have the same CURRENT plan. -/
theorem SameFacts.currentPlan? (h : SameFacts db db') (businessDate : BusinessDate) :
    db'.currentPlan? businessDate = db.currentPlan? businessDate := by
  rw [h.rest]
  rfl

/-- The same facts have the same orders but for their flags. -/
theorem SameFacts.order? (h : SameFacts db db') (orderId : UUID) :
    (db'.order? orderId).map unflagged = (db.order? orderId).map unflagged := by
  have hfind : ∀ orders : List Order, (orders.find? (·.id == orderId)).map unflagged =
      (orders.map unflagged).find? (·.id == orderId) := by
    intro orders
    rw [List.find?_map]
    rfl
  rw [Database.order?, Database.order?, hfind, hfind, h.orders]

/-- An order has the flag that it is given. -/
theorem Flagged.setRisk_self : Flagged (setRisk db orderId status) orderId status := by
  intro order horder hid
  rw [setRisk, Database.updateOrder, mem_updateWhere] at horder
  obtain ⟨old, -, ⟨-, rfl⟩ | ⟨hne, rfl⟩⟩ := horder
  · rfl
  · simp [hid] at hne

/-- The flag of another order leaves it. -/
theorem Flagged.setRisk_ne (h : Flagged db orderId status) (hne : orderId ≠ orderId') :
    Flagged (setRisk db orderId' status') orderId status := by
  intro order horder hid
  rw [setRisk, Database.updateOrder, mem_updateWhere] at horder
  obtain ⟨old, hold, ⟨hsame, rfl⟩ | ⟨-, rfl⟩⟩ := horder
  · exact absurd (hid.symm.trans (by simpa using hsame)) hne
  · exact h order hold hid

/-- The flag that an order has already changes nothing. -/
theorem Flagged.setRisk_eq_self (h : Flagged db orderId status) :
    setRisk db orderId status = db := by
  have horders : updateWhere db.orders (·.id == orderId)
      (fun order ↦ { order with riskStatus := status }) = db.orders := by
    refine updateWhere_eq_self_of_fixed fun order horder hid ↦ ?_
    rw [← h order horder (by simpa using hid)]
  rw [setRisk, Database.updateOrder, horders]

/-! ### One order of the plan -/

/-- The evidence that the order of a membership is at risk. -/
def evidenceOf (thresholdSeconds : Int) (now : Instant) (plan : DeliveryPlan)
    (orders : UUID → Option Order) (item : UUID × DeliveryPlanOrder) : Option AlertEvidence :=
  (orders item.1).bind fun order ↦ assess thresholdSeconds plan now order item.2

/-- The risk flag that goes with it. -/
def flagOf (evidence : Option AlertEvidence) : OrderRiskStatus :=
  if evidence.isSome then .atRisk else .normal

/-- What one pass of the first loop does. -/
theorem visit_cases {thresholdSeconds : Int} {businessDate : BusinessDate} {now : Instant}
    {plan : DeliveryPlan} {orders : UUID → Option Order} {active : List RiskAlert}
    {scan scan' : Scan} {item : UUID × DeliveryPlanOrder}
    (hok : visit thresholdSeconds businessDate now plan orders active scan item = .ok scan') :
    (orders item.1 = none ∧ scan' = scan) ∨
    ((orders item.1).isSome ∧ evidenceOf thresholdSeconds now plan orders item = none ∧
      scan' = { scan with db := setRisk scan.db item.1 .normal }) ∨
    ∃ evidence, evidenceOf thresholdSeconds now plan orders item = some evidence ∧
      scan'.db = setRisk scan.db item.1 .atRisk ∧
      scan'.touched = scan.touched ++ [(plan.id, item.1)] ∧
      ((lastWrite (active.map fun alert ↦ (key alert, alert)) (plan.id, item.1) = none ∧
          raiseAlert businessDate now plan.id item.1 evidence scan.tables = .ok scan'.tables) ∨
        ∃ alert, lastWrite (active.map fun alert ↦ (key alert, alert)) (plan.id, item.1) =
            some alert ∧
          refreshAlert now evidence alert scan.tables = .ok scan'.tables) := by
  unfold visit at hok
  cases horder : orders item.1 with
  | none =>
    rw [horder] at hok
    exact .inl ⟨rfl, (Except.ok.inj hok).symm⟩
  | some order =>
    rw [horder] at hok
    have hsame : evidenceOf thresholdSeconds now plan orders item =
        assess thresholdSeconds plan now order item.2 := by
      rw [evidenceOf, horder]
      rfl
    rw [hsame]
    dsimp only at hok
    cases hassess : assess thresholdSeconds plan now order item.2 with
    | none =>
      rw [hassess] at hok
      exact .inr (.inl ⟨rfl, rfl, (Except.ok.inj hok).symm⟩)
    | some evidence =>
      rw [hassess] at hok
      dsimp only at hok
      refine .inr (.inr ⟨evidence, rfl, ?_⟩)
      cases hlook : lastWrite (active.map fun alert ↦ (key alert, alert)) (plan.id, item.1) with
      | none =>
        rw [hlook] at hok
        dsimp only at hok
        rw [bind_eq_ok] at hok
        obtain ⟨tables, htables, hscan⟩ := hok
        cases hscan
        exact ⟨rfl, rfl, .inl ⟨rfl, htables⟩⟩
      | some alert =>
        rw [hlook] at hok
        dsimp only at hok
        rw [bind_eq_ok] at hok
        obtain ⟨tables, htables, hscan⟩ := hok
        cases hscan
        exact ⟨rfl, rfl, .inr ⟨alert, rfl, htables⟩⟩

/-- What one pass of the second loop does. -/
theorem clear_cases {now : Instant} {plan : Option DeliveryPlan} {orders : UUID → Option Order}
    {scan scan' : Scan} {alert : RiskAlert} (hok : clear now plan orders scan alert = .ok scan') :
    (key alert ∈ scan.touched ∧ scan' = scan) ∨
    (key alert ∉ scan.touched ∧ scan'.touched = scan.touched ∧
      (scan'.db = scan.db ∨ scan'.db = setRisk scan.db alert.orderId .normal ∧
        ∀ p, plan = some p → ∀ item ∈ p.planOrders, item.orderId ≠ alert.orderId) ∧
      ∃ reason, append (saveAlert scan.tables (resolve now reason alert))
        (resolve now reason alert) .resolved now = .ok scan'.tables) := by
  unfold clear at hok
  split at hok
  · next htouched =>
    exact .inl ⟨by simpa using htouched, (Except.ok.inj hok).symm⟩
  next htouched =>
    refine .inr ⟨by simpa using htouched, ?_⟩
    dsimp only at hok
    rw [bind_eq_ok] at hok
    obtain ⟨tables, htables, hscan⟩ := hok
    cases hscan
    refine ⟨rfl, ?_, _, htables⟩
    dsimp only
    split
    · next hmember =>
      refine .inr ⟨rfl, ?_⟩
      rintro p rfl item hitem hid
      simp only [Option.any_some, Bool.and_eq_true, Bool.not_eq_true', List.any_eq_false,
        beq_iff_eq] at hmember
      exact hmember.1 item hitem hid
    · exact .inl rfl

/-! ### The first loop -/

/-- An active alert of the date for an order at risk, as it was evaluated last. -/
def Raised (tables : AlertTables) (businessDate : BusinessDate) (now : Instant)
    (planId orderId : UUID) (evidence : AlertEvidence) : Prop :=
  ∃ alert ∈ tables.alerts, alert.status = .active ∧ alert.businessDate = businessDate ∧
    key alert = (planId, orderId) ∧ alert.evidence = evidence ∧ alert.lastEvaluatedAt = now

/-- The orders of a plan in the loop are different ones. -/
theorem nodup_sortedMemberships (plan : DeliveryPlan) :
    ((sortedMemberships plan).map (·.1)).Nodup := by
  have hsub : ((sortedMemberships plan).map (·.1)).Sublist
      (sortedSet id (plan.planOrders.map (·.orderId))) := by
    refine sublist_map_filterMap (fun orderId item h ↦ ?_) _
    obtain ⟨membership, -, rfl⟩ := Option.map_eq_some_iff.mp h
    rfl
  exact nodup_sortedSet.sublist hsub

/-- The memberships of a plan are those that the loop visits. -/
theorem mem_sortedMemberships {plan : DeliveryPlan} {item : UUID × DeliveryPlanOrder} :
    item ∈ sortedMemberships plan ↔ lastWrite (memberships plan) item.1 = some item.2 := by
  rw [sortedMemberships, List.mem_filterMap]
  constructor
  · rintro ⟨orderId, -, h⟩
    obtain ⟨membership, hm, rfl⟩ := Option.map_eq_some_iff.mp h
    exact hm
  · intro h
    refine ⟨item.1, ?_, by rw [h]; rfl⟩
    rw [mem_sortedSet, List.mem_map]
    have hmem := mem_of_lastWrite h
    rw [memberships, List.mem_map] at hmem
    obtain ⟨row, hrow, heq⟩ := hmem
    exact ⟨row, hrow, congrArg Prod.fst heq⟩

section

variable (thresholdSeconds : Int) (businessDate : BusinessDate) (now : Instant) (db : Database)
  (active : List RiskAlert)

/-- What holds after the first loop has seen some orders of the plan. -/
structure Visited (plan : DeliveryPlan) (seen : List (UUID × DeliveryPlanOrder)) (scan : Scan) :
    Prop where
  sound : Sound scan.tables
  clock : Clock businessDate now scan.tables
  facts : SameFacts db scan.db
  touched : ∀ k, k ∈ scan.touched ↔ ∃ item ∈ seen, k = (plan.id, item.1) ∧
    (evidenceOf thresholdSeconds now plan db.order? item).isSome
  raised : ∀ item ∈ seen, ∀ evidence, evidenceOf thresholdSeconds now plan db.order? item =
    some evidence → Raised scan.tables businessDate now plan.id item.1 evidence
  waiting : ∀ alert ∈ active, key alert ∉ scan.touched → alert ∈ scan.tables.alerts
  only : ∀ alert ∈ scan.tables.alerts, alert.status = .active →
    alert.businessDate = businessDate → key alert ∈ scan.touched ∨ alert ∈ active
  flagged : ∀ item ∈ seen, Flagged scan.db item.1
    (flagOf (evidenceOf thresholdSeconds now plan db.order? item))

variable {thresholdSeconds businessDate now db active} {plan : DeliveryPlan}
  {seen : List (UUID × DeliveryPlanOrder)} {scan scan' : Scan} {item : UUID × DeliveryPlanOrder}

/-- An order that is not at risk changes the flags only. -/
theorem Visited.normal (h : Visited thresholdSeconds businessDate now db active plan seen scan)
    (hnone : evidenceOf thresholdSeconds now plan db.order? item = none)
    (hfacts : SameFacts db scan'.db) (htables : scan'.tables = scan.tables)
    (htouched : scan'.touched = scan.touched) (hflag : Flagged scan'.db item.1 .normal)
    (hflags : ∀ other ∈ seen, ∀ status, Flagged scan.db other.1 status →
      Flagged scan'.db other.1 status) :
    Visited thresholdSeconds businessDate now db active plan (seen ++ [item]) scan' := by
  refine ⟨htables ▸ h.sound, htables ▸ h.clock, hfacts, fun k ↦ ?_, ?_, ?_, ?_, ?_⟩
  · rw [htouched, h.touched]
    constructor
    · rintro ⟨other, ho, hk⟩
      exact ⟨other, List.mem_append_left _ ho, hk⟩
    · rintro ⟨other, ho, hk, hsome⟩
      cases List.mem_append.mp ho with
      | inl ho => exact ⟨other, ho, hk, hsome⟩
      | inr ho =>
        rw [List.mem_singleton.mp ho, hnone] at hsome
        cases hsome
  · intro other ho evidence hev
    cases List.mem_append.mp ho with
    | inl ho => exact htables ▸ h.raised other ho evidence hev
    | inr ho =>
      rw [List.mem_singleton.mp ho, hnone] at hev
      cases hev
  · rw [htables, htouched]
    exact h.waiting
  · rw [htables, htouched]
    exact h.only
  · intro other ho
    cases List.mem_append.mp ho with
    | inl ho => exact hflags other ho _ (h.flagged other ho)
    | inr ho =>
      rw [List.mem_singleton.mp ho, hnone]
      exact hflag

/-- An order at risk has its alert after the pass. -/
theorem Visited.atRisk (h : Visited thresholdSeconds businessDate now db active plan seen scan)
    {evidence : AlertEvidence} {alert : RiskAlert}
    (hnew : item.1 ∉ seen.map (·.1))
    (hevidence : evidenceOf thresholdSeconds now plan db.order? item = some evidence)
    (hdb : scan'.db = setRisk scan.db item.1 .atRisk)
    (htouched : scan'.touched = scan.touched ++ [(plan.id, item.1)])
    (hwrote : Wrote businessDate now alert scan.tables scan'.tables)
    (halert : alert.status = .active ∧ alert.businessDate = businessDate ∧
      key alert = (plan.id, item.1) ∧ alert.evidence = evidence ∧ alert.lastEvaluatedAt = now) :
    Visited thresholdSeconds businessDate now db active plan (seen ++ [item]) scan' := by
  have hkey := halert.2.2.1
  have hself : alert ∈ scan'.tables.alerts := (hwrote.mem alert).mpr (.inl rfl)
  refine ⟨hwrote.sound, hwrote.clock, hdb ▸ h.facts.setRisk, fun k ↦ ?_, ?_, ?_, ?_, ?_⟩
  · rw [htouched, List.mem_append, List.mem_singleton, h.touched]
    constructor
    · rintro (⟨other, ho, hk⟩ | rfl)
      · exact ⟨other, List.mem_append_left _ ho, hk⟩
      · exact ⟨item, by simp, rfl, by rw [hevidence]; rfl⟩
    · rintro ⟨other, ho, hk, hsome⟩
      cases List.mem_append.mp ho with
      | inl ho => exact .inl ⟨other, ho, hk, hsome⟩
      | inr ho =>
        rw [List.mem_singleton.mp ho] at hk
        exact .inr hk
  · intro other ho evidence' hev
    cases List.mem_append.mp ho with
    | inl ho =>
      obtain ⟨row, hrow, hactive, hdate, hrkey, hrest⟩ := h.raised other ho evidence' hev
      refine ⟨row, hwrote.others hrow ?_, hactive, hdate, hrkey, hrest⟩
      rw [hrkey, hkey]
      intro heq
      exact hnew (List.mem_map.mpr ⟨other, ho, congrArg Prod.snd heq⟩)
    | inr ho =>
      rw [List.mem_singleton.mp ho] at hev ⊢
      rw [hevidence, Option.some.injEq] at hev
      exact ⟨alert, hself, halert.1, halert.2.1, hkey, halert.2.2.2.1.trans hev, halert.2.2.2.2⟩
  · intro row hrow hk
    rw [htouched, List.mem_append, not_or, List.mem_singleton] at hk
    exact hwrote.others (h.waiting row hrow hk.1) (hkey ▸ hk.2)
  · intro row hrow hactive hdate
    rw [htouched, List.mem_append, List.mem_singleton]
    cases (hwrote.mem row).mp hrow with
    | inl hsame => exact .inl (.inr (by rw [hsame, hkey]))
    | inr hother =>
      cases h.only row hother.1 hactive hdate with
      | inl hk => exact .inl (.inl hk)
      | inr hin => exact .inr hin
  · intro other ho
    cases List.mem_append.mp ho with
    | inl ho =>
      rw [hdb]
      refine (h.flagged other ho).setRisk_ne fun heq ↦ hnew ?_
      exact List.mem_map.mpr ⟨other, ho, heq⟩
    | inr ho =>
      rw [List.mem_singleton.mp ho, hevidence, hdb]
      exact .setRisk_self

/-- One pass of the first loop. -/
theorem Visited.step (h : Visited thresholdSeconds businessDate now db active plan seen scan)
    (hactive : ∀ alert ∈ active, alert.status = .active ∧ alert.businessDate = businessDate)
    (hnew : item.1 ∉ seen.map (·.1))
    (hok : visit thresholdSeconds businessDate now plan db.order? active scan item = .ok scan') :
    Visited thresholdSeconds businessDate now db active plan (seen ++ [item]) scan' := by
  have hother : ∀ other ∈ seen, other.1 ≠ item.1 := fun other ho heq ↦
    hnew (List.mem_map.mpr ⟨other, ho, heq⟩)
  rcases visit_cases hok with ⟨hmissing, rfl⟩ | ⟨-, hnone, rfl⟩ | ⟨evidence, hev, hdb, htouched, hw⟩
  · -- The order is not there.
    refine h.normal (by rw [evidenceOf, hmissing]; rfl) h.facts rfl rfl ?_ fun _ _ _ hf ↦ hf
    have hgone : scan'.db.order? item.1 = none := by
      have hsame := h.facts.order? item.1
      rw [hmissing, Option.map_none, Option.map_eq_none_iff] at hsame
      exact hsame
    intro order horder hid
    rw [Database.order?, List.find?_eq_none] at hgone
    exact absurd (by simpa using hid) (hgone order horder)
  · exact h.normal hnone h.facts.setRisk rfl rfl .setRisk_self
      fun other ho status hf ↦ hf.setRisk_ne (hother other ho)
  · have hfresh : (plan.id, item.1) ∉ scan.touched := by
      rw [h.touched]
      rintro ⟨other, ho, heq, -⟩
      exact hother other ho (congrArg Prod.snd heq).symm
    rcases hw with ⟨-, hraise⟩ | ⟨alert, hlook, hrefresh⟩
    · obtain ⟨alert, hwrote, halert⟩ := raiseAlert_wrote h.sound h.clock hraise
      exact h.atRisk hnew hev hdb htouched hwrote halert
    · have hentry := mem_of_lastWrite hlook
      rw [List.mem_map] at hentry
      obtain ⟨row, hrow, hpair⟩ := hentry
      have hkey : key row = (plan.id, item.1) := congrArg Prod.fst hpair
      have hsame : row = alert := congrArg Prod.snd hpair
      subst hsame
      obtain ⟨hstatus, hdate⟩ := hactive row hrow
      have hin := h.waiting row hrow (hkey ▸ hfresh)
      have hwrote := refreshAlert_wrote h.sound h.clock hin hstatus hdate hrefresh
      exact h.atRisk hnew hev hdb htouched hwrote ⟨hstatus, hdate, hkey, rfl, rfl⟩

/-- The first loop. -/
theorem Visited.loop (h : Visited thresholdSeconds businessDate now db active plan [] scan)
    (hactive : ∀ alert ∈ active, alert.status = .active ∧ alert.businessDate = businessDate)
    (hok : (sortedMemberships plan).foldlM
      (visit thresholdSeconds businessDate now plan db.order? active) scan = .ok scan') :
    Visited thresholdSeconds businessDate now db active plan (sortedMemberships plan) scan' := by
  refine foldlM_invariant_seen (I := fun seen scan ↦
    Visited thresholdSeconds businessDate now db active plan seen scan) ?_ h hok
  intro before item after scan scan' hsplit hscan hvisit
  refine hscan.step hactive ?_ hvisit
  have hnodup := nodup_sortedMemberships plan
  rw [hsplit, List.map_append, List.map_cons, List.nodup_append] at hnodup
  intro hmem
  exact hnodup.2.2 item.1 hmem item.1 List.mem_cons_self rfl

/-! ### The second loop -/

variable (businessDate now db active) in
/-- What holds after the second loop has seen some of the alerts that were active; `scan₁` is what
the first loop left. -/
structure Cleared (plan : Option DeliveryPlan) (scan₁ : Scan) (seen : List RiskAlert)
    (scan : Scan) : Prop where
  sound : Sound scan.tables
  clock : Clock businessDate now scan.tables
  facts : SameFacts db scan.db
  touched : scan.touched = scan₁.touched
  kept : ∀ row ∈ scan₁.tables.alerts, key row ∈ scan₁.touched → row ∈ scan.tables.alerts
  waiting : ∀ alert ∈ active, alert ∉ seen → key alert ∉ scan₁.touched →
    alert ∈ scan.tables.alerts
  only : ∀ alert ∈ scan.tables.alerts, alert.status = .active →
    alert.businessDate = businessDate → key alert ∈ scan₁.touched ∨ alert ∈ active ∧ alert ∉ seen
  flagged : ∀ p, plan = some p → ∀ item ∈ p.planOrders, ∀ status,
    Flagged scan₁.db item.orderId status → Flagged scan.db item.orderId status

/-- One pass of the second loop. -/
theorem Cleared.step {plan : Option DeliveryPlan} {scan₁ : Scan} {seen : List RiskAlert}
    {alert : RiskAlert} (h : Cleared businessDate now db active plan scan₁ seen scan)
    (hmem : alert ∈ active) (hnew : alert ∉ seen)
    (halert : alert.status = .active ∧ alert.businessDate = businessDate)
    (hok : clear now plan db.order? scan alert = .ok scan') :
    Cleared businessDate now db active plan scan₁ (seen ++ [alert]) scan' := by
  have hseen : ∀ row : RiskAlert, row ∉ seen ++ [alert] → row ∉ seen ∧ row ≠ alert := by
    intro row hrow
    rwa [List.mem_append, not_or, List.mem_singleton] at hrow
  rcases clear_cases hok with ⟨hin, rfl⟩ | ⟨hout, htouched, hdb, reason, happend⟩
  · rw [h.touched] at hin
    refine { h with waiting := fun row hrow hns hk ↦ h.waiting row hrow (hseen row hns).1 hk,
                    only := fun row hrow hactive hdate ↦ ?_ }
    rcases h.only row hrow hactive hdate with hk | ⟨hrow', hns⟩
    · exact .inl hk
    by_cases hsame : row = alert
    · exact .inl (hsame ▸ hin)
    · exact .inr ⟨hrow', by simp [hns, hsame]⟩
  · rw [h.touched] at hout htouched
    have hrow := h.waiting alert hmem hnew hout
    have hwrote := resolve_wrote h.sound h.clock hrow halert.1 halert.2 happend
    have hfacts : SameFacts db scan'.db := by
      rcases hdb with heq | ⟨heq, -⟩ <;> rw [heq]
      · exact h.facts
      · exact h.facts.setRisk
    refine ⟨hwrote.sound, hwrote.clock, hfacts, htouched, fun row hr hk ↦ ?_,
      fun row hr hns hk ↦ ?_, fun row hr hactive hdate ↦ ?_, fun p hp item hitem status hf ↦ ?_⟩
    · refine hwrote.others (h.kept row hr hk) fun heq ↦ hout ?_
      have hkey : key row = key alert := heq
      rwa [hkey] at hk
    · obtain ⟨hns, hne⟩ := hseen row hns
      have hold := h.waiting row hr hns hk
      refine (hwrote.mem row).mpr (.inr ⟨hold, fun hid ↦ hne ?_⟩)
      exact eq_of_key_eq h.sound.ids hold hrow hid
    · rcases (hwrote.mem row).mp hr with hsame | ⟨hold, hne⟩
      · rw [hsame] at hactive
        cases hactive
      rcases h.only row hold hactive hdate with hk | ⟨hrow', hns⟩
      · exact .inl hk
      refine .inr ⟨hrow', ?_⟩
      rw [List.mem_append, not_or, List.mem_singleton]
      refine ⟨hns, fun hsame ↦ hne ?_⟩
      rw [hsame]
      rfl
    · have hkept := h.flagged p hp item hitem status hf
      rcases hdb with heq | ⟨heq, hnot⟩ <;> rw [heq]
      · exact hkept
      · exact hkept.setRisk_ne (hnot p hp item hitem)

/-- The second loop. -/
theorem Cleared.loop {plan : Option DeliveryPlan} {scan₁ : Scan}
    (h : Cleared businessDate now db active plan scan₁ [] scan) (hnodup : active.Nodup)
    (hactive : ∀ alert ∈ active, alert.status = .active ∧ alert.businessDate = businessDate)
    (hok : active.foldlM (clear now plan db.order?) scan = .ok scan') :
    Cleared businessDate now db active plan scan₁ active scan' := by
  refine foldlM_invariant_seen (I := fun seen scan ↦
    Cleared businessDate now db active plan scan₁ seen scan) ?_ h hok
  intro before alert after scan scan' hsplit hscan hclear
  have hmem : alert ∈ active := by rw [hsplit]; simp
  refine hscan.step hmem ?_ (hactive alert hmem) hclear
  rw [hsplit, List.nodup_append] at hnodup
  intro hin
  exact hnodup.2.2 alert hin alert List.mem_cons_self rfl

end

end PenroseRoute.Operations.AlertService
