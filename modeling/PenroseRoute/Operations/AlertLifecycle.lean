import PenroseRoute.Lib.Runs
import PenroseRoute.Operations.AlertEvaluation

/-!
# The lifecycle of alerts

Runs in which business dates are evaluated at any times and anything else changes the other tables
in between.
-/

namespace PenroseRoute.Operations.AlertService

open PenroseRoute.Db PenroseRoute.Lib AlertRepository RiskService

variable {thresholdSeconds : Int} {businessDate : BusinessDate} {now now' : Instant}
  {db db' : Database} {tables tables' : AlertTables} {plan : DeliveryPlan}
  {item : UUID × DeliveryPlanOrder} {evidence : AlertEvidence}

/-! ### What an evaluation reads -/

/-- The locked alerts are the ACTIVE ones of the date. -/
theorem mem_lockActive {alert : RiskAlert} :
    alert ∈ lockActiveForBusinessDate tables businessDate ↔
      alert ∈ tables.alerts ∧ alert.businessDate = businessDate ∧ alert.status = .active := by
  rw [lockActiveForBusinessDate, List.mem_insertionSort, List.mem_filter]
  simp

/-- The locked alerts are distinct. -/
theorem nodup_lockActive (h : Sound tables) :
    (lockActiveForBusinessDate tables businessDate).Nodup :=
  (List.perm_insertionSort _ _).nodup_iff.mpr ((List.Nodup.of_map _ h.ids).filter _)

/-- The clock of an evaluation is not behind the alerts of its date. -/
theorem clock_evaluationTime :
    Clock businessDate (evaluationTime tables businessDate now) tables := by
  intro alert halert hdate
  have hmem : alert.lastEvaluatedAt ∈
      (tables.alerts.filter (·.businessDate == businessDate)).map (·.lastEvaluatedAt) :=
    List.mem_map_of_mem (List.mem_filter.mpr ⟨halert, by simpa using hdate⟩)
  unfold evaluationTime latestEvaluationAt
  cases hmax : ((tables.alerts.filter (·.businessDate == businessDate)).map
      (·.lastEvaluatedAt)).max? with
  | none => rw [List.max?_eq_none_iff.mp hmax] at hmem; cases hmem
  | some latest => exact ((List.max?_eq_some_iff.mp hmax).2 _ hmem).trans (le_max_right _ _)

/-- The clock is not behind the time given. -/
theorem le_evaluationTime : now ≤ evaluationTime tables businessDate now := by
  unfold evaluationTime
  split
  · exact le_rfl
  · exact le_max_left _ _

/-- The clock does not run ahead of the alerts and of the time given. -/
theorem evaluationTime_le (h : Clock businessDate now tables) (hnow : now' ≤ now) :
    evaluationTime tables businessDate now' ≤ now := by
  unfold evaluationTime latestEvaluationAt
  cases hmax : ((tables.alerts.filter (·.businessDate == businessDate)).map
      (·.lastEvaluatedAt)).max? with
  | none => exact hnow
  | some latest =>
    refine max_le hnow ?_
    obtain ⟨alert, halert, rfl⟩ := List.mem_map.mp (List.max?_mem hmax)
    rw [List.mem_filter, beq_iff_eq] at halert
    exact h alert halert.1 halert.2

/-- The delay of a route does not shrink with time. -/
theorem routeDelaySeconds_mono (stops : List RouteStop) (h : now' ≤ now) :
    routeDelaySeconds stops now' ≤ routeDelaySeconds stops now := by
  unfold routeDelaySeconds
  split
  · exact le_rfl
  · next stop _ =>
    have hseconds : totalSeconds (now' - stop.plannedArrivalAt) ≤
        totalSeconds (now - stop.plannedArrivalAt) :=
      Int.tdiv_le_tdiv (by decide) (Int.sub_le_sub_right h _)
    omega

/-! ### Deliveries at risk -/

/-- A delivery that is under way towards its order and estimated to arrive within the threshold of
the end of its window, or later. -/
def AtRisk (thresholdSeconds : Int) (plan : DeliveryPlan) (now : Instant) (order : Order)
    (membership : DeliveryPlanOrder) : Prop :=
  ∃ route delivery, deliveryOf plan membership = some (route, delivery) ∧
    order.executionStatus ≠ .completed ∧ delivery.status ≠ .completed ∧
    delivery.timeWindowEndAt.getD order.deliveryWindowEndAt - timedelta thresholdSeconds ≤
      delivery.plannedArrivalAt + timedelta (routeDelaySeconds route.stops now)

/-- An order is given evidence exactly if its delivery is at risk. -/
theorem assess_isSome_iff {order : Order} {membership : DeliveryPlanOrder} :
    (assess thresholdSeconds plan now order membership).isSome ↔
      AtRisk thresholdSeconds plan now order membership := by
  unfold assess AtRisk
  cases hd : deliveryOf plan membership with
  | none => simp
  | some found =>
    obtain ⟨route, delivery⟩ := found
    dsimp only
    split
    · next hcompleted =>
      rw [Bool.or_eq_true, beq_iff_eq, beq_iff_eq] at hcompleted
      constructor
      · intro h
        cases h
      · rintro ⟨route', delivery', heq, horder, hstop, -⟩
        cases heq
        exact absurd hcompleted (by simp [horder, hstop])
    · next hopen =>
      rw [Bool.or_eq_true, beq_iff_eq, beq_iff_eq, not_or] at hopen
      have hstatus : ∀ eta windowEnd : Instant,
          (statusForEta thresholdSeconds eta windowEnd == .normal) = false ↔
            windowEnd - timedelta thresholdSeconds ≤ eta := by
        intro eta windowEnd
        unfold statusForEta
        split <;> simp_all
      split
      · next hnormal =>
        constructor
        · intro h
          cases h
        · rintro ⟨route', delivery', heq, -, -, hlate⟩
          cases heq
          rw [(hstatus _ _).mpr hlate] at hnormal
          cases hnormal
      · next hrisk =>
        exact ⟨fun _ ↦ ⟨route, delivery, rfl, hopen.1, hopen.2,
          (hstatus _ _).mp (by simpa using hrisk)⟩, fun _ ↦ rfl⟩

/-- A delivery at risk stays at risk while nothing but time changes. -/
theorem AtRisk.later {order : Order} {membership : DeliveryPlanOrder} (h : now' ≤ now)
    (hrisk : AtRisk thresholdSeconds plan now' order membership) :
    AtRisk thresholdSeconds plan now order membership := by
  obtain ⟨route, delivery, hd, horder, hstop, hlate⟩ := hrisk
  refine ⟨route, delivery, hd, horder, hstop, hlate.trans ?_⟩
  have hdelay := routeDelaySeconds_mono route.stops h
  exact Int.add_le_add_left (Int.mul_le_mul_of_nonneg_right hdelay (by decide)) _

/-- The risk flags are not read. -/
theorem evidenceOf_sameFacts (h : SameFacts db db') :
    evidenceOf thresholdSeconds now plan db'.order? item =
      evidenceOf thresholdSeconds now plan db.order? item := by
  have hunflagged : ∀ found : Option Order,
      found.bind (fun order ↦ assess thresholdSeconds plan now order item.2) =
        (found.map unflagged).bind fun order ↦ assess thresholdSeconds plan now order item.2 := by
    intro found
    cases found <;> rfl
  rw [evidenceOf, evidenceOf, hunflagged, h.order? item.1, ← hunflagged]

/-- The evidence of an order is there exactly if its delivery is at risk. -/
theorem evidenceOf_isSome_iff :
    (evidenceOf thresholdSeconds now plan db.order? item).isSome ↔
      ∃ order, db.order? item.1 = some order ∧ AtRisk thresholdSeconds plan now order item.2 := by
  unfold evidenceOf
  cases db.order? item.1 with
  | none => simp
  | some order => simp [assess_isSome_iff]

/-! ### One evaluation -/

variable (thresholdSeconds businessDate now db) in
/-- What an evaluation at some time leaves. -/
structure Settled (db' : Database) (tables' : AlertTables) : Prop where
  sound : Sound tables'
  clock : Clock businessDate now tables'
  facts : SameFacts db db'
  raised : ∀ plan, db.currentPlan? businessDate = some plan → ∀ item ∈ sortedMemberships plan,
    ∀ evidence, evidenceOf thresholdSeconds now plan db.order? item = some evidence →
      Raised tables' businessDate now plan.id item.1 evidence
  flagged : ∀ plan, db.currentPlan? businessDate = some plan → ∀ item ∈ sortedMemberships plan,
    Flagged db' item.1 (flagOf (evidenceOf thresholdSeconds now plan db.order? item))
  only : ∀ alert ∈ tables'.alerts, alert.status = .active → alert.businessDate = businessDate →
    ∃ plan, db.currentPlan? businessDate = some plan ∧ ∃ item ∈ sortedMemberships plan,
      key alert = (plan.id, item.1) ∧
        (evidenceOf thresholdSeconds now plan db.order? item).isSome

/-- An evaluation settles the alerts of its date. -/
theorem evaluateLocked_settled {result : AlertEvaluationResult} (h : Sound tables)
    (hok : evaluateLocked thresholdSeconds db tables businessDate now =
      .ok (result, db', tables')) :
    Settled thresholdSeconds businessDate (evaluationTime tables businessDate now) db db'
      tables' := by
  unfold evaluateLocked at hok
  dsimp only at hok
  rw [bind_eq_ok] at hok
  obtain ⟨scan₁, hvisits, hok⟩ := hok
  rw [bind_eq_ok] at hok
  obtain ⟨scan₂, hclears, hok⟩ := hok
  cases hok
  have hactive : ∀ alert ∈ lockActiveForBusinessDate tables businessDate,
      alert.status = .active ∧ alert.businessDate = businessDate := fun alert halert ↦
    ⟨(mem_lockActive.mp halert).2.2, (mem_lockActive.mp halert).2.1⟩
  have hnodup : (lockActiveForBusinessDate tables businessDate).Nodup := nodup_lockActive h
  have hstart : ∀ alert ∈ tables.alerts, alert.status = .active →
      alert.businessDate = businessDate →
        alert ∈ lockActiveForBusinessDate tables businessDate := fun alert halert hstatus hdate ↦
    mem_lockActive.mpr ⟨halert, hdate, hstatus⟩
  cases hplan : db.currentPlan? businessDate with
  | none =>
    rw [hplan] at hvisits hclears
    cases hvisits
    have hbegin : Cleared businessDate (evaluationTime tables businessDate now) db
        (lockActiveForBusinessDate tables businessDate) none ⟨db, tables, [], 0, 0, 0⟩ []
        ⟨db, tables, [], 0, 0, 0⟩ :=
      ⟨h, clock_evaluationTime, .refl db, rfl, fun row hrow _ ↦ hrow,
        fun alert halert _ _ ↦ (mem_lockActive.mp halert).1,
        fun alert halert hs hd ↦ .inr ⟨hstart alert halert hs hd, List.not_mem_nil⟩,
        fun p hp ↦ by cases hp⟩
    have hcleared := hbegin.loop hnodup hactive hclears
    refine ⟨hcleared.sound, hcleared.clock, hcleared.facts, fun p hp ↦ ?_, fun p hp ↦ ?_,
      fun alert halert hs hd ↦ ?_⟩
    · rw [hplan] at hp
      cases hp
    · rw [hplan] at hp
      cases hp
    · rcases hcleared.only alert halert hs hd with hin | ⟨hin, hout⟩
      · cases hin
      · exact absurd hin hout
  | some plan =>
    rw [hplan] at hvisits hclears
    have hfirst : Visited thresholdSeconds businessDate (evaluationTime tables businessDate now) db
        (lockActiveForBusinessDate tables businessDate) plan [] ⟨db, tables, [], 0, 0, 0⟩ :=
      ⟨h, clock_evaluationTime, .refl db, fun k ↦ (by simp), fun _ hi ↦ (by cases hi),
        fun alert halert _ ↦ (mem_lockActive.mp halert).1,
        fun alert halert hs hd ↦ .inr (hstart alert halert hs hd), fun _ hi ↦ (by cases hi)⟩
    have hvisited := hfirst.loop hactive hvisits
    have hbegin : Cleared businessDate (evaluationTime tables businessDate now) db
        (lockActiveForBusinessDate tables businessDate) (some plan) scan₁ [] scan₁ :=
      ⟨hvisited.sound, hvisited.clock, hvisited.facts, rfl, fun row hrow _ ↦ hrow,
        fun alert halert _ hk ↦ hvisited.waiting alert halert hk,
        fun alert halert hs hd ↦ (hvisited.only alert halert hs hd).imp_right
          fun hin ↦ ⟨hin, List.not_mem_nil⟩,
        fun _ _ _ _ _ hf ↦ hf⟩
    have hcleared := hbegin.loop hnodup hactive hclears
    refine ⟨hcleared.sound, hcleared.clock, hcleared.facts, fun p hp item hitem evidence hev ↦ ?_,
      fun p hp item hitem ↦ ?_, fun alert halert hs hd ↦ ?_⟩
    · rw [hplan, Option.some.injEq] at hp
      subst hp
      obtain ⟨alert, halert, hs, hd, hkey, hrest⟩ := hvisited.raised item hitem evidence hev
      refine ⟨alert, hcleared.kept alert halert ?_, hs, hd, hkey, hrest⟩
      rw [hkey, hvisited.touched]
      exact ⟨item, hitem, rfl, by rw [hev]; rfl⟩
    · rw [hplan, Option.some.injEq] at hp
      subst hp
      have hmem := mem_of_lastWrite (mem_sortedMemberships.mp hitem)
      rw [memberships, List.mem_map] at hmem
      obtain ⟨row, hrow, heq⟩ := hmem
      have hid : row.orderId = item.1 := congrArg Prod.fst heq
      exact hid ▸ hcleared.flagged plan rfl row hrow _ (hid ▸ hvisited.flagged item hitem)
    · rcases hcleared.only alert halert hs hd with hin | ⟨hin, hout⟩
      · rw [hvisited.touched] at hin
        exact ⟨plan, hplan, hin⟩
      · exact absurd hin hout

/-! ### Another evaluation -/

/-- An order that is settled is passed without a change. -/
theorem visit_settled {active : List RiskAlert} {scan : Scan}
    (hflag : Flagged scan.db item.1
      (flagOf (evidenceOf thresholdSeconds now plan db.order? item)))
    (halert : ∀ evidence, evidenceOf thresholdSeconds now plan db.order? item = some evidence →
      ∃ alert, lastWrite (active.map fun alert ↦ (key alert, alert)) (plan.id, item.1) =
          some alert ∧ alert.evidence = evidence ∧ alert.lastEvaluatedAt = now ∧
        saveAlert scan.tables alert = scan.tables) :
    ∃ touched, visit thresholdSeconds businessDate now plan db.order? active scan item =
      .ok { scan with touched := touched } := by
  unfold visit
  cases horder : db.order? item.1 with
  | none => exact ⟨scan.touched, rfl⟩
  | some order =>
    have hsame : evidenceOf thresholdSeconds now plan db.order? item =
        assess thresholdSeconds plan now order item.2 := by
      rw [evidenceOf, horder]
      rfl
    rw [hsame] at hflag halert
    dsimp only
    cases hassess : assess thresholdSeconds plan now order item.2 with
    | none =>
      rw [hassess] at hflag
      refine ⟨scan.touched, ?_⟩
      have hdb : setRisk scan.db item.1 .normal = scan.db := hflag.setRisk_eq_self
      dsimp only
      rw [hdb]
      rfl
    | some evidence =>
      rw [hassess] at hflag
      obtain ⟨alert, hlook, rfl, rfl, hsave⟩ := halert evidence hassess
      refine ⟨scan.touched ++ [(plan.id, item.1)], ?_⟩
      have hdb : setRisk scan.db item.1 .atRisk = scan.db := hflag.setRisk_eq_self
      have hrefresh : refreshAlert alert.lastEvaluatedAt alert.evidence alert scan.tables =
          .ok scan.tables := by
        unfold refreshAlert
        dsimp only
        rw [if_neg (by simp)]
        exact congrArg Except.ok hsave
      dsimp only
      rw [hlook]
      dsimp only
      rw [hrefresh, hdb, if_neg (by simp)]
      rfl

/-- An alert that the first loop has touched is passed. -/
theorem clear_touched {orders : UUID → Option Order} {plan : Option DeliveryPlan} {scan : Scan}
    {alert : RiskAlert} (h : key alert ∈ scan.touched) :
    clear now plan orders scan alert = .ok scan := by
  unfold clear
  rw [if_pos (by simpa using h)]
  rfl

/-- Saving a row as it is changes nothing. -/
theorem saveAlert_self (h : Sound tables) {alert : RiskAlert} (halert : alert ∈ tables.alerts) :
    saveAlert tables alert = tables := by
  have hsame : updateWhere tables.alerts (·.id == alert.id) (fun _ ↦ alert) = tables.alerts := by
    refine updateWhere_eq_self_of_fixed fun row hrow hid ↦ ?_
    exact eq_of_key_eq h.ids halert hrow (beq_iff_eq.mp hid).symm
  rw [saveAlert, hsame]

/-- At no later time the evidence is the same: where there is an alert the clock stands still, and
elsewhere nothing is at risk earlier. -/
theorem Settled.evidenceOf_again (h : Settled thresholdSeconds businessDate now db db' tables')
    (hnow : now' ≤ now) (hplan : db.currentPlan? businessDate = some plan)
    (hitem : item ∈ sortedMemberships plan) :
    evidenceOf thresholdSeconds (evaluationTime tables' businessDate now') plan db'.order? item =
        evidenceOf thresholdSeconds now plan db.order? item ∧
      ∀ evidence, evidenceOf thresholdSeconds now plan db.order? item = some evidence →
        evaluationTime tables' businessDate now' = now := by
  have hle := evaluationTime_le h.clock hnow
  have hstill : ∀ evidence, evidenceOf thresholdSeconds now plan db.order? item = some evidence →
      evaluationTime tables' businessDate now' = now := by
    intro evidence hev
    obtain ⟨alert, halert, -, hdate, -, -, htime⟩ := h.raised plan hplan item hitem evidence hev
    exact le_antisymm hle (htime ▸ clock_evaluationTime alert halert hdate)
  refine ⟨?_, hstill⟩
  rw [evidenceOf_sameFacts h.facts]
  cases hev : evidenceOf thresholdSeconds now plan db.order? item with
  | some evidence => rw [hstill evidence hev, hev]
  | none =>
    rw [← Option.not_isSome_iff_eq_none, evidenceOf_isSome_iff]
    rintro ⟨order, horder, hrisk⟩
    have hsome := evidenceOf_isSome_iff.mpr ⟨order, horder, hrisk.later hle⟩
    rw [hev] at hsome
    cases hsome

/-- The alert of an order at risk is found under its key, as the evaluation would save it. -/
theorem Settled.looked (h : Settled thresholdSeconds businessDate now db db' tables')
    (hplan : db.currentPlan? businessDate = some plan) (hitem : item ∈ sortedMemberships plan)
    (hev : evidenceOf thresholdSeconds now plan db.order? item = some evidence) :
    ∃ alert, lastWrite ((lockActiveForBusinessDate tables' businessDate).map
        fun alert ↦ (key alert, alert)) (plan.id, item.1) = some alert ∧
      alert.evidence = evidence ∧ alert.lastEvaluatedAt = now ∧
      saveAlert tables' alert = tables' := by
  obtain ⟨alert, halert, hstatus, hdate, hkey, hevidence, htime⟩ :=
    h.raised plan hplan item hitem evidence hev
  refine ⟨alert, (lastWrite_eq_some_iff ?_ _ _).mpr ?_, hevidence, htime,
    saveAlert_self h.sound halert⟩
  · rw [List.map_map]
    refine (nodup_lockActive h.sound).map_on fun a ha b hb heq ↦ ?_
    obtain ⟨hina, -, hactivea⟩ := mem_lockActive.mp ha
    obtain ⟨hinb, -, hactiveb⟩ := mem_lockActive.mp hb
    exact h.sound.active a hina b hinb hactivea hactiveb heq
  · exact List.mem_map.mpr ⟨alert, mem_lockActive.mpr ⟨halert, hdate, hstatus⟩, by rw [hkey]⟩

/-- Another evaluation at no later time changes nothing. -/
theorem Settled.again (h : Settled thresholdSeconds businessDate now db db' tables')
    (hnow : now' ≤ now) :
    evaluateLocked thresholdSeconds db' tables' businessDate now' =
      .ok (⟨businessDate, (db.currentPlan? businessDate).map (·.id), 0, 0, 0⟩, db', tables') := by
  have hactive : ∀ alert ∈ lockActiveForBusinessDate tables' businessDate,
      alert.status = .active ∧ alert.businessDate = businessDate := fun alert halert ↦
    ⟨(mem_lockActive.mp halert).2.2, (mem_lockActive.mp halert).2.1⟩
  -- The first loop ends as it began, but for the alerts that it has touched.
  have hloop : ∃ touched, visitAll thresholdSeconds businessDate
      (evaluationTime tables' businessDate now') (db.currentPlan? businessDate) db'.order?
      (lockActiveForBusinessDate tables' businessDate) ⟨db', tables', [], 0, 0, 0⟩ =
        .ok ⟨db', tables', touched, 0, 0, 0⟩ ∧
      ∀ alert ∈ lockActiveForBusinessDate tables' businessDate, key alert ∈ touched := by
    cases hplan : db.currentPlan? businessDate with
    | none =>
      refine ⟨[], rfl, fun alert halert ↦ ?_⟩
      obtain ⟨hin, hdate, hstatus⟩ := mem_lockActive.mp halert
      obtain ⟨plan, hp, -⟩ := h.only alert hin hstatus hdate
      rw [hplan] at hp
      cases hp
    | some plan =>
      have htotal : ∃ scan, visitAll thresholdSeconds businessDate
          (evaluationTime tables' businessDate now') (some plan) db'.order?
          (lockActiveForBusinessDate tables' businessDate) ⟨db', tables', [], 0, 0, 0⟩ =
            .ok scan ∧ scan = ⟨db', tables', scan.touched, 0, 0, 0⟩ := by
        have hstep : ∀ scan : Scan, ∀ item ∈ sortedMemberships plan,
            scan = ⟨db', tables', scan.touched, 0, 0, 0⟩ →
              ∃ scan', visit thresholdSeconds businessDate
                (evaluationTime tables' businessDate now') plan db'.order?
                (lockActiveForBusinessDate tables' businessDate) scan item = .ok scan' ∧
                scan' = ⟨db', tables', scan'.touched, 0, 0, 0⟩ := by
          intro scan item hitem hscan
          obtain ⟨hsame, hstill⟩ := h.evidenceOf_again hnow hplan hitem
          have hflag : Flagged scan.db item.1 (flagOf (evidenceOf thresholdSeconds
              (evaluationTime tables' businessDate now') plan db'.order? item)) := by
            rw [hsame, hscan]
            exact h.flagged plan hplan item hitem
          obtain ⟨touched, hvisit⟩ := visit_settled hflag fun evidence hev ↦ by
            rw [hsame] at hev
            rw [hscan, hstill evidence hev]
            exact h.looked hplan hitem hev
          refine ⟨_, hvisit, ?_⟩
          rw [hscan]
        exact foldlM_total hstep rfl
      obtain ⟨scan, hok, hscan⟩ := htotal
      refine ⟨scan.touched, by rw [hok, ← hscan], fun alert halert ↦ ?_⟩
      have hfirst : Visited thresholdSeconds businessDate
          (evaluationTime tables' businessDate now') db'
          (lockActiveForBusinessDate tables' businessDate) plan [] ⟨db', tables', [], 0, 0, 0⟩ :=
        ⟨h.sound, clock_evaluationTime, .refl db', fun k ↦ (by simp), fun _ hi ↦ (by cases hi),
          fun alert halert _ ↦ (mem_lockActive.mp halert).1,
          fun alert halert hs hd ↦ .inr (mem_lockActive.mpr ⟨halert, hd, hs⟩),
          fun _ hi ↦ (by cases hi)⟩
      have hvisited := hfirst.loop hactive hok
      obtain ⟨hin, hdate, hstatus⟩ := mem_lockActive.mp halert
      obtain ⟨p, hp, item, hitem, hkey, hsome⟩ := h.only alert hin hstatus hdate
      rw [hplan, Option.some.injEq] at hp
      subst hp
      refine (hvisited.touched _).mpr ⟨item, hitem, hkey, ?_⟩
      rw [(h.evidenceOf_again hnow hplan hitem).1]
      exact hsome
  obtain ⟨touched, hvisits, htouched⟩ := hloop
  have hclears : (lockActiveForBusinessDate tables' businessDate).foldlM
      (clear (evaluationTime tables' businessDate now') (db.currentPlan? businessDate) db'.order?)
      ⟨db', tables', touched, 0, 0, 0⟩ = .ok ⟨db', tables', touched, 0, 0, 0⟩ := by
    have hstep : ∀ scan : Scan, ∀ alert ∈ lockActiveForBusinessDate tables' businessDate,
        scan = ⟨db', tables', touched, 0, 0, 0⟩ →
          ∃ scan', clear (evaluationTime tables' businessDate now')
            (db.currentPlan? businessDate) db'.order? scan alert = .ok scan' ∧
            scan' = ⟨db', tables', touched, 0, 0, 0⟩ := by
      rintro scan alert halert rfl
      exact ⟨_, clear_touched (htouched alert halert), rfl⟩
    obtain ⟨scan, hok, rfl⟩ := foldlM_total hstep rfl
    exact hok
  unfold evaluateLocked
  dsimp only
  rw [h.facts.currentPlan?, hvisits]
  refine bind_eq_ok.mpr ⟨_, rfl, bind_eq_ok.mpr ⟨_, hclears, rfl⟩⟩

/-- The second attempt of an evaluation that fails alone fails in the same way. -/
theorem evaluateBusinessDate_eq :
    evaluateBusinessDate thresholdSeconds db tables businessDate now =
      evaluateLocked thresholdSeconds db tables businessDate now := by
  unfold evaluateBusinessDate
  split <;> rfl

/-! ### Runs -/

/-- The tables that an evaluation reads and those that it writes. -/
structure State where
  db : Database
  tables : AlertTables

/-- What happens in a run: an evaluation, or anything that leaves the alert tables alone. A
transaction that is rolled back may have drawn from the sequence. -/
inductive Action where
  | evaluate (businessDate : BusinessDate) (now : Instant)
  | change (db : Database) (sequence : Nat)

/-- An evaluation that fails is rolled back. -/
def step (thresholdSeconds : Int) (s : State) : Action → State
  | .evaluate businessDate now =>
    match evaluateBusinessDate thresholdSeconds s.db s.tables businessDate now with
    | .ok (_, db, tables) => ⟨db, tables⟩
    | .error _ => s
  | .change db sequence =>
    ⟨db, { s.tables with sequence := max s.tables.sequence sequence }⟩

/-- No alert has been raised yet. -/
def initial (s : State) : Prop := s.tables = ⟨[], [], 0, 0⟩

/-- The sequence may run ahead. -/
theorem Sound.sequence (h : Sound tables) {sequence : Nat} (hle : tables.sequence ≤ sequence) :
    Sound { tables with sequence := sequence } :=
  { h with bounded := fun change hchange ↦ (h.bounded change hchange).trans hle }

/-- Every run keeps the tables sound. -/
theorem sound_of_reachable {s : State}
    (h : Reachable (step thresholdSeconds) initial (fun _ _ ↦ True) s) : Sound s.tables := by
  refine h.invariant (I := fun s ↦ Sound s.tables) (fun s hs ↦ ?_) fun s action hs _ ↦ ?_
  · rw [hs]
    exact .empty
  · cases action with
    | change db sequence => exact hs.sequence (le_max_left _ _)
    | evaluate businessDate now =>
      unfold step
      dsimp only
      cases hev : evaluateBusinessDate thresholdSeconds s.db s.tables businessDate now with
      | error e => exact hs
      | ok outcome =>
        rw [evaluateBusinessDate_eq] at hev
        exact (evaluateLocked_settled hs hev).sound

/-- The alert of an entry is one of the date. -/
def OfDate (tables : AlertTables) (businessDate : BusinessDate) (change : RiskAlertChange) : Prop :=
  ∃ alert ∈ tables.alerts, alert.id = change.alertId ∧ alert.businessDate = businessDate

/-- The lifecycle of alerts. In every run there is one active alert for each plan and order at
most, every alert has its history, and the recorded times of a business date do not go back. After
an evaluation the active alerts of the date are those of the deliveries at risk in the current
plan, whose orders are flagged, and another evaluation at no later time changes nothing. -/
theorem alert_lifecycle {s : State}
    (h : Reachable (step thresholdSeconds) initial (fun _ _ ↦ True) s) :
    ((s.tables.alerts.filter (·.status == .active)).map key).Nodup ∧
    (∀ alert ∈ s.tables.alerts, History alert (listChangesForAlert s.tables alert.id)) ∧
    (∀ businessDate, s.tables.changes.Pairwise fun c c' ↦ c.changeId < c'.changeId ∧
      (OfDate s.tables businessDate c → OfDate s.tables businessDate c' →
        c.recordedAt ≤ c'.recordedAt)) ∧
    ∀ businessDate now result db' tables',
      evaluateBusinessDate thresholdSeconds s.db s.tables businessDate now =
        .ok (result, db', tables') →
      (∀ planId orderId,
        (∃ alert ∈ tables'.alerts, alert.status = .active ∧ alert.businessDate = businessDate ∧
          key alert = (planId, orderId)) ↔
        ∃ plan membership order, s.db.currentPlan? businessDate = some plan ∧ plan.id = planId ∧
          (orderId, membership) ∈ sortedMemberships plan ∧ s.db.order? orderId = some order ∧
          AtRisk thresholdSeconds plan (evaluationTime s.tables businessDate now) order
            membership) ∧
      (∀ plan, s.db.currentPlan? businessDate = some plan → ∀ order ∈ db'.orders,
        (∃ membership ∈ plan.planOrders, membership.orderId = order.id) →
        (order.riskStatus = .atRisk ↔
          ∃ alert ∈ tables'.alerts, alert.status = .active ∧
            alert.businessDate = businessDate ∧ key alert = (plan.id, order.id))) ∧
      ∀ now' ≤ now, evaluateBusinessDate thresholdSeconds db' tables' businessDate now' =
        .ok (⟨businessDate, (s.db.currentPlan? businessDate).map (·.id), 0, 0, 0⟩, db',
          tables') := by
  have hsound := sound_of_reachable h
  refine ⟨?_, fun alert halert ↦ ?_, fun businessDate ↦ ?_, ?_⟩
  · refine ((List.Nodup.of_map _ hsound.ids).filter _).map_on fun a ha b hb heq ↦ ?_
    rw [List.mem_filter, beq_iff_eq] at ha hb
    exact hsound.active a ha.1 b hb.1 ha.2 hb.2 heq
  · rw [hsound.listChangesForAlert]
    exact hsound.history alert halert
  · refine hsound.sorted.imp₂ (fun c c' hlt hle ↦ ⟨hlt, ?_⟩) hsound.chronology
    rintro ⟨a, ha, hid, hdate⟩ ⟨a', ha', hid', hdate'⟩
    exact hle a ha a' ha' hid hid' (hdate.trans hdate'.symm)
  intro businessDate now result db' tables' hok
  rw [evaluateBusinessDate_eq] at hok
  have hsettled := evaluateLocked_settled hsound hok
  -- An active alert of the date belongs to an item of the current plan with evidence.
  have hiff : ∀ plan, s.db.currentPlan? businessDate = some plan →
      ∀ item ∈ sortedMemberships plan,
        (∃ alert ∈ tables'.alerts, alert.status = .active ∧ alert.businessDate = businessDate ∧
          key alert = (plan.id, item.1)) ↔
        (evidenceOf thresholdSeconds (evaluationTime s.tables businessDate now) plan s.db.order?
          item).isSome := by
    intro plan hplan item hitem
    constructor
    · rintro ⟨alert, halert, hstatus, hdate, hkey⟩
      obtain ⟨p, hp, other, hother, hokey, hsome⟩ := hsettled.only alert halert hstatus hdate
      rw [hplan, Option.some.injEq] at hp
      subst hp
      have hsame : other = item := by
        have hid : other.1 = item.1 := congrArg Prod.snd (hokey.symm.trans hkey)
        exact eq_of_key_eq (nodup_sortedMemberships plan) hother hitem hid
      rwa [hsame] at hsome
    · intro hsome
      obtain ⟨evidence, hev⟩ := Option.isSome_iff_exists.mp hsome
      obtain ⟨alert, halert, hstatus, hdate, hkey, -⟩ :=
        hsettled.raised plan hplan item hitem evidence hev
      exact ⟨alert, halert, hstatus, hdate, hkey⟩
  refine ⟨fun planId orderId ↦ ⟨?_, ?_⟩, fun plan hplan order horder hmember ↦ ?_,
    fun now' hnow ↦ ?_⟩
  · rintro ⟨alert, halert, hstatus, hdate, hkey⟩
    obtain ⟨plan, hplan, ⟨id, membership⟩, hitem, hokey, hsome⟩ :=
      hsettled.only alert halert hstatus hdate
    have hpair := hokey.symm.trans hkey
    cases hpair
    obtain ⟨order, horder, hrisk⟩ := evidenceOf_isSome_iff.mp hsome
    exact ⟨plan, membership, order, hplan, rfl, hitem, horder, hrisk⟩
  · rintro ⟨plan, membership, order, hplan, rfl, hitem, horder, hrisk⟩
    exact (hiff plan hplan _ hitem).mpr (evidenceOf_isSome_iff.mpr ⟨order, horder, hrisk⟩)
  · obtain ⟨membership, hm, hid⟩ := hmember
    have hsome : (lastWrite (memberships plan) order.id).isSome :=
      (isSome_lastWrite_iff _ _).mpr ⟨membership, List.mem_map.mpr ⟨membership, hm, by rw [hid]⟩⟩
    obtain ⟨last, hlast⟩ := Option.isSome_iff_exists.mp hsome
    have hitem : (order.id, last) ∈ sortedMemberships plan := mem_sortedMemberships.mpr hlast
    have hflag := hsettled.flagged plan hplan _ hitem order horder rfl
    rw [hflag, hiff plan hplan _ hitem, flagOf]
    split <;> simp_all
  · rw [evaluateBusinessDate_eq]
    exact hsettled.again (hnow.trans le_evaluationTime)

private def sampleOrder : Order :=
  ⟨1, "", 1, 1, 1, 1, 2, 0, 0, 0, 3600 * 1000000, 0, 1, .delivering, .normal⟩

private def sampleDelivery : RouteStop :=
  ⟨1, 1, 2, .delivery, 1, none, none, 3000 * 1000000, 3000 * 1000000, none, none, 0, none, none, 1,
    .planned⟩

private def sampleRoute : VehicleRoute :=
  ⟨1, 1, 1, 1, 1, 1, 2, .active, 0, 3000 * 1000000, none, none, 0, 3000, 10, none, none,
    [sampleDelivery]⟩

private def samplePlan : DeliveryPlan :=
  ⟨1, 1, 1, 1, none, .current, .valid, 0, 3000, 1, 1, 0, none, [sampleRoute],
    [⟨1, .assigned, some 1, none, none⟩]⟩

private def sampleStart : State :=
  ⟨⟨[sampleOrder], [], [], [], [], [samplePlan], [], [], 2⟩, ⟨[], [], 0, 0⟩⟩

-- The delivery is due at 3000 s, 600 s before the end of its window: less than the threshold.
private def sampleAlerted : State := step 900 sampleStart (.evaluate 1 0)

/-- A delivery at risk has its alert, which another evaluation leaves alone. -/
theorem alert_lifecycle_raised :
    sampleAlerted.tables.alerts.length = 1 ∧
      ((sampleAlerted.tables.alerts.filter (·.status == .active)).map key).Nodup ∧
      (∀ alert ∈ sampleAlerted.tables.alerts,
        History alert (listChangesForAlert sampleAlerted.tables alert.id)) ∧
      ∃ outcome, evaluateBusinessDate 900 sampleStart.db sampleStart.tables 1 0 = .ok outcome ∧
        evaluateBusinessDate 900 outcome.2.1 outcome.2.2 1 (-5) =
          .ok (⟨1, some 1, 0, 0, 0⟩, outcome.2.1, outcome.2.2) := by
  have hstart : Reachable (step 900) initial (fun _ _ ↦ True) sampleStart := .init rfl
  have halerted : Reachable (step 900) initial (fun _ _ ↦ True) sampleAlerted :=
    .step _ hstart trivial
  have hfirst : evaluateBusinessDate 900 sampleStart.db sampleStart.tables 1 0 =
      .ok ((evaluateBusinessDate 900 sampleStart.db sampleStart.tables 1 0).toOption.get
        (by decide +kernel)) := eq_ok_get _
  have hstates := alert_lifecycle halerted
  have hagain := (alert_lifecycle hstart).2.2.2 1 0 _ _ _ hfirst
  exact ⟨by decide +kernel, hstates.1, hstates.2.1, _, hfirst, hagain.2.2 (-5) (by decide)⟩

end PenroseRoute.Operations.AlertService
