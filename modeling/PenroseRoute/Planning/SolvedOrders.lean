import Mathlib.Data.Set.Function
import PenroseRoute.Planning.OrderEdits

/-!
# Plans in force have the orders they were solved for

What the interleavings of planners and edits keep in which no edit slips between the reads of the
other side: the orders of every CURRENT plan are, but for their execution status, those from which
it was solved.
-/

namespace PenroseRoute.Planning

open PenroseRoute.Db PenroseRoute.Lib PenroseRoute.Resources

/-! ### Orders as they were solved -/

/-- An order as a plan was solved for it, but for its execution status. -/
def AsSolved (orders : List Order) (fact : PlanningOrderFact) : Prop :=
  ∃ order ∈ orders,
    planningOrderFact order = { fact with executionStatus := order.executionStatus }

/-- The facts that are read are those of the rows. -/
theorem asSolved_of_loaded {orders : List Order} {businessDate : BusinessDate}
    {facts : PlanningFacts}
    (h : facts.orders = (ordersOn orders businessDate).map planningOrderFact) :
    ∀ fact ∈ facts.orders, AsSolved orders fact := by
  intro fact hf
  rw [h] at hf
  obtain ⟨order, ho, rfl⟩ := List.mem_map.mp hf
  exact ⟨order, (List.mem_filter.mp ((List.mem_insertionSort _).mp ho)).1, rfl⟩

/-- A new order is not in the way. -/
theorem AsSolved.create {orders : List Order} {fact : PlanningOrderFact}
    (h : AsSolved orders fact) (order : Order) : AsSolved (orders ++ [order]) fact := by
  obtain ⟨row, hr, he⟩ := h
  exact ⟨row, List.mem_append_left _ hr, he⟩

/-- Nor is another order that is rewritten. -/
theorem AsSolved.update {orders : List Order} {fact : PlanningOrderFact}
    (h : AsSolved orders fact) {orderId : UUID} (f : Order → Order)
    (hne : orderId ≠ fact.orderId) : AsSolved (updateOrder orders orderId f) fact := by
  obtain ⟨row, hr, he⟩ := h
  have hid : row.id = fact.orderId := congrArg PlanningOrderFact.orderId he
  refine ⟨row, List.mem_map.mpr ⟨row, hr, ?_⟩, he⟩
  rw [if_neg fun hrow ↦ hne (hrow.symm.trans hid)]

/-- Nor is a change of the execution status alone. -/
theorem AsSolved.advance {orders : List Order} {fact : PlanningOrderFact}
    (h : AsSolved orders fact) (orderId : UUID) (target : OrderExecutionStatus) :
    AsSolved (updateOrder orders orderId fun order ↦ { order with executionStatus := target })
      fact := by
  obtain ⟨row, hr, he⟩ := h
  refine ⟨_, List.mem_map.mpr ⟨row, hr, rfl⟩, ?_⟩
  split
  · exact congrArg (fun fact : PlanningOrderFact ↦ { fact with executionStatus := target }) he
  · exact he

/-- The orders of every CURRENT plan are those from which it was solved. -/
def SolvedForOrders (table : PlannedOrders) : Prop :=
  ∀ row ∈ table.versions, row.status = .current →
    ∀ fact ∈ table.solvedFrom row.id, AsSolved table.orders fact

/-! ### What a commit does to the plans -/

/-- The plan that a transaction makes CURRENT by a status write. -/
def PlanTransaction.raises : PlanTransaction → Option UUID
  | .confirm _ _ (.confirmed _ plan) => some plan.id
  | .decide _ _ true (.deciding _ candidate _) => some candidate.id
  | _ => none

private theorem mem_cancelAll {closed : List PlanVersion} {id : UUID}
    {status : DeliveryPlanStatus} (h : (id, status) ∈ cancelAll closed) : status = .cancelled := by
  obtain ⟨row, -, he⟩ := List.mem_map.mp h
  exact (congrArg Prod.snd he).symm

/-- A status write closes a plan, or makes the one CURRENT that the transaction raises. -/
theorem PlanTransaction.writes_raises {t : PlanTransaction} {writes : PlanWrites} {id : UUID}
    {status : DeliveryPlanStatus} (hw : t.writes = some writes)
    (h : (id, status) ∈ writes.statuses) :
    status = .cancelled ∨ status = .superseded ∨ (status = .current ∧ t.raises = some id) := by
  cases t with
  | generate businessDate draft sha256 point =>
    cases point with
    | built cancelled plan =>
      cases hw
      exact .inl (mem_cancelAll h)
    | _ => cases hw
  | confirm planId sha256 point =>
    cases point with
    | confirmed businessDate plan =>
      cases hw
      cases List.mem_singleton.mp h
      exact .inr (.inr ⟨rfl, rfl⟩)
    | _ => cases hw
  | recover basePlanId point =>
    cases point with
    | starting => cases hw
    | holding base =>
      cases hw
      cases h
    | creating base created closed =>
      cases hw
      exact .inl (mem_cancelAll h)
  | decide basePlanId candidateId approve point =>
    cases point with
    | deciding base candidate closed =>
      cases approve with
      | true =>
        cases hw
        rcases List.mem_cons.mp h with he | h
        · cases he
          exact .inr (.inl rfl)
        · rcases List.mem_cons.mp h with he | h
          · cases he
            exact .inr (.inr ⟨rfl, rfl⟩)
          · exact .inl (mem_cancelAll h)
      | false =>
        cases hw
        rcases List.mem_cons.mp h with he | h
        · cases he
          exact .inl rfl
        · exact .inl (mem_cancelAll h)
    | _ => cases approve <;> cases hw
  | close closed =>
    cases hw
    exact .inl (mem_cancelAll h)

/-- A version keeps its id and its hash. -/
theorem SameVersion.columns {row row' : PlanVersion} (h : SameVersion row row') :
    row'.id = row.id ∧ row'.planningFactsSha256 = row.planningFactsSha256 := by
  rw [SameVersion] at h
  rw [h]
  exact ⟨rfl, rfl⟩

/-- Where a row behind a commit comes from. -/
inductive Origin (table : List PlanVersion) (t : PlanTransaction) (row : PlanVersion) : Prop where
  | kept (hrow : row ∈ table)
  | closed (was : PlanVersion) (hwas : was ∈ table) (hsame : SameVersion was row)
      (hstatus : row.status = .cancelled ∨ row.status = .superseded)
  | raised (was : PlanVersion) (hwas : was ∈ table) (hsame : SameVersion was row)
      (hstatus : row.status = .current) (hraises : t.raises = some row.id)
  | added (writes : PlanWrites) (plan : NewVersion) (hwrites : t.writes = some writes)
      (hplan : plan ∈ writes.inserts) (hinserted : Inserted table plan row)
      (hid : row.id ∉ table.map (·.id))

/-- Every row behind a commit has one of these origins. -/
theorem PlanCommits.origin {table table' : List PlanVersion} {t : PlanTransaction}
    (h : PlanCommits table t table') {row : PlanVersion} (hr : row ∈ table') :
    Origin table t row := by
  obtain ⟨writes, new, hw, hinserted, hids, rfl⟩ := h
  rcases List.mem_append.mp hr with hold | hnew
  · obtain ⟨was, hwas, rfl⟩ := List.mem_map.mp hold
    cases hl : writes.statuses.lookup was.id with
    | none =>
      rw [setStatus, hl, Option.getD_none]
      exact .kept hwas
    | some status =>
      have hstatus : (setStatus writes.statuses was).status = status := by
        rw [setStatus, hl, Option.getD_some]
      obtain ⟨front, back, he, -⟩ := List.lookup_eq_some_iff.mp hl
      have hmem : (was.id, status) ∈ writes.statuses := by
        rw [he]
        exact List.mem_append_right _ List.mem_cons_self
      rcases PlanTransaction.writes_raises hw hmem with hs | hs | ⟨hs, hraises⟩
      · exact .closed was hwas rfl (.inl (hstatus.trans hs))
      · exact .closed was hwas rfl (.inr (hstatus.trans hs))
      · exact .raised was hwas rfl (hstatus.trans hs) hraises
  · obtain ⟨plan, hp, hi⟩ := exists_of_forall₂_right hinserted hnew
    refine .added writes plan hw hp hi fun hin ↦ ?_
    rw [List.map_append, List.nodup_append] at hids
    exact hids.2.2 _ hin _ (List.mem_map_of_mem hnew) rfl

/-! ### What the transactions know -/

section
variable {sha256 : PlanningFacts → String} {seen : Set PlanningFacts}

/-- What the code has checked of the plans that it works with, and how a planner's hash belongs to
its facts. -/
def Tied (sha256 : PlanningFacts → String) (seen : Set PlanningFacts) (facts : PlanningFacts) :
    PlanTransaction → Prop
  | .generate _ _ digest (.built _ plan) => digest = sha256 facts ∧ facts ∈ seen ∧
      plan.status ≠ .candidate ∧ ∀ other, plan.planningFactsSha256 = some other → other = digest
  | .generate _ _ digest _ => digest = sha256 facts ∧ facts ∈ seen
  | .confirm _ digest (.confirmed _ plan) =>
    digest = sha256 facts ∧ facts ∈ seen ∧ plan.planningFactsSha256 = some digest
  | .confirm _ digest _ => digest = sha256 facts ∧ facts ∈ seen
  | .recover _ (.creating base created _) => ∀ plan ∈ created,
      plan.parentPlanId = some base.id ∧ plan.planningFactsSha256 = none
  | .decide _ _ _ (.deciding base candidate _) => candidate.parentPlanId = some base.id
  | _ => True

/-- A planner behind its reading of the facts. -/
def PlanTransaction.behindLoad : PlanTransaction → Bool
  | .generate _ _ _ (.read _) => true
  | .generate _ _ _ (.flushed _) => true
  | .generate _ _ _ (.built _ _) => true
  | _ => false

/-- The memberships of a plan are inserted, so that their orders are locked. -/
def PlanTransaction.inserted : PlanTransaction → Bool
  | .generate _ _ _ (.built _ _) => true
  | _ => false

/-- What the statements of a transaction so far have established. -/
def Known (sha256 : PlanningFacts → String) (seen : Set PlanningFacts) (table : PlannedOrders) :
    OrderTransaction → Prop
  | .plan t facts loaded => Fact table.versions t ∧ Tied sha256 seen facts t ∧
      (t.behindLoad = true → loaded = true) ∧
      (loaded = true → ∀ fact ∈ facts.orders, AsSolved table.orders fact)
  | .replace orderId _ .editable => Unplanned table orderId
  | .replace orderId _ (.flushed _ _) => Unplanned table orderId
  | _ => True

/-- The rows that the transactions keep. -/
structure Solved (sha256 : PlanningFacts → String) (seen : Set PlanningFacts)
    (table : PlannedOrders) : Prop where
  versioned : Versioned table.versions
  inForce : SolvedForOrders table
  /-- The hash of a draft is that of the facts from which it was solved. -/
  hashed : ∀ row ∈ table.versions, ∀ digest, row.planningFactsSha256 = some digest →
    ∃ facts ∈ seen, digest = sha256 facts ∧ table.solvedFrom row.id = facts.orders
  /-- A candidate has the orders of its base plan. -/
  candidates : ∀ row ∈ table.versions, row.status = .candidate → ∀ base ∈ table.versions,
    row.parentPlanId = some base.id → table.solvedFrom row.id = table.solvedFrom base.id

/-- A commit beside another transaction: an edit commits while no planner has read the order and
not yet inserted its memberships, and a draft is confirmed while no edit has found one of its
orders unplanned. -/
def KeepsClear (_ : PlannedOrders) : OrderTransaction → OrderTransaction → Prop
  | .replace orderId _ _, .plan t facts loaded =>
    loaded = true → t.inserted = false → orderId ∉ facts.orders.map (·.orderId)
  | .plan (.confirm _ _ _) facts _, .replace orderId _ .editable =>
    orderId ∉ facts.orders.map (·.orderId)
  | .plan (.confirm _ _ _) facts _, .replace orderId _ (.flushed _ _) =>
    orderId ∉ facts.orders.map (·.orderId)
  | _, _ => True

/-! ### One statement -/

/-- The checks of a transaction on plans tie its rows together. -/
theorem Tied.statement {table : List PlanVersion} {t t' : PlanTransaction} {facts : PlanningFacts}
    (ht : Tied sha256 seen facts t) (h : Statement table t t') : Tied sha256 seen facts t' := by
  cases h with
  | @finalize businessDate draft digest cancelled =>
    refine ⟨ht.1, ht.2, ?_, ?_⟩
    · rw [finalized]
      cases draft <;> exact fun he ↦ by cases he
    · intro other he
      cases draft with
      | false => cases he
      | true => exact (Option.some.inj he).symm
  | checkDraft _ _ hfacts => exact ⟨ht.1, ht.2, hfacts⟩
  | lockBaseDate => exact fun plan hp ↦ by cases hp
  | create =>
    intro plan hp
    rcases List.mem_append.mp hp with ho | hn
    · exact ht plan ho
    · rw [List.mem_singleton.mp hn]
      exact ⟨rfl, rfl⟩
  | rollbackCandidate => exact fun plan hp ↦ ht plan (List.mem_append_left _ hp)
  | @cancelCreated basePlanId base before candidate after closed =>
    intro plan hp
    rcases List.mem_append.mp hp with hb | hc
    · exact ht plan (List.mem_append_left _ hb)
    · rcases List.mem_cons.mp hc with rfl | ha
      · exact ht candidate (List.mem_append_right _ List.mem_cons_self)
      · exact ht plan (List.mem_append_right _ (List.mem_cons_of_mem _ ha))
  | checkReviewable _ _ _ _ hparent => exact hparent
  | _ => exact ht

/-- A planner goes behind its reading of the facts only from the point where it waits for them. -/
theorem behindLoad_statement {table : List PlanVersion} {t t' : PlanTransaction}
    (h : Statement table t t') (hbehind : t'.behindLoad = true) :
    t.awaitsFacts.isSome = true ∨ t.behindLoad = true := by
  cases h with
  | readPrevious => exact .inl rfl
  | cancelPrevious => exact .inr rfl
  | keepPrevious => exact .inr rfl
  | finalize => exact .inr rfl
  | _ => cases hbehind

/-- What a transaction has established is still true after its next statement. -/
theorem Known.statement {table : PlannedOrders} {t t' : OrderTransaction}
    (hs : Solved sha256 seen table) (hk : Known sha256 seen table t)
    (h : OrderStatement table t t') : Known sha256 seen table t' := by
  cases h with
  | plan h hloaded =>
    obtain ⟨hf, htied, hbehind, hsolved⟩ := hk
    refine ⟨hf.statement hs.versioned h, htied.statement h, fun hb ↦ ?_, hsolved⟩
    exact (behindLoad_statement h hb).elim hloaded hbehind
  | load _ hfacts =>
    obtain ⟨hf, htied, -, -⟩ := hk
    exact ⟨hf, htied, fun _ ↦ rfl, fun _ ↦ asSolved_of_loaded hfacts⟩
  | lockReplaced => trivial
  | checkEditable _ hfree => exact hfree
  | flushReplaced => exact hk
  | lockAdvanced => trivial
  | flushAdvanced => trivial

/-! ### One commit -/

/-- The commit of a transaction on plans. -/
structure PlansCommit (table : PlannedOrders) (t : PlanTransaction) (facts : PlanningFacts)
    (versions : List PlanVersion) (solvedFrom : UUID → List PlanningOrderFact) : Prop where
  commits : PlanCommits table.versions t versions
  old : ∀ row ∈ table.versions, solvedFrom row.id = table.solvedFrom row.id
  new : ∀ row ∈ versions, row.id ∉ table.versions.map (·.id) →
    solvedFrom row.id = addedFacts table facts t

variable {table : PlannedOrders} {t : PlanTransaction} {facts : PlanningFacts} {loaded : Bool}
  {versions : List PlanVersion} {solvedFrom : UUID → List PlanningOrderFact}

/-- The plan that a transaction raises had the facts that a planner has loaded, or those of the
CURRENT plan that it replaces. -/
theorem raised_facts (hinj : Set.InjOn sha256 seen) (hs : Solved sha256 seen table)
    (hf : Fact table.versions t) (htied : Tied sha256 seen facts t) {planId : UUID}
    (h : t.raises = some planId) :
    (table.solvedFrom planId = facts.orders ∧ t.awaitsFacts.isSome = true ∧
        ∃ draftId digest point, t = .confirm draftId digest point) ∨
      ∃ base ∈ table.versions, base.status = .current ∧
        table.solvedFrom planId = table.solvedFrom base.id := by
  obtain ⟨hrows, hj⟩ := hf
  cases t with
  | generate businessDate draft digest point => cases h
  | confirm draftId digest point =>
    cases point with
    | confirmed businessDate plan =>
      cases h
      obtain ⟨hdigest, hseen, hhash⟩ := htied
      obtain ⟨solved, hsolved, he, hfrom⟩ :=
        hs.hashed plan (hrows plan List.mem_cons_self) digest hhash
      have hsame : solved = facts := hinj hsolved hseen (he.symm.trans hdigest)
      rw [hsame] at hfrom
      exact .inl ⟨hfrom, rfl, draftId, digest, _, rfl⟩
    | _ => cases h
  | recover basePlanId point => cases h
  | decide basePlanId candidateId approve point =>
    cases point with
    | deciding base candidate closed =>
      cases approve with
      | true =>
        cases h
        have hbase : base ∈ table.versions := hrows base List.mem_cons_self
        have hcandidate : candidate ∈ table.versions :=
          hrows candidate (List.mem_cons_of_mem _ List.mem_cons_self)
        exact .inr ⟨base, hbase, hj.1, hs.candidates candidate hcandidate hj.2.1 base hbase htied⟩
      | false => cases h
    | _ => cases approve <;> cases h
  | close closed => cases h

/-- What the plans that a transaction adds have been solved from, and how they begin. -/
theorem added_facts (hf : Fact table.versions t) (htied : Tied sha256 seen facts t)
    {writes : PlanWrites} {plan : NewVersion} (hw : t.writes = some writes)
    (hp : plan ∈ writes.inserts) :
    (addedFacts table facts t = facts.orders ∧ t.inserted = true ∧ plan.status ≠ .candidate ∧
        ∀ digest, plan.planningFactsSha256 = some digest → facts ∈ seen ∧ digest = sha256 facts) ∨
      ∃ base ∈ table.versions, addedFacts table facts t = table.solvedFrom base.id ∧
        plan.parentPlanId = some base.id ∧ plan.planningFactsSha256 = none ∧
        plan.status ≠ .current := by
  obtain ⟨hrows, hj⟩ := hf
  cases t with
  | generate businessDate draft digest point =>
    cases point with
    | built cancelled added =>
      cases hw
      obtain ⟨hdigest, hseen, hstatus, hhash⟩ := htied
      cases List.mem_singleton.mp hp
      exact .inl ⟨rfl, rfl, hstatus, fun other he ↦ ⟨hseen, (hhash other he).trans hdigest⟩⟩
    | _ => cases hw
  | confirm planId digest point =>
    cases point with
    | confirmed businessDate draft =>
      cases hw
      cases hp
    | _ => cases hw
  | recover basePlanId point =>
    cases point with
    | starting => cases hw
    | holding base =>
      cases hw
      cases hp
    | creating base created closed =>
      cases hw
      obtain ⟨hparent, hhash⟩ := htied plan hp
      refine .inr ⟨base, hrows base List.mem_cons_self, rfl, hparent, hhash, fun he ↦ ?_⟩
      rcases hj.2 plan hp with hstatus | hstatus <;> rw [hstatus] at he <;> cases he
  | decide basePlanId candidateId approve point =>
    cases point with
    | deciding base candidate closed =>
      cases approve <;> cases hw <;> cases hp
    | _ => cases approve <;> cases hw
  | close closed =>
    cases hw
    cases hp

/-- Every plan that is CURRENT behind a commit was CURRENT before, or has what a planner has loaded,
or the facts of a plan that was. -/
theorem PlansCommit.current (hinj : Set.InjOn sha256 seen) (hs : Solved sha256 seen table)
    (hf : Fact table.versions t) (htied : Tied sha256 seen facts t)
    (h : PlansCommit table t facts versions solvedFrom) {row : PlanVersion} (hr : row ∈ versions)
    (hcurrent : row.status = .current) :
    (∃ was ∈ table.versions, was.status = .current ∧
        solvedFrom row.id = table.solvedFrom was.id) ∨
      (solvedFrom row.id = facts.orders ∧
        (t.inserted = true ∨ (t.awaitsFacts.isSome = true ∧
          ∃ draftId digest point, t = .confirm draftId digest point))) := by
  cases h.commits.origin hr with
  | kept hrow => exact .inl ⟨row, hrow, hcurrent, h.old row hrow⟩
  | closed was hwas hsame hstatus =>
    rcases hstatus with hstatus | hstatus <;> rw [hstatus] at hcurrent <;> cases hcurrent
  | raised was hwas hsame hstatus hraises =>
    rw [hsame.columns.1] at hraises ⊢
    rw [h.old was hwas]
    rcases raised_facts hinj hs hf htied hraises with ⟨he, hconfirm⟩ | hbase
    · exact .inr ⟨he, .inr hconfirm⟩
    · exact .inl hbase
  | added writes plan hwrites hplan hinserted hid =>
    rw [h.new row hr hid]
    rcases added_facts hf htied hwrites hplan with ⟨he, hin, -⟩ | ⟨_, _, -, -, -, hstatus⟩
    · exact .inr ⟨he, .inl hin⟩
    · exact absurd (hinserted.status.symm.trans hcurrent) hstatus

/-- A planner that can commit has loaded its facts. -/
theorem loaded_of_commit (hbehind : t.behindLoad = true → loaded = true)
    (hloaded : t.awaitsFacts.isSome = true → loaded = true)
    (h : t.inserted = true ∨ t.awaitsFacts.isSome = true) : loaded = true := by
  rcases h with hin | hawaits
  · refine hbehind ?_
    cases t with
    | generate businessDate draft digest point =>
      cases point with
      | built cancelled plan => rfl
      | _ => cases hin
    | _ => cases hin
  · exact hloaded hawaits

/-- The commit of a transaction on plans keeps what is known of the rows. -/
theorem Solved.plan (hinj : Set.InjOn sha256 seen) (hs : Solved sha256 seen table)
    (hk : Known sha256 seen table (.plan t facts loaded))
    (hloaded : t.awaitsFacts.isSome = true → loaded = true)
    (h : PlansCommit table t facts versions solvedFrom) :
    Solved sha256 seen ⟨versions, table.orders, solvedFrom⟩ := by
  obtain ⟨hf, htied, hbehind, hsolved⟩ := hk
  refine ⟨h.commits.versioned hs.versioned hf, ?_, ?_, ?_⟩
  · intro row hr hcurrent
    dsimp only
    rcases h.current hinj hs hf htied hr hcurrent with ⟨was, hwas, hstatus, he⟩ | ⟨he, hpoint⟩
    · rw [he]
      exact hs.inForce was hwas hstatus
    · rw [he]
      exact hsolved (loaded_of_commit hbehind hloaded (hpoint.imp_right fun hc ↦ hc.1))
  · intro row hr digest hhash
    dsimp only
    have hold : ∀ was ∈ table.versions, SameVersion was row →
        ∃ facts ∈ seen, digest = sha256 facts ∧ solvedFrom row.id = facts.orders := by
      intro was hwas hsame
      rw [hsame.columns.2] at hhash
      rw [hsame.columns.1, h.old was hwas]
      exact hs.hashed was hwas digest hhash
    cases h.commits.origin hr with
    | kept hrow => exact hold row hrow rfl
    | closed was hwas hsame _ => exact hold was hwas hsame
    | raised was hwas hsame _ _ => exact hold was hwas hsame
    | added writes plan hwrites hplan hinserted hid =>
      rw [hinserted.sha256] at hhash
      rw [h.new row hr hid]
      rcases added_facts hf htied hwrites hplan with ⟨he, -, -, hdigest⟩ | ⟨_, _, -, -, hnone, -⟩
      · exact ⟨facts, (hdigest digest hhash).1, (hdigest digest hhash).2, he⟩
      · rw [hnone] at hhash
        cases hhash
  · intro row hr hstatus base hbase hparent
    dsimp only at hbase ⊢
    have holdBase : ∀ old ∈ table.versions, base.id = old.id →
        solvedFrom base.id = table.solvedFrom old.id := by
      intro old hold hid
      rw [hid, h.old old hold]
    cases h.commits.origin hr with
    | kept hrow =>
      obtain ⟨parent, hparentRow, hid, -⟩ :=
        hs.versioned.ordered.parents row hrow base.id hparent
      rw [h.old row hrow, holdBase parent hparentRow hid.symm]
      exact hs.candidates row hrow hstatus parent hparentRow (hid ▸ hparent)
    | closed was hwas hsame hclosed =>
      rcases hclosed with he | he <;> rw [he] at hstatus <;> cases hstatus
    | raised was hwas hsame he _ =>
      rw [he] at hstatus
      cases hstatus
    | added writes plan hwrites hplan hinserted hid =>
      rw [h.new row hr hid]
      rcases added_facts hf htied hwrites hplan with
        ⟨-, -, hcandidate, -⟩ | ⟨parent, hparentRow, he, hplanParent, -⟩
      · exact absurd (hinserted.status.symm.trans hstatus) hcandidate
      · rw [hinserted.parentPlanId, hplanParent, Option.some.injEq] at hparent
        rw [he, holdBase parent hparentRow hparent.symm]

/-- An edit commits to an order of no CURRENT plan. -/
theorem SolvedForOrders.update (h : SolvedForOrders table) {orderId : UUID}
    (hfree : Unplanned table orderId) (f : Order → Order) :
    SolvedForOrders { table with orders := updateOrder table.orders orderId f } := by
  intro row hr hcurrent fact hfact
  refine (h row hr hcurrent fact hfact).update f fun he ↦ ?_
  exact hfree row hr hcurrent (List.mem_map.mpr ⟨fact, hfact, he.symm⟩)

/-- Every commit keeps what is known of the rows. -/
theorem Solved.commits (hinj : Set.InjOn sha256 seen) (hs : Solved sha256 seen table)
    {t : OrderTransaction} {table' : PlannedOrders} (hk : Known sha256 seen table t)
    (h : OrderCommits table t table') : Solved sha256 seen table' := by
  cases h with
  | plan hcommits hloaded hold hnew => exact hs.plan hinj hk hloaded ⟨hcommits, hold, hnew⟩
  | create =>
    refine ⟨hs.versioned, ?_, hs.hashed, hs.candidates⟩
    exact fun row hr hcurrent fact hfact ↦ (hs.inForce row hr hcurrent fact hfact).create _
  | replace => exact ⟨hs.versioned, hs.inForce.update hk _, hs.hashed, hs.candidates⟩
  | advance =>
    refine ⟨hs.versioned, ?_, hs.hashed, hs.candidates⟩
    exact fun row hr hcurrent fact hfact ↦ (hs.inForce row hr hcurrent fact hfact).advance _ _

/-! ### The others -/

/-- The foreign keys of inserted memberships hold their orders. -/
theorem shared_of_inserted (h : t.inserted = true) :
    (OrderTransaction.plan t facts loaded).shared = facts.orders.map (·.orderId) := by
  cases t with
  | generate businessDate draft digest point =>
    cases point with
    | built cancelled plan => rfl
    | _ => cases h
  | _ => cases h

/-- A commit on plans leaves an order unplanned that an edit has found unplanned. -/
theorem Unplanned.plan (hinj : Set.InjOn sha256 seen) (hs : Solved sha256 seen table)
    (hf : Fact table.versions t) (htied : Tied sha256 seen facts t)
    (h : PlansCommit table t facts versions solvedFrom) {orderId : UUID}
    (hfree : Unplanned table orderId)
    (hinserted : t.inserted = true → orderId ∉ facts.orders.map (·.orderId))
    (hconfirm : ∀ draftId digest point, t = .confirm draftId digest point →
      orderId ∉ facts.orders.map (·.orderId)) :
    Unplanned ⟨versions, table.orders, solvedFrom⟩ orderId := by
  intro row hr hcurrent
  rw [PlannedOrders.members]
  rcases h.current hinj hs hf htied hr hcurrent with ⟨was, hwas, hstatus, he⟩ | ⟨he, hpoint⟩
  · dsimp only
    rw [he]
    exact hfree was hwas hstatus
  · dsimp only
    rw [he]
    rcases hpoint with hin | ⟨-, draftId, digest, point, ht⟩
    · exact hinserted hin
    · exact hconfirm draftId digest point ht

/-- What a transaction has established is still true after an admitted commit of another one. -/
theorem Known.stable (hinj : Set.InjOn sha256 seen) (hs : Solved sha256 seen table)
    {t other : OrderTransaction} {table' : PlannedOrders} (hk : Known sha256 seen table t)
    (h : OrderCommits table t table') (hfree : ¬ t.Conflict other)
    (hok : KeepsClear table t other) (ho : Known sha256 seen table other) :
    Known sha256 seen table' other := by
  cases h with
  | @plan t facts loaded versions solvedFrom hcommits hloaded hold hnew =>
    have hcommit : PlansCommit table t facts versions solvedFrom := ⟨hcommits, hold, hnew⟩
    have hunplanned : ∀ {orderId : UUID}, orderId ∈ other.exclusive → Unplanned table orderId →
        (∀ draftId digest point, t = .confirm draftId digest point →
          orderId ∉ facts.orders.map (·.orderId)) →
        Unplanned ⟨versions, table.orders, solvedFrom⟩ orderId := by
      intro orderId hlock hnone hconfirm
      refine hnone.plan hinj hs hk.1 hk.2.1 hcommit (fun hin hmem ↦ ?_) hconfirm
      refine hfree (.inr (.inr ⟨orderId, hlock, ?_⟩))
      rw [shared_of_inserted hin]
      exact hmem
    cases other with
    | plan t' facts' loaded' =>
      obtain ⟨hf', htied', hbehind', hsolved'⟩ := ho
      have hf : Fact versions t' := planVersions_keeps.stable table.versions t versions t'
        hs.versioned hk.1 hcommits (fun hc ↦ hfree (.inl ⟨t, t', rfl, rfl, hc⟩)) hf'
      exact ⟨hf, htied', hbehind', hsolved'⟩
    | replace orderId values point =>
      cases point with
      | locking => trivial
      | holding order => trivial
      | editable =>
        refine hunplanned List.mem_cons_self ho ?_
        rintro draftId digest point rfl
        exact hok
      | flushed pickupLocationId deliveryLocationId =>
        refine hunplanned List.mem_cons_self ho ?_
        rintro draftId digest point rfl
        exact hok
    | create => trivial
    | advance => trivial
  | create =>
    cases other with
    | plan t' facts' loaded' =>
      obtain ⟨hf', htied', hbehind', hsolved'⟩ := ho
      exact ⟨hf', htied', hbehind', fun hl fact hfact ↦ (hsolved' hl fact hfact).create _⟩
    | replace orderId values point => cases point <;> trivial
    | create => trivial
    | advance => trivial
  | @replace orderId values pickupLocationId deliveryLocationId =>
    cases other with
    | plan t' facts' loaded' =>
      obtain ⟨hf', htied', hbehind', hsolved'⟩ := ho
      refine ⟨hf', htied', hbehind', fun hl fact hfact ↦ (hsolved' hl fact hfact).update _ ?_⟩
      rintro rfl
      have hmem : fact.orderId ∈ facts'.orders.map (·.orderId) := List.mem_map_of_mem hfact
      cases hin : t'.inserted with
      | false => exact hok hl hin hmem
      | true =>
        refine hfree (.inr (.inl ⟨fact.orderId, List.mem_cons_self, .inr ?_⟩))
        rw [shared_of_inserted hin]
        exact hmem
    | replace otherId otherValues point => cases point <;> trivial
    | create => trivial
    | advance => trivial
  | advance =>
    cases other with
    | plan t' facts' loaded' =>
      obtain ⟨hf', htied', hbehind', hsolved'⟩ := ho
      exact ⟨hf', htied', hbehind', fun hl fact hfact ↦ (hsolved' hl fact hfact).advance _ _⟩
    | replace orderId values point => cases point <;> trivial
    | create => trivial
    | advance => trivial

/-! ### Every interleaving -/

/-- Single transactions keep the rows, and what they have read stays true beside the commits that
do not disturb it. -/
theorem plansAndOrders_keeps (hinj : Set.InjOn sha256 seen) :
    (plansAndOrders sha256 seen).KeepsUnder KeepsClear (Solved sha256 seen)
      (Known sha256 seen) where
  symm a b h := by
    rcases h with ⟨t, t', ht, ht', hc⟩ | ⟨orderId, ha, hb⟩ | ⟨orderId, hb, ha⟩
    · exact .inl ⟨t', t, ht', ht, planVersions_keeps.symm t t' hc⟩
    · rcases hb with hb | hb
      · exact .inr (.inl ⟨orderId, hb, .inl ha⟩)
      · exact .inr (.inr ⟨orderId, ha, hb⟩)
    · exact .inr (.inl ⟨orderId, hb, .inr ha⟩)
  begins table t h := by
    have hfact : ∀ {t : PlanTransaction}, Begins t → Fact table.versions t :=
      fun ht ↦ planVersions_keeps.begins table.versions _ ht
    cases h with
    | generate businessDate draft hseen =>
      exact ⟨hfact (.generate _ _ _), ⟨rfl, hseen⟩, fun hb ↦ (by cases hb),
        fun hl ↦ (by cases hl)⟩
    | confirm planId hseen =>
      exact ⟨hfact (.confirm _ _), ⟨rfl, hseen⟩, fun hb ↦ (by cases hb), fun hl ↦ (by cases hl)⟩
    | recover basePlanId facts =>
      exact ⟨hfact (.recover _), trivial, fun hb ↦ (by cases hb), fun hl ↦ (by cases hl)⟩
    | decide basePlanId candidateId approve facts =>
      exact ⟨hfact (.decide _ _ _), trivial, fun hb ↦ (by cases hb), fun hl ↦ (by cases hl)⟩
    | close facts =>
      exact ⟨hfact .close, trivial, fun hb ↦ (by cases hb), fun hl ↦ (by cases hl)⟩
    | create => trivial
    | replace => trivial
    | advance => trivial
  statement _ _ _ hs hk h := hk.statement hs h
  commits _ _ _ hs hk h := hs.commits hinj hk h
  stable _ _ _ _ hs hk h hfree hok ho := hk.stable hinj hs h hfree hok ho

/-- Without plans there is nothing to keep. -/
theorem solved_of_noPlans (orders : List Order) (solvedFrom : UUID → List PlanningOrderFact) :
    Solved sha256 seen ⟨[], orders, solvedFrom⟩ :=
  ⟨versioned_nil, fun _ hr ↦ (by cases hr), fun _ hr ↦ (by cases hr), fun _ hr ↦ (by cases hr)⟩

/-- In every interleaving in which no edit commits while a planner has read the order and not yet
inserted its memberships, and no draft is confirmed while an edit has found one of its orders
unplanned: the orders of every CURRENT plan are, but for their execution status, the ones from
which it, or the plan that it goes back to, was solved. -/
theorem current_orders_as_solved (hinj : Set.InjOn sha256 seen) {orders : List Order}
    {solvedFrom : UUID → List PlanningOrderFact}
    {s : Protocol.State PlannedOrders OrderTransaction}
    (hrun : (plansAndOrders sha256 seen).RunUnder KeepsClear ⟨⟨[], orders, solvedFrom⟩, []⟩ s) :
    ∀ row ∈ s.table.versions, row.status = .current →
      ∀ fact ∈ s.table.solvedFrom row.id, ∃ order ∈ s.table.orders,
        planningOrderFact order = { fact with executionStatus := order.executionStatus } :=
  ((Protocol.Holds.of_idle (solved_of_noPlans orders solvedFrom)).runUnder
    (plansAndOrders_keeps hinj) hrun).table.inForce

end

/-! ### Runs -/

private def plannedOrder : Order :=
  ⟨1, "ORD-1", 1, 1, 1, 1, 2, 0, 0, 0, 3600, 0, 1, .planned, .normal⟩

private def otherOrder : Order :=
  ⟨2, "ORD-2", 2, 1, 1, 1, 2, 0, 0, 0, 3600, 0, 1, .planned, .normal⟩

private def plannedFacts : PlanningFacts := ⟨1, 0, [planningOrderFact plannedOrder], [], [1, 2]⟩

private def hashOf : PlanningFacts → String := fun _ ↦ "hash"

private def seenFacts : Set PlanningFacts := {plannedFacts}

private def unplannedTable (order other : Order) : PlannedOrders :=
  ⟨[], [order, other], fun _ ↦ []⟩

private def currentVersion : PlanVersion := ⟨1, 1, 1, 1, none, .current, .valid, none⟩

private def plannedTable (order other : Order) : PlannedOrders :=
  ⟨[currentVersion], [order, other], fun _ ↦ plannedFacts.orders⟩

-- a later delivery window
private def laterValues (businessDate : BusinessDate) : OrderValues :=
  ⟨businessDate, 1, 1, 0, 0, 1800, 5400, 0, 1⟩

private def laterOrder (order : Order) : Order :=
  (laterValues order.businessDate).replace 1 2 order

private def generating (point : GeneratePoint) (loaded : Bool) : OrderTransaction :=
  .plan (.generate 1 false "hash" point) plannedFacts loaded

private def generated : OrderTransaction :=
  generating (.built none (finalized [] 1 false "hash")) true

private theorem stepAlone {ok : PlannedOrders → OrderTransaction → OrderTransaction → Prop}
    {table : PlannedOrders} {t t' : OrderTransaction} (h : OrderStatement table t t') :
    (plansAndOrders hashOf seenFacts).StepUnder ok ⟨table, [t]⟩ ⟨table, [t']⟩ :=
  Protocol.StepUnder.statement_head h fun _ ho ↦ (by cases ho)

-- a planner that has read its facts again
private theorem loaded_run :
    (plansAndOrders hashOf seenFacts).RunUnder KeepsClear
      ⟨unplannedTable plannedOrder otherOrder, []⟩
      ⟨unplannedTable plannedOrder otherOrder, [generating .checked true]⟩ := by
  have hbegin : (plansAndOrders hashOf seenFacts).StepUnder KeepsClear
      ⟨unplannedTable plannedOrder otherOrder, []⟩
      ⟨unplannedTable plannedOrder otherOrder, [generating .waiting false]⟩ :=
    .begin (.generate 1 false rfl) fun _ ho ↦ (by cases ho)
  have hlock := (Relation.ReflTransGen.single hbegin).tail
    (stepAlone (.plan .lockDate fun hc ↦ (by cases hc)))
  have hcheck := hlock.tail (stepAlone (.plan (.checkCurrent rfl) fun hc ↦ (by cases hc)))
  exact hcheck.tail (stepAlone (.load rfl rfl))

-- nothing of an edit excludes such a planner
private theorem edited_run
    {ok : PlannedOrders → OrderTransaction → OrderTransaction → Prop}
    {order : Order} (hrow : order ∈ [plannedOrder, otherOrder])
    (hok : ok (unplannedTable plannedOrder otherOrder)
      (.replace order.id (laterValues order.businessDate) (.flushed 1 2))
      (generating .checked true)) :
    (plansAndOrders hashOf seenFacts).RunUnder ok
      ⟨unplannedTable plannedOrder otherOrder, [generating .checked true]⟩
      ⟨{ unplannedTable plannedOrder otherOrder with
          orders := updateOrder [plannedOrder, otherOrder] order.id
            ((laterValues order.businessDate).replace 1 2) },
        [generating .checked true]⟩ := by
  have hfree : ∀ point, ∀ other ∈ [generating .checked true],
      ¬ (plansAndOrders hashOf seenFacts).conflict
        (.replace order.id (laterValues order.businessDate) point) other := by
    intro point other ho
    rw [List.mem_singleton.mp ho]
    rintro (⟨t, t', ht, -, -⟩ | ⟨orderId, -, hin | hin⟩ | ⟨orderId, hin, -⟩)
    · cases ht
    · cases hin
    · cases hin
    · cases hin
  have hplanned : order.executionStatus = .planned := by
    rcases List.mem_cons.mp hrow with rfl | hrow
    · rfl
    · rw [List.mem_singleton.mp hrow]
      rfl
  have hstep : ∀ {point point'}, OrderStatement (unplannedTable plannedOrder otherOrder)
      (.replace order.id (laterValues order.businessDate) point)
      (.replace order.id (laterValues order.businessDate) point') →
      (plansAndOrders hashOf seenFacts).StepUnder ok
        ⟨unplannedTable plannedOrder otherOrder,
          [.replace order.id (laterValues order.businessDate) point, generating .checked true]⟩
        ⟨unplannedTable plannedOrder otherOrder,
          [.replace order.id (laterValues order.businessDate) point',
            generating .checked true]⟩ :=
    fun h ↦ Protocol.StepUnder.statement_head h (hfree _)
  have hbegin : (plansAndOrders hashOf seenFacts).StepUnder ok
      ⟨unplannedTable plannedOrder otherOrder, [generating .checked true]⟩
      ⟨unplannedTable plannedOrder otherOrder,
        [.replace order.id (laterValues order.businessDate) .locking,
          generating .checked true]⟩ :=
    .begin (.replace order.id _) (hfree _)
  have hlock := (Relation.ReflTransGen.single hbegin).tail (hstep (.lockReplaced hrow rfl))
  have hcheck := hlock.tail (hstep (.checkEditable hplanned fun _ hr ↦ (by cases hr)))
  have hflush := hcheck.tail (hstep (.flushReplaced 1 2))
  refine hflush.tail (Protocol.StepUnder.commit_head .replace ?_)
  intro other ho
  rw [List.mem_singleton.mp ho]
  exact hok

-- the planner inserts its plan and commits, whatever has become of the orders
private theorem planned_run (order other : Order) :
    (plansAndOrders hashOf seenFacts).RunUnder KeepsClear
      ⟨unplannedTable order other, [generating .checked true]⟩ ⟨plannedTable order other, []⟩ := by
  have hread : (plansAndOrders hashOf seenFacts).StepUnder KeepsClear
      ⟨unplannedTable order other, [generating .checked true]⟩
      ⟨unplannedTable order other, [generating (.read none) true]⟩ :=
    stepAlone (.plan .readPrevious fun _ ↦ rfl)
  have hkeep : (plansAndOrders hashOf seenFacts).StepUnder KeepsClear
      ⟨unplannedTable order other, [generating (.read none) true]⟩
      ⟨unplannedTable order other, [generating (.flushed none) true]⟩ :=
    stepAlone (.plan (.keepPrevious fun hc ↦ (by cases hc)) fun _ ↦ rfl)
  have hbuild : (plansAndOrders hashOf seenFacts).StepUnder KeepsClear
      ⟨unplannedTable order other, [generating (.flushed none) true]⟩
      ⟨unplannedTable order other, [generated]⟩ :=
    stepAlone (.plan .finalize fun _ ↦ rfl)
  have hinserted : Inserted [] (finalized [] 1 false "hash") currentVersion :=
    ⟨rfl, rfl, rfl, rfl, rfl, rfl, fun _ hg ↦ (by cases hg), fun _ _ ho ↦ (by cases ho)⟩
  have hcommits : PlanCommits [] (.generate 1 false "hash"
      (.built none (finalized [] 1 false "hash"))) [currentVersion] :=
    ⟨_, _, rfl, .cons hinserted .nil, List.nodup_singleton _, rfl⟩
  have hcommit : (plansAndOrders hashOf seenFacts).StepUnder KeepsClear
      ⟨unplannedTable order other, [generated]⟩ ⟨plannedTable order other, []⟩ :=
    Protocol.StepUnder.commit_head
      (.plan hcommits (fun _ ↦ rfl) (fun _ ho ↦ (by cases ho)) fun _ _ _ ↦ rfl)
      fun _ ho ↦ (by cases ho)
  exact (((Relation.ReflTransGen.single hread).tail hkeep).tail hbuild).tail hcommit

-- an order under way
private theorem advanced_run (other : Order) :
    (plansAndOrders hashOf seenFacts).RunUnder KeepsClear ⟨plannedTable plannedOrder other, []⟩
      ⟨{ plannedTable plannedOrder other with
          orders := updateOrder [plannedOrder, other] 1
            fun order ↦ { order with executionStatus := .pickupInProgress } }, []⟩ := by
  have hbegin : (plansAndOrders hashOf seenFacts).StepUnder KeepsClear
      ⟨plannedTable plannedOrder other, []⟩
      ⟨plannedTable plannedOrder other, [.advance 1 .pickupInProgress .locking]⟩ :=
    .begin (.advance 1 _) fun _ ho ↦ (by cases ho)
  have hlock : (plansAndOrders hashOf seenFacts).StepUnder KeepsClear
      ⟨plannedTable plannedOrder other, [.advance 1 .pickupInProgress .locking]⟩
      ⟨plannedTable plannedOrder other,
        [.advance 1 .pickupInProgress (.holding plannedOrder)]⟩ :=
    stepAlone (.lockAdvanced List.mem_cons_self rfl)
  have hflush := ((Relation.ReflTransGen.single hbegin).tail hlock).tail
    (stepAlone (.flushAdvanced rfl))
  exact hflush.tail (Protocol.StepUnder.commit_head .advance fun _ ho ↦ (by cases ho))

/-- An order of another date is edited beside a planner that has read its facts, the plan is
committed, and its order is on the way: all that differs is the execution status. -/
theorem current_orders_as_solved_planned :
    ∃ s : Protocol.State PlannedOrders OrderTransaction,
      (plansAndOrders hashOf seenFacts).RunUnder KeepsClear
        ⟨unplannedTable plannedOrder otherOrder, []⟩ s ∧
      s.table.versions.map (·.status) = [.current] ∧ s.table.members 1 = [1] ∧
      s.table.orders.map (·.deliveryWindowEndAt) = [3600, 5400] ∧
      s.table.orders.map (·.executionStatus) = [.pickupInProgress, .planned] ∧
      ∀ row ∈ s.table.versions, row.status = .current →
        ∀ fact ∈ s.table.solvedFrom row.id, ∃ order ∈ s.table.orders,
          planningOrderFact order = { fact with executionStatus := order.executionStatus } := by
  have hclear : KeepsClear (unplannedTable plannedOrder otherOrder)
      (.replace otherOrder.id (laterValues otherOrder.businessDate) (.flushed 1 2))
      (generating .checked true) := by
    intro _ _
    decide
  have hedited := loaded_run.trans
    (edited_run (List.mem_cons_of_mem _ List.mem_cons_self) hclear)
  have hplanned := hedited.trans (planned_run plannedOrder (laterOrder otherOrder))
  have hrun := hplanned.trans (advanced_run (laterOrder otherOrder))
  exact ⟨_, hrun, rfl, rfl, rfl, rfl, current_orders_as_solved (Set.injOn_singleton _ _) hrun⟩

/-- An edit that begins and commits behind the second reading of the facts is seen by neither
side: the plan becomes CURRENT for an order that it was not solved for. -/
theorem edited_behind_load :
    ∃ s : Protocol.State PlannedOrders OrderTransaction,
      (plansAndOrders hashOf seenFacts).Run ⟨unplannedTable plannedOrder otherOrder, []⟩ s ∧
        ¬ SolvedForOrders s.table := by
  have hrow : plannedOrder ∈ [plannedOrder, otherOrder] := List.mem_cons_self
  have hedited := Protocol.run_of_runUnder
    (@edited_run (fun _ _ _ ↦ True) plannedOrder hrow trivial)
  have hplanned := Protocol.run_of_runUnder (planned_run (laterOrder plannedOrder) otherOrder)
  refine ⟨_, ((Protocol.run_of_runUnder loaded_run).trans hedited).trans hplanned, ?_⟩
  intro hsolved
  obtain ⟨order, ho, he⟩ := hsolved currentVersion List.mem_cons_self rfl
    (planningOrderFact plannedOrder) List.mem_cons_self
  rcases List.mem_cons.mp ho with rfl | ho
  · exact absurd (congrArg PlanningOrderFact.deliveryWindowEndAt he) (by decide)
  · rw [List.mem_singleton.mp ho] at he
    exact absurd (congrArg PlanningOrderFact.orderId he) (by decide)

end PenroseRoute.Planning
