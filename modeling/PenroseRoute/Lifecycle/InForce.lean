import PenroseRoute.Lifecycle.Frames

/-!
# The plans in force

Only an approval changes which plans are CURRENT: runs add candidates, and what they, a
rejection, a modification and a regeneration cancel are the candidates of pending attempts.
-/

namespace PenroseRoute.Lifecycle

open PenroseRoute.Db PenroseRoute.Lib PenroseRoute.Recovery PenroseRoute.Optimization

variable {db db' : Database}

/-- Two databases with the same CURRENT plans. -/
def SameCurrent (db db' : Database) : Prop :=
  ∀ plan : DeliveryPlan, plan.status = .current → (plan ∈ db'.plans ↔ plan ∈ db.plans)

/-- The same plans have the same ones in force. -/
theorem SameCurrent.of_plans (h : db'.plans = db.plans) : SameCurrent db db' := by
  intro plan _
  rw [h]

/-- What two transactions leave in force is left by both. -/
theorem SameCurrent.trans {db'' : Database} (h : SameCurrent db db') (h' : SameCurrent db' db'') :
    SameCurrent db db'' :=
  fun plan hp ↦ (h' plan hp).trans (h plan hp)

/-! ### Cancelled candidates -/

private theorem sameCurrent_updateWhere (plans : List DeliveryPlan) {cond : DeliveryPlan → Bool}
    {status : DeliveryPlanStatus} (hs : status ≠ .current)
    (hc : ∀ plan ∈ plans, cond plan = true → plan.status ≠ .current) (plan : DeliveryPlan)
    (hp : plan.status = .current) :
    plan ∈ updateWhere plans cond (fun row ↦ { row with status := status }) ↔ plan ∈ plans := by
  constructor
  · intro hm
    obtain ⟨old, hold, ⟨-, rfl⟩ | ⟨-, rfl⟩⟩ := mem_updateWhere.mp hm
    · exact absurd hp hs
    · exact hold
  · intro hm
    refine mem_updateWhere_of_false hm (Bool.eq_false_iff.mpr fun hcond ↦ ?_)
    exact hc plan hm hcond hp

/-- The candidate of a pending attempt is not CURRENT. -/
theorem not_current_of_pending (hl : (ledgerOf db).Sound) {attempt : RecoveryPlan}
    (ha : attempt ∈ db.recoveryPlans) (hp : attempt.isPending = true) {plan : DeliveryPlan}
    (hplan : plan ∈ db.plans) (hid : attempt.candidateDeliveryPlanId = some plan.id) :
    plan.status ≠ .current := by
  obtain ⟨-, -, -, header, hheader, hhid, hstatus, -⟩ :=
    (hl.reviewed.shaped attempt ha).pending hp
  obtain ⟨own, hown, rfl⟩ := List.mem_map.mp hheader
  rw [hid, Option.some.injEq] at hhid
  have hsame := eq_of_key_eq hl.planIds hplan hown hhid
  rw [hsame]
  intro hc
  have hcandidate : own.status = .candidate := hstatus
  rw [hc] at hcandidate
  cases hcandidate

/-- Cancelling the candidates of pending attempts leaves the CURRENT plans. -/
theorem sameCurrent_retire (hl : (ledgerOf db).Sound) {retiring : RecoveryPlan → Bool}
    (hpending : ∀ attempt ∈ db.recoveryPlans, retiring attempt = true → attempt.isPending = true)
    (h : db'.plans = updateWhere db.plans
      (fun plan ↦ (db.recoveryPlans.filter retiring).any
        (·.candidateDeliveryPlanId == some plan.id)) fun plan ↦
          { plan with status := .cancelled }) : SameCurrent db db' := by
  intro plan hp
  rw [h]
  refine sameCurrent_updateWhere _ (by decide) ?_ plan hp
  intro row hrow hc
  obtain ⟨attempt, ha, hid⟩ := List.any_eq_true.mp hc
  obtain ⟨hmem, hr⟩ := List.mem_filter.mp ha
  exact not_current_of_pending hl hmem (hpending attempt hmem hr) hrow (beq_iff_eq.mp hid)

/-- So does cancelling the candidate of a locked attempt. -/
theorem sameCurrent_updatePlan (hl : (ledgerOf db).Sound) {recoveryId : UUID}
    {reviewable : Decisions.Reviewable} (h : Decisions.Locked db recoveryId reviewable) :
    SameCurrent db (db.updatePlan reviewable.candidate.id fun plan ↦
      { plan with status := .cancelled }) := by
  intro plan hp
  refine sameCurrent_updateWhere _ (by decide) ?_ plan hp
  intro row hrow hc
  refine not_current_of_pending hl (recoveryPlan?_mem h.recovery).1 h.pending hrow ?_
  rw [h.candidateId, eq_of_beq hc]

/-! ### Transactions -/

/-- Closing pending attempts. -/
theorem sameCurrent_closeAttempts (hl : (ledgerOf db).Sound) {closing : RecoveryPlan → Bool}
    (hpending : ∀ attempt ∈ db.recoveryPlans, closing attempt = true → attempt.isPending = true) :
    SameCurrent db (RecoveryOptionsWorkflow.closeAttempts db closing) :=
  sameCurrent_retire hl hpending rfl

/-- Starting a recovery leaves the plans in force. -/
theorem start_sameCurrent {incidentId : UUID} {now : Instant} {run : Run}
    (hs : RecoveryWorkflow.start db incidentId now = .ok (db', run)) : SameCurrent db db' := by
  obtain ⟨incident, -, hs⟩ := bind_eq_ok.mp hs
  obtain ⟨-, hs⟩ := unit_bind_eq_ok.mp hs
  obtain ⟨context, -, hs⟩ := bind_eq_ok.mp hs
  obtain ⟨reserved, hr, hs⟩ := bind_eq_ok.mp hs
  cases hs
  obtain ⟨-, rfl⟩ := addRecoveryPlan_ok hr
  exact .of_plans rfl

/-- Starting options leaves the plans in force. -/
theorem startOptions_sameCurrent (hl : (ledgerOf db).Sound) {incidentId : UUID}
    {maxCandidates : CandidateLimit} {regenerate : Bool} {now : Instant} {run : Run}
    (hs : RecoveryOptionsWorkflow.start db incidentId maxCandidates regenerate now =
      .ok (db', run)) : SameCurrent db db' := by
  obtain ⟨incident, -, hs⟩ := bind_eq_ok.mp hs
  obtain ⟨-, hs⟩ := unit_bind_eq_ok.mp hs
  obtain ⟨context, -, hs⟩ := bind_eq_ok.mp hs
  obtain ⟨reserved, hr, hs⟩ := bind_eq_ok.mp hs
  cases hs
  obtain ⟨-, rfl⟩ := addRecoveryPlan_ok hr
  exact (sameCurrent_closeAttempts hl fun _ _ hc ↦ (Bool.and_eq_true_iff.mp hc).2).trans
    (.of_plans rfl)

/-- A rejection leaves the plans in force. -/
theorem applyRejection_sameCurrent (hl : (ledgerOf db).Sound) {recoveryId : UUID}
    {reviewable : Decisions.Reviewable} (h : Decisions.Locked db recoveryId reviewable) :
    SameCurrent db (Decisions.applyRejection db reviewable) :=
  (sameCurrent_updatePlan hl h).trans (.of_plans rfl)

/-- A modification leaves the plans in force. -/
theorem modify_sameCurrent (hl : (ledgerOf db).Sound) {fingerprint : RecoveryContext → Nat}
    {recoveryId : UUID} {reason : String} {run : Run}
    (hm : Decisions.modify fingerprint db recoveryId reason = .ok (db', run)) :
    SameCurrent db db' := by
  obtain ⟨reviewable, scope, last, hlocked, -, -, -, hadd, -⟩ := Decisions.modify_ok hm
  obtain ⟨-, rfl⟩ := addRecoveryPlan_ok hadd
  have hretired : Moves none (ledgerOf db) (ledgerOf ((db.updatePlan reviewable.candidate.id
      fun plan ↦ { plan with status := .cancelled }).updateRecoveryPlan reviewable.recovery.id
        (Decisions.setDecision .modify))) := by
    rw [ledgerOf_updateRecoveryPlan, ledgerOf_updatePlan_status]
    exact setDecision_moves hl hlocked .modify (by decide)
  have hcancelled : SameCurrent db ((db.updatePlan reviewable.candidate.id fun plan ↦
      { plan with status := .cancelled }).updateRecoveryPlan reviewable.recovery.id
        (Decisions.setDecision .modify)) :=
    (sameCurrent_updatePlan hl hlocked).trans (.of_plans rfl)
  have hmodified : SameCurrent db (Decisions.applyModification db reviewable) := by
    rw [Decisions.applyModification]
    split
    · refine (hcancelled.trans (sameCurrent_closeAttempts (hretired.sound hl) ?_)).trans
        (.of_plans rfl)
      exact fun _ _ hs ↦ (isPendingSibling_iff.mp hs).2.2
    · exact hcancelled.trans (.of_plans rfl)
  exact hmodified.trans (.of_plans rfl)

/-- A new candidate is not CURRENT. -/
theorem createCandidate_sameCurrent {context : RecoveryContext} {result : SolverResult}
    {roads : RoadRoutes} {candidate : DeliveryPlan}
    (h : createCandidate db context result roads = .ok (db', candidate)) :
    SameCurrent db db' := by
  obtain ⟨hcreated, rfl⟩ := createCandidate_ok h
  intro plan hp
  rw [List.mem_append, List.mem_singleton]
  refine ⟨fun hm ↦ hm.resolve_right ?_, .inl⟩
  rintro rfl
  rw [hcreated.row] at hp
  cases hp

variable {run : Run} {fingerprint : RecoveryContext → Nat}

/-- The candidate of a run leaves the plans in force. -/
theorem finish_sameCurrent {services : WorkflowServices} {context : RecoveryContext}
    {result : SolverResult} {roads : RoadRoutes}
    (hfin : RecoveryWorkflow.finish services db run context result roads = .ok db') :
    SameCurrent db db' := by
  obtain ⟨-, hfin⟩ := unit_bind_eq_ok.mp hfin
  obtain ⟨currentContext, -, hfin⟩ := bind_eq_ok.mp hfin
  obtain ⟨-, hfin⟩ := unit_bind_eq_ok.mp hfin
  obtain ⟨locked, -, hfin⟩ := bind_eq_ok.mp hfin
  obtain ⟨⟨created, candidate⟩, hc, hfin⟩ := bind_eq_ok.mp hfin
  obtain ⟨-, hfin⟩ := unit_bind_eq_ok.mp hfin
  obtain ⟨incident, -, hfin⟩ := bind_eq_ok.mp hfin
  cases hfin
  exact (createCandidate_sameCurrent hc).trans (.of_plans rfl)

/-- Every pass of the loop adds at most a candidate. -/
theorem persistOption_sameCurrent {services : Services} {batchId : UUID} {reserved : RecoveryPlan}
    {batch batch' : RecoveryOptionsWorkflow.Batch} {option : RecoveryContext × SolverResult}
    (h : RecoveryOptionsWorkflow.persistOption services fingerprint batchId reserved batch option =
      .ok batch') : SameCurrent batch.db batch'.db := by
  rcases RecoveryOptionsWorkflow.persistOption_ok h with
    rfl | ⟨created, candidate, added, attempt, metrics, hc, hn, rfl⟩
  · exact .of_plans rfl
  · refine (createCandidate_sameCurrent hc).trans (.of_plans ?_)
    cases hprevious : batch.rows.getLast? with
    | none =>
      rw [RecoveryOptionsWorkflow.nextRow, hprevious] at hn
      cases hn
      rfl
    | some previous =>
      obtain ⟨-, rfl⟩ := nextRow_ok hprevious hn
      rfl

/-- The loop adds candidates, and what is filtered behind it are candidates. -/
theorem closeBatch_sameCurrent (hl : (ledgerOf db).Sound) {services : Services}
    {maxCandidates : Nat} {reserved : RecoveryPlan} {batch : RecoveryOptionsWorkflow.Batch}
    {solved : List (RecoveryContext × SolverResult)}
    (hb : BatchOk (ledgerOf db) run db.nextId reserved batch)
    (hfold : solved.foldlM (RecoveryOptionsWorkflow.persistOption services fingerprint db.nextId
      reserved) { db := { db with nextId := db.nextId + 1 }, rows := [], signatures := [] } =
        .ok batch) :
    SameCurrent db (RecoveryOptionsWorkflow.closeBatch run maxCandidates batch) := by
  have hloop : SameCurrent db batch.db := by
    refine foldlM_invariant (I := fun batch ↦ SameCurrent db batch.db) ?_ (.of_plans rfl) hfold
    exact fun _ _ _ _ hbatch hp ↦ hbatch.trans (persistOption_sameCurrent hp)
  refine hloop.trans ?_
  by_cases hrows : batch.rows = []
  · rw [closeBatch_nil hrows]
    exact .of_plans rfl
  · rw [closeBatch_cons hrows]
    refine (sameCurrent_retire (hb.moves.sound hl) ?_ rfl).trans (.of_plans rfl)
    intro attempt ha hc
    exact (hb.row_eq hl ha (mem_rowsBeyond (List.contains_iff_mem.mp hc))).2

/-- The candidates of a batch leave the plans in force. -/
theorem generate_sameCurrent (hl : (ledgerOf db).Sound) (h : Held (ledgerOf db) run)
    (hw : working run.point = true) {services : Services} {maxCandidates : Nat}
    {contexts : List RecoveryContext}
    (hg : RecoveryOptionsWorkflow.generate services fingerprint db run maxCandidates contexts =
      .ok db') : SameCurrent db db' := by
  obtain ⟨-, reserved, batch, solved, -, -, hb, hfold, rfl⟩ := generate_batch hl h hw hg
  exact closeBatch_sameCurrent hl hb hfold

/-- No step of a run changes which plans are CURRENT. -/
theorem step_sameCurrent (hl : (ledgerOf db).Sound) (h : Held (ledgerOf db) run)
    (services : WorkflowServices) (now : Instant) :
    SameCurrent db (run.step services fingerprint db now).1 := by
  have honward : ∀ {α : Type} (outcome : Except AppError α) (failed : AppError → RunPoint)
      (next : α → RunPoint), SameCurrent db (run.onward db outcome failed
        fun a ↦ (db, { run with point := next a })).1 := by
    intro α outcome failed next
    cases outcome <;> exact .of_plans rfl
  rw [Run.step]
  split
  · exact honward _ _ _
  · exact honward _ _ _
  · rw [RecoveryWorkflow.attempt]
    split
    · exact .of_plans rfl
    · exact .of_plans rfl
    · exact .of_plans rfl
    · exact .of_plans rfl
    · split
      · next hfin => exact finish_sameCurrent hfin
      · exact .of_plans rfl
  · rw [RecoveryWorkflow.widen]
    split
    · exact .of_plans rfl
    · split
      · next he =>
        obtain ⟨-, he⟩ := unit_bind_eq_ok.mp he
        obtain ⟨wider, -, he⟩ := bind_eq_ok.mp he
        obtain ⟨reserved, hr, he⟩ := bind_eq_ok.mp he
        cases he
        obtain ⟨-, rfl⟩ := addRecoveryPlan_ok hr
        exact .of_plans rfl
      · exact .of_plans rfl
  · exact honward _ _ _
  · exact honward _ _ _
  · next contexts maxCandidates hp hw =>
    cases hg : RecoveryOptionsWorkflow.generate services.toServices fingerprint db run
        maxCandidates contexts with
    | ok finished => exact generate_sameCurrent hl h (by rw [hp]; rfl) hg
    | error error => exact .of_plans rfl
  · exact .of_plans rfl
  · exact .of_plans rfl
  · exact .of_plans rfl
  · exact .of_plans rfl

/-! ### Approvals -/

/-- An approval puts the candidate in the place of its base plan. -/
theorem applyApproval_current (hl : (ledgerOf db).Sound) {recoveryId : UUID}
    {reviewable : Decisions.Reviewable} (h : Decisions.Locked db recoveryId reviewable)
    (plan : DeliveryPlan) (hp : plan.status = .current) :
    plan ∈ (Decisions.applyApproval db reviewable).plans ↔
      plan = { reviewable.candidate with status := .current } ∨
        (plan ∈ db.plans ∧ plan.id ≠ reviewable.base.id) := by
  obtain ⟨hbase, -⟩ := plan?_mem h.base
  obtain ⟨hcandidate, -⟩ := plan?_mem h.candidate
  have hne : reviewable.candidate.id ≠ reviewable.base.id := by
    intro he
    have hstatus := h.columns.1
    rw [eq_of_key_eq hl.planIds hcandidate hbase he, h.baseCurrent] at hstatus
    cases hstatus
  let superseded := updateWhere db.plans (·.id == reviewable.base.id) fun row ↦
    { row with status := .superseded }
  let activated := updateWhere superseded (·.id == reviewable.candidate.id) fun row ↦
    { row with status := .current }
  have hactivated : ∀ plan : DeliveryPlan, plan.status = .current → (plan ∈ activated ↔
      plan = { reviewable.candidate with status := .current } ∨
        (plan ∈ db.plans ∧ plan.id ≠ reviewable.base.id)) := by
    intro plan hp
    constructor
    · intro hm
      obtain ⟨row, hrow, ⟨hid, rfl⟩ | ⟨-, rfl⟩⟩ := mem_updateWhere.mp hm
      · obtain ⟨old, hold, ⟨hb, rfl⟩ | ⟨-, rfl⟩⟩ := mem_updateWhere.mp hrow
        · exact absurd ((eq_of_beq hid).symm.trans (eq_of_beq hb)) hne
        · rw [eq_of_key_eq hl.planIds hold hcandidate (eq_of_beq hid)]
          exact .inl rfl
      · obtain ⟨old, hold, ⟨-, rfl⟩ | ⟨hb, rfl⟩⟩ := mem_updateWhere.mp hrow
        · cases hp
        · exact .inr ⟨hold, beq_eq_false_iff_ne.mp hb⟩
    · rintro (rfl | ⟨hm, hid⟩)
      · have hrow : reviewable.candidate ∈ superseded :=
          mem_updateWhere_of_false hcandidate (beq_false_of_ne hne)
        exact mem_updateWhere_of_true hrow (beq_self_eq_true _)
      · have hrow : plan ∈ superseded := mem_updateWhere_of_false hm (beq_false_of_ne hid)
        refine mem_updateWhere_of_false hrow (beq_false_of_ne fun he ↦ ?_)
        rw [eq_of_key_eq hl.planIds hm hcandidate he, h.columns.1] at hp
        cases hp
  rw [Decisions.applyApproval]
  split
  · refine Iff.trans (sameCurrent_updateWhere activated (by decide) ?_ plan hp)
      (hactivated plan hp)
    -- The siblings are pending, so their candidates are neither of the two plans.
    intro row hrow hc hcurrent
    obtain ⟨attempt, ha, hid⟩ := List.any_eq_true.mp hc
    obtain ⟨hm, hs⟩ := List.mem_filter.mp ha
    obtain ⟨old, hold, ⟨-, rfl⟩ | ⟨-, rfl⟩⟩ := mem_updateWhere.mp hm
    · cases (isPendingSibling_iff.mp hs).2.2
    · have hsibling := sibling_candidate hl h
        (candidatesOf_iff.mpr ⟨attempt, hold, hs, beq_iff_eq.mp hid⟩)
      rcases (hactivated row hcurrent).mp hrow with rfl | ⟨hrow, -⟩
      · exact hsibling.2 rfl
      · exact not_current_of_pending hl hold (isPendingSibling_iff.mp hs).2.2 hrow
          (beq_iff_eq.mp hid) hcurrent
  · exact hactivated plan hp

/-! ### Superseded plans -/

private theorem hasPlan_setPlans {l : Ledger} {id : UUID} {status other : DeliveryPlanStatus}
    {ids : UUID → Bool} (h : l.HasPlan id status) (hid : ids id = false) :
    (l.setPlans ids other).HasPlan id status :=
  h.mono fun _ hm he ↦ Ledger.mem_setPlans_of_false hm (by rw [he]; exact hid)

private theorem candidate_ne_superseded {l : Ledger} (hl : l.Sound) {attempt : RecoveryPlan}
    (ha : attempt ∈ l.attempts) (hp : attempt.isPending = true) {id : UUID}
    (h : l.HasPlan id .superseded) : attempt.candidateDeliveryPlanId ≠ some id := by
  intro hid
  obtain ⟨-, -, -, plan, hm, hc, hs, -⟩ := (hl.reviewed.shaped attempt ha).pending hp
  rw [hid, Option.some.injEq] at hc
  cases h.status_eq hl.numbered ⟨plan, hm, hc.symm, hs⟩

/-- A plan that has been superseded stays so. -/
theorem Move.superseded {own : Option UUID} {l l' : Ledger} (m : Move own l l') (hl : l.Sound)
    {id : UUID} (h : l.HasPlan id .superseded) : l'.HasPlan id .superseded := by
  cases m with
  | age | report | touch | reserve | record => exact h
  | fill => exact h.mono fun _ hm _ ↦ List.mem_append_left _ hm
  | append => exact h.mono fun _ hm _ ↦ List.mem_append_left _ hm
  | retire retiring cancelled f hf hpending hplans =>
    refine hasPlan_setPlans h (Bool.eq_false_iff.mpr fun hc ↦ ?_)
    have hplan := h
    obtain ⟨plan, hm, rfl, -⟩ := hplan
    obtain ⟨attempt, ha, hr, hid⟩ := (hplans plan hm).mp hc
    exact candidate_ne_superseded hl ha (hpending attempt ha hr) h hid
  | approve attempt base candidate hmem hpending honly hbase hcandidate hdate =>
    have hne : candidate.id ≠ id := fun he ↦
      candidate_ne_superseded hl hmem hpending h (he ▸ hcandidate.2)
    have hsuperseded : (l.setPlans (· == base.id) .superseded).HasPlan id .superseded := by
      obtain ⟨plan, hm, rfl, hs⟩ := h
      by_cases hb : plan.id = base.id
      · exact ⟨_, mem_updateWhere_of_true hm (beq_iff_eq.mpr hb), rfl, rfl⟩
      · exact ⟨plan, mem_updateWhere_of_false hm (beq_false_of_ne hb), rfl, hs⟩
    have hid : (id == candidate.id) = false := beq_false_of_ne hne.symm
    exact @hasPlan_setPlans _ _ _ _ (· == candidate.id) hsuperseded hid

/-- A SUPERSEDED plan stays one. -/
theorem Moves.superseded {own : Option UUID} {l l' : Ledger} (m : Moves own l l') (hl : l.Sound)
    {id : UUID} (h : l.HasPlan id .superseded) : l'.HasPlan id .superseded := by
  induction m with
  | refl => exact h
  | tail hm m ih => exact m.superseded (hm.sound hl) ih

/-- An approval supersedes the base plan of its attempt. -/
theorem applyApproval_superseded (hl : (ledgerOf db).Sound) {recoveryId : UUID}
    {reviewable : Decisions.Reviewable} (h : Decisions.Locked db recoveryId reviewable) :
    (ledgerOf (Decisions.applyApproval db reviewable)).HasPlan
      reviewable.recovery.baseDeliveryPlanId .superseded := by
  have hmoves : Moves none (ledgerOf db) (ledgerOf (Decisions.applyApproval db reviewable)) :=
    applyApproval_moves hl h
  have hafter := hmoves.sound hl
  obtain ⟨-, -, -, hbase, -⟩ := locked_mem h
  have hincidents : (Decisions.applyApproval db reviewable).incidents =
      updateWhere db.incidents (·.id == reviewable.incident.id) fun incident ↦
        { incident with status := .resolved } := by
    rw [Decisions.applyApproval]
    split <;> rfl
  have hincident : { reviewable.incident with status := .resolved } ∈
      (Decisions.applyApproval db reviewable).incidents := by
    rw [hincidents]
    exact mem_updateWhere_of_true (incident?_mem h.incident).1 (beq_self_eq_true _)
  have hinforce := hafter.reviewed.inForce _ (incidentHeaderOf_mem hincident)
  have hplan : reviewable.incident.deliveryPlanId = reviewable.base.id := h.incidentPlan
  change (ledgerOf _).PlanInForce reviewable.incident.deliveryPlanId at hinforce
  rw [hplan, hbase] at hinforce
  rcases hinforce with ⟨header, hheader, hid, hs⟩ | ⟨hsuperseded, -⟩
  · obtain ⟨plan, hp, rfl⟩ := List.mem_map.mp hheader
    rcases (applyApproval_current hl h plan hs).mp hp with rfl | ⟨-, hne⟩
    · have hcandidate := h.columns.1
      have hsame := eq_of_key_eq hl.planIds (plan?_mem h.candidate).1 (plan?_mem h.base).1
        (hid.trans hbase.symm)
      rw [hsame, h.baseCurrent] at hcandidate
      cases hcandidate
    · exact absurd (hid.trans hbase.symm) hne
  · exact hsuperseded

end PenroseRoute.Lifecycle
