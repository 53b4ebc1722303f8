import PenroseRoute.Lifecycle.Numbered

/-!
# The lifecycle invariant

What the statuses of plans, incidents and attempts have to do with each other, and that every
move keeps it so. The invariant looks at one attempt, or at two of the same incident, so each
move is checked on the rows that it writes.
-/

namespace PenroseRoute.Lifecycle

open PenroseRoute.Db PenroseRoute.Lib

/-- What the status of an attempt says about its other columns and its candidate. -/
def Ledger.Shaped (l : Ledger) (attempt : RecoveryPlan) : Prop :=
  match attempt.status with
  | .draft => attempt.dispatcherDecision = none ∧
      (attempt.solverStatus = none → attempt.candidateDeliveryPlanId = none) ∧
      ∀ id, attempt.candidateDeliveryPlanId = some id → l.HasPlan id .cancelled
  | .pendingReview => attempt.solverStatus = some .feasible ∧
      attempt.validationStatus = some .valid ∧ attempt.dispatcherDecision = none ∧
      ∃ plan ∈ l.plans, attempt.candidateDeliveryPlanId = some plan.id ∧
        plan.status = .candidate ∧ plan.parentPlanId = some attempt.baseDeliveryPlanId
  | .decided => ∃ id, attempt.candidateDeliveryPlanId = some id ∧
      ((attempt.dispatcherDecision = some .approve ∧
          (l.HasPlan id .current ∨ l.HasPlan id .superseded)) ∨
        (attempt.dispatcherDecision.isSome ∧ attempt.dispatcherDecision ≠ some .approve ∧
          l.HasPlan id .cancelled))

/-- An attempt that was approved. -/
def Approved (attempt : RecoveryPlan) : Prop := attempt.dispatcherDecision = some .approve

/-- The plan of an incident is CURRENT, or a recovery from it has been approved. -/
def Ledger.PlanInForce (l : Ledger) (planId : UUID) : Prop :=
  l.HasPlan planId .current ∨ (l.HasPlan planId .superseded ∧
    ∃ attempt ∈ l.attempts, Approved attempt ∧ attempt.baseDeliveryPlanId = planId)

/-- The statuses of a ledger go together. -/
structure Ledger.Reviewed (l : Ledger) : Prop where
  shaped : ∀ attempt ∈ l.attempts, l.Shaped attempt
  ownCandidate : ∀ a ∈ l.attempts, ∀ b ∈ l.attempts, ∀ id,
    a.candidateDeliveryPlanId = some id → b.candidateDeliveryPlanId = some id → a = b
  inFlightLast : ∀ a ∈ l.attempts, ∀ b ∈ l.attempts, a.inFlight = true →
    b.incidentId = a.incidentId → b.attemptNo ≤ a.attemptNo
  pendingLast : ∀ a ∈ l.attempts, ∀ b ∈ l.attempts, a.isPending = true →
    b.incidentId = a.incidentId → a.attemptNo ≤ b.attemptNo →
      b.candidateDeliveryPlanId.isSome
  pendingOpen : ∀ a ∈ l.attempts, a.isPending = true → l.Open a.incidentId
  approvedResolved : ∀ a ∈ l.attempts, Approved a → ∀ incident ∈ l.incidents,
    incident.id = a.incidentId → incident.status = .resolved
  approvedOnce : ∀ a ∈ l.attempts, ∀ b ∈ l.attempts, Approved a → Approved b →
    b.incidentId = a.incidentId → a = b
  oneBatch : ∀ a ∈ l.attempts, ∀ b ∈ l.attempts, a.isPending = true → b.isPending = true →
    b.incidentId = a.incidentId → a = b ∨ (a.options.isSome ∧
      a.options.map (·.batchId) = b.options.map (·.batchId))
  currentOnce : ∀ p ∈ l.plans, ∀ q ∈ l.plans, p.status = .current → q.status = .current →
    p.businessDate = q.businessDate → p = q
  inForce : ∀ incident ∈ l.incidents, l.PlanInForce incident.deliveryPlanId

/-! ### Statuses -/

/-- An attempt in flight is a draft without a solver status. -/
theorem inFlight_iff {attempt : RecoveryPlan} :
    attempt.inFlight = true ↔ attempt.status = .draft ∧ attempt.solverStatus = none := by
  rw [RecoveryPlan.inFlight, Bool.and_eq_true, beq_iff_eq, Option.isNone_iff_eq_none]

/-- An attempt is pending by its status. -/
theorem isPending_iff {attempt : RecoveryPlan} :
    attempt.isPending = true ↔ attempt.status = .pendingReview := by
  rw [RecoveryPlan.isPending, beq_iff_eq]

/-- An attempt of another status is not pending. -/
theorem isPending_eq_false {attempt : RecoveryPlan} (h : attempt.status ≠ .pendingReview) :
    attempt.isPending = false :=
  Bool.eq_false_iff.mpr fun hp ↦ h (isPending_iff.mp hp)

namespace Ledger

variable {l : Ledger}

/-- A DRAFT has no decision, and its candidate, if it has one, is CANCELLED. -/
theorem Shaped.draft {attempt : RecoveryPlan} (h : l.Shaped attempt)
    (hs : attempt.status = .draft) : attempt.dispatcherDecision = none ∧
      (attempt.solverStatus = none → attempt.candidateDeliveryPlanId = none) ∧
      ∀ id, attempt.candidateDeliveryPlanId = some id → l.HasPlan id .cancelled := by
  rw [Shaped, hs] at h
  exact h

/-- A pending attempt is FEASIBLE and VALID and has a CANDIDATE of its base plan. -/
theorem Shaped.pending {attempt : RecoveryPlan} (h : l.Shaped attempt)
    (hs : attempt.isPending = true) : attempt.solverStatus = some .feasible ∧
      attempt.validationStatus = some .valid ∧ attempt.dispatcherDecision = none ∧
      ∃ plan ∈ l.plans, attempt.candidateDeliveryPlanId = some plan.id ∧
        plan.status = .candidate ∧ plan.parentPlanId = some attempt.baseDeliveryPlanId := by
  rw [isPending_iff] at hs
  rw [Shaped, hs] at h
  exact h

/-- The candidate of a decided attempt is in force, or was, if it is approved, and else CANCELLED.
-/
theorem Shaped.decided {attempt : RecoveryPlan} (h : l.Shaped attempt)
    (hs : attempt.status = .decided) : ∃ id, attempt.candidateDeliveryPlanId = some id ∧
      ((attempt.dispatcherDecision = some .approve ∧
          (l.HasPlan id .current ∨ l.HasPlan id .superseded)) ∨
        (attempt.dispatcherDecision.isSome ∧ attempt.dispatcherDecision ≠ some .approve ∧
          l.HasPlan id .cancelled)) := by
  rw [Shaped, hs] at h
  exact h

/-- An attempt in flight owns nothing and is not decided. -/
theorem Shaped.inFlight {attempt : RecoveryPlan} (h : l.Shaped attempt)
    (hs : attempt.inFlight = true) : attempt.candidateDeliveryPlanId = none ∧
      attempt.dispatcherDecision = none := by
  obtain ⟨hd, hn⟩ := inFlight_iff.mp hs
  exact ⟨(h.draft hd).2.1 hn, (h.draft hd).1⟩

/-- Only decided attempts are approved. -/
theorem Shaped.decided_of_approved {attempt : RecoveryPlan} (h : l.Shaped attempt)
    (ha : Approved attempt) : attempt.status = .decided := by
  cases hs : attempt.status with
  | draft =>
    have hd := (h.draft hs).1
    rw [ha] at hd
    cases hd
  | pendingReview =>
    have hd := (h.pending (isPending_iff.mpr hs)).2.2.1
    rw [ha] at hd
    cases hd
  | decided => rfl

/-- An approved attempt owns a plan that is or was CURRENT. -/
theorem Shaped.approved {attempt : RecoveryPlan} (h : l.Shaped attempt)
    (ha : Approved attempt) : ∃ id, attempt.candidateDeliveryPlanId = some id ∧
      (l.HasPlan id .current ∨ l.HasPlan id .superseded) := by
  obtain ⟨id, hid, ⟨-, hplan⟩ | ⟨-, hne, -⟩⟩ := h.decided (h.decided_of_approved ha)
  · exact ⟨id, hid, hplan⟩
  · exact absurd ha hne

/-- A candidate is a plan of the ledger. -/
theorem Shaped.candidate_mem {attempt : RecoveryPlan} (h : l.Shaped attempt) {id : UUID}
    (hid : attempt.candidateDeliveryPlanId = some id) : ∃ plan ∈ l.plans, plan.id = id := by
  have hplan : ∀ status, l.HasPlan id status → ∃ plan ∈ l.plans, plan.id = id :=
    fun status ⟨plan, hm, hp, _⟩ ↦ ⟨plan, hm, hp⟩
  cases hs : attempt.status with
  | draft => exact hplan _ ((h.draft hs).2.2 id hid)
  | pendingReview =>
    obtain ⟨-, -, -, plan, hm, hp, -⟩ := h.pending (isPending_iff.mpr hs)
    rw [hid, Option.some.injEq] at hp
    exact ⟨plan, hm, hp.symm⟩
  | decided =>
    obtain ⟨id', hid', ⟨-, hp | hp⟩ | ⟨-, -, hp⟩⟩ := h.decided hs
    all_goals
      rw [hid, Option.some.injEq] at hid'
      subst hid'
      exact hplan _ hp

/-- An attempt whose candidate keeps its row keeps its shape. -/
theorem Shaped.mono {l' : Ledger} {attempt : RecoveryPlan} (h : l.Shaped attempt)
    (hplans : ∀ plan ∈ l.plans, attempt.candidateDeliveryPlanId = some plan.id →
      plan ∈ l'.plans) : l'.Shaped attempt := by
  have hkeep : ∀ id status, attempt.candidateDeliveryPlanId = some id → l.HasPlan id status →
      l'.HasPlan id status := by
    intro id status hid ⟨plan, hm, hp, hs⟩
    exact ⟨plan, hplans plan hm (by rw [hid, hp]), hp, hs⟩
  rw [Shaped]
  split
  · next hs =>
    obtain ⟨hd, hn, hc⟩ := h.draft hs
    exact ⟨hd, hn, fun id hid ↦ hkeep id _ hid (hc id hid)⟩
  · next hs =>
    obtain ⟨hf, hv, hd, plan, hm, hp, hrest⟩ := h.pending (isPending_iff.mpr hs)
    exact ⟨hf, hv, hd, plan, hplans plan hm hp, hp, hrest⟩
  · next hs =>
    obtain ⟨id, hid, ⟨ha, hp | hp⟩ | ⟨hd, hne, hp⟩⟩ := h.decided hs
    · exact ⟨id, hid, .inl ⟨ha, .inl (hkeep id _ hid hp)⟩⟩
    · exact ⟨id, hid, .inl ⟨ha, .inr (hkeep id _ hid hp)⟩⟩
    · exact ⟨id, hid, .inr ⟨hd, hne, hkeep id _ hid hp⟩⟩

/-- Plans that others leave alone keep their status. -/
theorem HasPlan.mono {l' : Ledger} {id : UUID} {status : DeliveryPlanStatus}
    (h : l.HasPlan id status) (hplans : ∀ plan ∈ l.plans, plan.id = id → plan ∈ l'.plans) :
    l'.HasPlan id status := by
  obtain ⟨plan, hm, hp, hs⟩ := h
  exact ⟨plan, hplans plan hm hp, hp, hs⟩

/-- A plan that is not put into another status keeps its row. -/
theorem mem_setPlans_of_false {ids : UUID → Bool} {status : DeliveryPlanStatus}
    {plan : PlanHeader} (hm : plan ∈ l.plans) (hid : ids plan.id = false) :
    plan ∈ (l.setPlans ids status).plans :=
  mem_updateWhere_of_false hm hid

/-- A plan of a ledger has one row. -/
theorem plan_eq (hk : l.keys.Numbered) {p q : PlanHeader} (hp : p ∈ l.plans) (hq : q ∈ l.plans)
    (he : p.id = q.id) : p = q :=
  eq_of_key_eq hk.plans hp hq he

/-- An attempt of a ledger has one row. -/
theorem attempt_eq (hk : l.keys.Numbered) {a b : RecoveryPlan} (ha : a ∈ l.attempts)
    (hb : b ∈ l.attempts) (he : a.id = b.id) : a = b := by
  have hnodup : (l.attempts.map (·.id)).Nodup := by
    have h := hk.attempts
    rw [keys, List.map_map] at h
    exact h
  exact eq_of_key_eq hnodup ha hb he

/-- A plan has one status. -/
theorem HasPlan.status_eq (hk : l.keys.Numbered) {id : UUID} {s t : DeliveryPlanStatus}
    (hs : l.HasPlan id s) (ht : l.HasPlan id t) : s = t := by
  obtain ⟨p, hp, hpid, rfl⟩ := hs
  obtain ⟨q, hq, hqid, rfl⟩ := ht
  rw [plan_eq hk hp hq (hpid.trans hqid.symm)]

/-- The attempts of an incident have different numbers. -/
theorem attempt_eq_of_no (hk : l.keys.Numbered) {a b : RecoveryPlan} (ha : a ∈ l.attempts)
    (hb : b ∈ l.attempts) (hi : b.incidentId = a.incidentId) (hn : a.attemptNo = b.attemptNo) :
    a = b := by
  have hnodup : ((l.attemptsOf a.incidentId).map (·.attemptNo)).Nodup := by
    have h := hk.numbers a.incidentId
    rw [keys_attemptsOf, List.map_map] at h
    have hmap : (l.attemptsOf a.incidentId).map (·.attemptNo) =
        (l.attemptsOf a.incidentId).map ((fun k : AttemptKey ↦ k.attemptNo) ∘ keyOf) := rfl
    rw [hmap, h]
    exact List.nodup_range'
  exact eq_of_key_eq hnodup (List.mem_filter.mpr ⟨ha, beq_self_eq_true _⟩)
    (List.mem_filter.mpr ⟨hb, by rw [hi, beq_self_eq_true]⟩) hn

/-- The attempts of an incident are numbered up to their count. -/
theorem attemptNo_le (hk : l.keys.Numbered) {a : RecoveryPlan} (ha : a ∈ l.attempts) :
    a.attemptNo ≤ (l.attemptsOf a.incidentId).length := by
  have h := (hk.attemptNo_le (List.mem_map.mpr ⟨a, ha, rfl⟩)).2
  rw [keys_attemptsOf, List.length_map] at h
  exact h

namespace Reviewed

/-- While an attempt is in flight, nothing of its incident is pending. -/
theorem not_pending_of_inFlight (h : l.Reviewed) {a b : RecoveryPlan} (ha : a ∈ l.attempts)
    (hb : b ∈ l.attempts) (hf : a.inFlight = true) (hi : b.incidentId = a.incidentId) :
    b.isPending = false := by
  rw [Bool.eq_false_iff]
  intro hp
  have hle := h.inFlightLast a ha b hb hf hi
  have hsome := h.pendingLast b hb a ha hp hi.symm hle
  rw [((h.shaped a ha).inFlight hf).1] at hsome
  cases hsome

/-- At most one attempt of an incident is in flight. -/
theorem inFlight_unique (h : l.Reviewed) (hk : l.keys.Numbered) {a b : RecoveryPlan}
    (ha : a ∈ l.attempts) (hb : b ∈ l.attempts) (hfa : a.inFlight = true)
    (hfb : b.inFlight = true) (hi : b.incidentId = a.incidentId) : a = b := by
  have hle := h.inFlightLast a ha b hb hfa hi
  have hge := h.inFlightLast b hb a ha hfb hi.symm
  exact attempt_eq_of_no hk ha hb hi (Nat.le_antisymm hge hle)

end Reviewed

end Ledger

end PenroseRoute.Lifecycle
