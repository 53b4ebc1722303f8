import PenroseRoute.Lifecycle.Moves

/-!
# What is pending, and what is approved

A series of moves that adds no plan makes nothing pending: only the moves that add a candidate
do. So the limit of a batch has to be looked at where its candidates are made. An approved attempt
is never written again.
-/

namespace PenroseRoute.Lifecycle

open PenroseRoute.Db PenroseRoute.Lib

/-- Nothing gets pending. -/
structure Calm (l l' : Ledger) : Prop where
  pending : ∀ attempt ∈ l'.attempts, attempt.isPending = true → attempt ∈ l.attempts
  count : ∀ incidentId, l'.pendingCount incidentId ≤ l.pendingCount incidentId

/-- Nothing happens to a ledger by itself. -/
theorem Calm.refl (l : Ledger) : Calm l l :=
  ⟨fun _ ha _ ↦ ha, fun _ ↦ Nat.le_refl _⟩

/-- What is calm twice is calm. -/
theorem Calm.trans {l l' l'' : Ledger} (h : Calm l l') (h' : Calm l' l'') : Calm l l'' where
  pending attempt ha hp := h.pending attempt (h'.pending attempt ha hp) hp
  count incidentId := Nat.le_trans (h'.count incidentId) (h.count incidentId)

private theorem calm_updateWhere {l : Ledger} {plans : List PlanHeader}
    {incidents : List IncidentHeader} {cond : RecoveryPlan → Bool}
    {f : RecoveryPlan → RecoveryPlan} {nextId : UUID}
    (hf : ∀ attempt ∈ l.attempts, cond attempt = true → (f attempt).isPending = false) :
    Calm l ⟨plans, incidents, updateWhere l.attempts cond f, nextId⟩ where
  pending attempt ha hp := by
    obtain ⟨old, hold, ⟨hc, rfl⟩ | ⟨-, rfl⟩⟩ := mem_updateWhere.mp ha
    · rw [hf old hold hc] at hp
      cases hp
    · exact hold
  count incidentId := by
    refine countP_updateWhere_le fun attempt ha hc hp ↦ ?_
    rw [hf attempt ha hc, Bool.and_false] at hp
    cases hp

/-- A move that adds no plan is calm. -/
theorem Move.calm {own : Option UUID} {l l' : Ledger} (m : Move own l l')
    (hplans : l'.plans.length ≤ l.plans.length) : Calm l l' := by
  have hadded : ∀ plan : PlanHeader, ¬ (l.plans ++ [plan]).length ≤ l.plans.length := by
    intro plan
    rw [List.length_append, List.length_singleton]
    omega
  cases m with
  | age | report | touch => exact ⟨fun _ ha _ ↦ ha, fun _ ↦ Nat.le_refl _⟩
  | reserve attempt hid hfresh =>
    have hp : attempt.isPending = false := isPending_eq_false (by rw [hfresh.status]; decide)
    refine ⟨fun other ho hpo ↦ ?_, fun incidentId ↦ ?_⟩
    · rcases List.mem_append.mp ho with ho | ho
      · exact ho
      · rw [List.mem_singleton.mp ho, hp] at hpo
        cases hpo
    · rw [Ledger.pendingCount, List.countP_append, List.countP_singleton, hp, Bool.and_false]
      exact Nat.le_refl _
  | record id f hown hflight hkey hrest =>
    refine calm_updateWhere fun attempt ha he ↦ isPending_eq_false ?_
    rw [(hrest attempt).1, (inFlight_iff.mp (hflight attempt ha (eq_of_beq he))).1]
    decide
  | fill id f plan => exact absurd hplans (hadded plan)
  | append attempt plan => exact absurd hplans (hadded plan)
  | retire retiring cancelled f hf =>
    refine calm_updateWhere fun attempt ha hc ↦ isPending_eq_false ?_
    rcases (hf attempt).status with ⟨hs, -⟩ | ⟨hs, -⟩ <;> rw [hs] <;> decide
  | approve => exact calm_updateWhere fun _ _ _ ↦ rfl

/-- Plans are never deleted. -/
theorem Move.plans_length {own : Option UUID} {l l' : Ledger} (m : Move own l l') :
    l.plans.length ≤ l'.plans.length := by
  have hupdated : ∀ (l : Ledger) (ids : UUID → Bool) (status : DeliveryPlanStatus),
      l.plans.length = (l.setPlans ids status).plans.length :=
    fun l ids status ↦ (List.length_map _).symm
  cases m with
  | age | report | touch | reserve | record => exact Nat.le_refl _
  | fill id f plan =>
    rw [List.length_append]
    exact Nat.le_add_right _ _
  | append attempt plan =>
    rw [List.length_append]
    exact Nat.le_add_right _ _
  | retire => exact Nat.le_of_eq (hupdated l _ .cancelled)
  | approve attempt base candidate =>
    have hbase := hupdated l (· == base.id) .superseded
    have hcandidate := hupdated (l.setPlans (· == base.id) .superseded) (· == candidate.id) .current
    exact Nat.le_of_eq (hbase.trans hcandidate)

/-- Neither is anything pending after a series of moves that adds no plan. -/
theorem Moves.calm {own : Option UUID} {l l' : Ledger} (m : Moves own l l')
    (hplans : l'.plans.length ≤ l.plans.length) : Calm l l' := by
  have hgrow : ∀ {l l' : Ledger}, Moves own l l' → l.plans.length ≤ l'.plans.length := by
    intro l l' m
    induction m with
    | refl => exact Nat.le_refl _
    | tail _ m ih => exact Nat.le_trans ih m.plans_length
  induction m with
  | refl => exact .refl _
  | tail hm m ih =>
    exact (ih (Nat.le_trans m.plans_length hplans)).trans
      (m.calm (Nat.le_trans hplans (hgrow hm)))

/-! ### What is approved -/

/-- No move rewrites an approved attempt. -/
theorem Move.approved_mem {own : Option UUID} {l l' : Ledger} (m : Move own l l')
    (h : l.Reviewed) {attempt : RecoveryPlan} (ha : attempt ∈ l.attempts)
    (hd : Approved attempt) : attempt ∈ l'.attempts := by
  have hdecided : attempt.status = .decided := (h.shaped attempt ha).decided_of_approved hd
  have hidle : attempt.inFlight = false := by
    rw [Bool.eq_false_iff]
    intro hf
    rw [(inFlight_iff.mp hf).1] at hdecided
    cases hdecided
  have hreviewed : attempt.isPending = false :=
    isPending_eq_false (by rw [hdecided]; decide)
  cases m with
  | age | report | touch => exact ha
  | reserve | append => exact List.mem_append_left _ ha
  | record id f hown hflight | fill id f plan nextId hown hplan hexists hflight =>
    refine mem_updateWhere_of_false ha (beq_false_of_ne fun he ↦ ?_)
    rw [hflight attempt ha he] at hidle
    cases hidle
  | retire retiring cancelled f hf hpending =>
    refine mem_updateWhere_of_false ha (Bool.eq_false_iff.mpr fun hr ↦ ?_)
    rw [hpending attempt ha hr] at hreviewed
    cases hreviewed
  | approve other base candidate hmem hpending honly =>
    by_cases he : attempt.id = other.id
    · refine mem_updateWhere.mpr ⟨attempt, ha, .inl ⟨beq_iff_eq.mpr he, ?_⟩⟩
      rw [← hdecided, ← show attempt.dispatcherDecision = some .approve from hd]
    · exact mem_updateWhere_of_false ha (beq_false_of_ne he)

/-- An approved attempt stays as it is. -/
theorem Moves.approved_mem {own : Option UUID} {l l' : Ledger} (m : Moves own l l')
    (hk : l.keys.Numbered) (h : l.Reviewed) {attempt : RecoveryPlan}
    (ha : attempt ∈ l.attempts) (hd : Approved attempt) : attempt ∈ l'.attempts := by
  induction m with
  | refl => exact ha
  | tail hm m ih => exact m.approved_mem (hm.reviewed hk h) ih hd

end PenroseRoute.Lifecycle
