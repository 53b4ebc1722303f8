import PenroseRoute.Lifecycle.Abstraction

/-!
# How the ledger ages

What moves never take back: the status of a plan only goes on from CANDIDATE, a decided attempt
and a RESOLVED incident are left as they are, and an attempt keeps its number and its candidate.
-/

namespace PenroseRoute.Lifecycle

open PenroseRoute.Db PenroseRoute.Lib

/-- What can become of the status of a plan. -/
inductive Ages : DeliveryPlanStatus → DeliveryPlanStatus → Prop where
  | same (status : DeliveryPlanStatus) : Ages status status
  | approved : Ages .candidate .current
  | superseded : Ages .current .superseded
  | replaced : Ages .candidate .superseded
  | cancelled : Ages .candidate .cancelled

/-- A status that has aged goes on ageing. -/
theorem Ages.trans {a b c : DeliveryPlanStatus} (h : Ages a b) (h' : Ages b c) : Ages a c := by
  cases h with
  | same => exact h'
  | approved =>
    cases h' with
    | same => exact .approved
    | superseded => exact .replaced
  | superseded | replaced | cancelled =>
    cases h' with
    | same => constructor

/-- A plan is in force or can still come into force. -/
def InUse (status : DeliveryPlanStatus) : Prop := status = .candidate ∨ status = .current

/-- A plan has come into force. -/
def WasCurrent (status : DeliveryPlanStatus) : Prop := status = .current ∨ status = .superseded

/-- A status that is over stays. -/
theorem Ages.eq_of_not_inUse {a b : DeliveryPlanStatus} (h : Ages a b) (ha : ¬ InUse a) :
    b = a := by
  cases h with
  | same => rfl
  | superseded => exact absurd (.inr rfl) ha
  | approved | replaced | cancelled => exact absurd (.inl rfl) ha

/-- Nothing becomes a CANDIDATE. -/
theorem Ages.eq_candidate {a : DeliveryPlanStatus} (h : Ages a .candidate) : a = .candidate := by
  cases h
  rfl

/-- What has come into force has been in force. -/
theorem Ages.wasCurrent {a b : DeliveryPlanStatus} (h : Ages a b) (ha : WasCurrent a) :
    WasCurrent b := by
  cases h with
  | same => exact ha
  | superseded => exact .inr rfl
  | approved | replaced | cancelled => rcases ha with ha | ha <;> cases ha

/-- What is in use was in use. -/
theorem Ages.inUse {a b : DeliveryPlanStatus} (h : Ages a b) (hb : InUse b) : InUse a := by
  cases h with
  | same => exact hb
  | approved => exact .inl rfl
  | superseded | replaced | cancelled => rcases hb with hb | hb <;> cases hb

/-- An attempt later on: a decided one is what it was, and a candidate is never exchanged. -/
structure AttemptKept (old new : RecoveryPlan) : Prop where
  key : keyOf new = keyOf old
  candidate : old.candidateDeliveryPlanId.isSome = true →
    new.candidateDeliveryPlanId = old.candidateDeliveryPlanId
  decided : old.status = .decided → new = old

/-- An attempt is kept as it is. -/
theorem AttemptKept.refl (attempt : RecoveryPlan) : AttemptKept attempt attempt :=
  ⟨rfl, fun _ ↦ rfl, fun _ ↦ rfl⟩

/-- An attempt that is kept twice is kept. -/
theorem AttemptKept.trans {a b c : RecoveryPlan} (h : AttemptKept a b) (h' : AttemptKept b c) :
    AttemptKept a c where
  key := h'.key.trans h.key
  candidate hs := by
    have hb := h.candidate hs
    rw [← hb]
    exact h'.candidate (by rw [hb]; exact hs)
  decided hd := by
    have hb := h.decided hd
    rw [hb] at h'
    exact h'.decided hd

/-- A ledger later on. -/
structure LedgerKept (l l' : Ledger) : Prop where
  plans : ∀ plan ∈ l.plans, ∃ plan' ∈ l'.plans, plan'.id = plan.id ∧ Ages plan.status plan'.status
  resolved : ∀ incident ∈ l.incidents, incident.status = .resolved → incident ∈ l'.incidents
  attempts : ∀ attempt ∈ l.attempts, ∃ attempt' ∈ l'.attempts, AttemptKept attempt attempt'

/-- A ledger is kept as it is. -/
theorem LedgerKept.refl (l : Ledger) : LedgerKept l l :=
  ⟨fun plan h ↦ ⟨plan, h, rfl, .same _⟩, fun _ h _ ↦ h, fun attempt h ↦ ⟨attempt, h, .refl _⟩⟩

/-- A ledger that is kept twice is kept. -/
theorem LedgerKept.trans {l l' l'' : Ledger} (h : LedgerKept l l') (h' : LedgerKept l' l'') :
    LedgerKept l l'' where
  plans plan hp := by
    obtain ⟨next, hn, hid, hages⟩ := h.plans plan hp
    obtain ⟨last, hl, hid', hages'⟩ := h'.plans next hn
    exact ⟨last, hl, hid'.trans hid, hages.trans hages'⟩
  resolved incident hi hs := h'.resolved incident (h.resolved incident hi hs) hs
  attempts attempt ha := by
    obtain ⟨next, hn, hkept⟩ := h.attempts attempt ha
    obtain ⟨last, hl, hkept'⟩ := h'.attempts next hn
    exact ⟨last, hl, hkept.trans hkept'⟩

variable {own : Option UUID} {l l' : Ledger}

/-! ### Single rows -/

private theorem attempts_updateAttempts {cond : RecoveryPlan → Bool}
    {f : RecoveryPlan → RecoveryPlan}
    (h : ∀ attempt ∈ l.attempts, cond attempt = true → AttemptKept attempt (f attempt))
    {attempt : RecoveryPlan} (ha : attempt ∈ l.attempts) :
    ∃ attempt' ∈ (l.updateAttempts cond f).attempts, AttemptKept attempt attempt' := by
  cases hc : cond attempt with
  | true => exact ⟨f attempt, mem_updateWhere_of_true ha hc, h attempt ha hc⟩
  | false => exact ⟨attempt, mem_updateWhere_of_false ha hc, .refl _⟩

private theorem kept_of_inFlight (hl : l.Sound) {f : RecoveryPlan → RecoveryPlan}
    (hkey : ∀ attempt, keyOf (f attempt) = keyOf attempt) {attempt : RecoveryPlan}
    (ha : attempt ∈ l.attempts) (hf : attempt.inFlight = true) :
    AttemptKept attempt (f attempt) where
  key := hkey attempt
  candidate hs := by
    rw [((hl.reviewed.shaped attempt ha).inFlight hf).1] at hs
    cases hs
  decided hd := by
    rw [(inFlight_iff.mp hf).1] at hd
    cases hd

private theorem candidate_of_pending (hl : l.Sound) {attempt : RecoveryPlan}
    (ha : attempt ∈ l.attempts) (hp : attempt.isPending = true) {plan : PlanHeader}
    (hplan : plan ∈ l.plans) (hid : attempt.candidateDeliveryPlanId = some plan.id) :
    plan.status = .candidate := by
  obtain ⟨-, -, -, own, hm, hc, hs, -⟩ := (hl.reviewed.shaped attempt ha).pending hp
  rw [hid, Option.some.injEq] at hc
  rw [Ledger.plan_eq hl.numbered hplan hm hc]
  exact hs

/-! ### Moves -/

/-- Every move keeps what is past. -/
theorem Move.kept (m : Move own l l') (hl : l.Sound) : LedgerKept l l' := by
  have hrefl := LedgerKept.refl l
  cases m with
  | age => exact ⟨hrefl.plans, hrefl.resolved, hrefl.attempts⟩
  | report =>
    exact ⟨hrefl.plans, fun _ hi _ ↦ List.mem_append_left _ hi, hrefl.attempts⟩
  | touch incidentId status hs hopen =>
    refine ⟨hrefl.plans, fun incident hi hr ↦ ?_, hrefl.attempts⟩
    refine mem_updateWhere_of_false hi (beq_false_of_ne fun he ↦ ?_)
    exact hopen incident hi he hr
  | reserve =>
    exact ⟨hrefl.plans, hrefl.resolved,
      fun attempt ha ↦ ⟨attempt, List.mem_append_left _ ha, .refl _⟩⟩
  | record id f hown hflight hkey hrest =>
    refine ⟨hrefl.plans, hrefl.resolved, fun attempt ha ↦ attempts_updateAttempts ?_ ha⟩
    exact fun attempt ha hc ↦ kept_of_inFlight hl hkey ha (hflight attempt ha (eq_of_beq hc))
  | fill id f plan nextId hown hplan hexists hflight hkey hopen hfilled =>
    refine ⟨?_, hrefl.resolved, fun attempt ha ↦ attempts_updateAttempts ?_ ha⟩
    · exact fun other ho ↦ ⟨other, List.mem_append_left _ ho, rfl, .same _⟩
    · exact fun attempt ha hc ↦ kept_of_inFlight hl hkey ha (hflight attempt ha (eq_of_beq hc))
  | append =>
    exact ⟨fun other ho ↦ ⟨other, List.mem_append_left _ ho, rfl, .same _⟩, hrefl.resolved,
      fun attempt ha ↦ ⟨attempt, List.mem_append_left _ ha, .refl _⟩⟩
  | retire retiring cancelled f hf hpending hplans =>
    refine ⟨fun plan hp ↦ ?_, hrefl.resolved, fun attempt ha ↦ attempts_updateAttempts ?_ ha⟩
    · cases hc : cancelled plan.id with
      | false => exact ⟨plan, Ledger.mem_setPlans_of_false hp hc, rfl, .same _⟩
      | true =>
        obtain ⟨attempt, ha, hr, hid⟩ := (hplans plan hp).mp hc
        have hs := candidate_of_pending hl ha (hpending attempt ha hr) hp hid
        refine ⟨_, mem_updateWhere_of_true hp hc, rfl, ?_⟩
        rw [hs]
        exact .cancelled
    · intro attempt ha hr
      refine ⟨(hf attempt).key, fun _ ↦ (hf attempt).candidate, fun hd ↦ ?_⟩
      have hp := isPending_iff.mp (hpending attempt ha hr)
      rw [hd] at hp
      cases hp
  | approve attempt base candidate hmem hpending honly hbase hcandidate hdate =>
    have hs := candidate_of_pending hl hmem hpending hcandidate.1 hcandidate.2
    have hne : base.id ≠ candidate.id := by
      intro he
      have hstatus := hbase.2.2
      rw [Ledger.plan_eq hl.numbered hbase.1 hcandidate.1 he, hs] at hstatus
      cases hstatus
    refine ⟨fun plan hp ↦ ?_, fun incident hi hr ↦ ?_,
      fun other ho ↦ attempts_updateAttempts ?_ ho⟩
    · by_cases hb : plan.id = base.id
      · have hc : (plan.id == candidate.id) = false := beq_false_of_ne (hb ▸ hne)
        refine ⟨{ plan with status := .superseded }, ?_, rfl, ?_⟩
        · refine mem_updateWhere_of_false ?_ hc
          exact mem_updateWhere_of_true hp (beq_iff_eq.mpr hb)
        · rw [Ledger.plan_eq hl.numbered hp hbase.1 hb, hbase.2.2]
          exact .superseded
      · have hother : (plan.id == base.id) = false := beq_false_of_ne hb
        have hkeep : plan ∈ (l.setPlans (· == base.id) .superseded).plans :=
          mem_updateWhere_of_false hp hother
        by_cases hc : plan.id = candidate.id
        · refine ⟨{ plan with status := .current }, ?_, rfl, ?_⟩
          · exact mem_updateWhere_of_true hkeep (beq_iff_eq.mpr hc)
          · rw [Ledger.plan_eq hl.numbered hp hcandidate.1 hc, hs]
            exact .approved
        · exact ⟨plan, mem_updateWhere_of_false hkeep (beq_false_of_ne hc), rfl, .same _⟩
    · refine mem_updateWhere_of_false hi (beq_false_of_ne fun he ↦ ?_)
      exact hl.reviewed.pendingOpen attempt hmem hpending incident hi he hr
    · intro other ho hc
      have hsame := Ledger.attempt_eq hl.numbered ho hmem (eq_of_beq hc)
      refine ⟨rfl, fun _ ↦ rfl, fun hd ↦ ?_⟩
      rw [hsame, isPending_iff.mp hpending] at hd
      cases hd

/-- Every series of moves keeps what is past. -/
theorem Moves.kept (m : Moves own l l') (hl : l.Sound) : LedgerKept l l' := by
  induction m with
  | refl => exact .refl _
  | tail hm m ih => exact ih.trans (m.kept (hm.sound hl))

end PenroseRoute.Lifecycle
