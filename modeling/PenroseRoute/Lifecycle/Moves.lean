import PenroseRoute.Lifecycle.Reviewed

/-!
# Moves keep the lifecycle invariant

One lemma for each kind of move, and from them the lemma about a series of moves.
-/

namespace PenroseRoute.Lifecycle

open PenroseRoute.Db PenroseRoute.Lib

variable {l : Ledger}

/-! ### Moves without attempts -/

private theorem reviewed_age (h : l.Reviewed) (nextId : UUID) :
    { l with nextId := nextId }.Reviewed :=
  { h with shaped := h.shaped }

private theorem reviewed_report (h : l.Reviewed) (hk : l.keys.Numbered)
    (incident : IncidentHeader) (hid : incident.id = l.nextId)
    (hplan : l.HasPlan incident.deliveryPlanId .current) (nextId : UUID) :
    { l with incidents := l.incidents ++ [incident], nextId := nextId }.Reviewed := by
  have hnew : ∀ a ∈ l.attempts, incident.id ≠ a.incidentId := by
    intro a ha he
    have howner := hk.owner (keyOf a) (List.mem_map.mpr ⟨a, ha, rfl⟩)
    have hlt : a.incidentId < l.nextId := hk.incidentsFresh _ howner
    rw [← he, hid] at hlt
    exact Nat.lt_irrefl _ hlt
  refine { h with shaped := h.shaped, pendingOpen := ?_, approvedResolved := ?_, inForce := ?_ }
  · intro a ha hp other ho hoi
    rcases List.mem_append.mp ho with ho | ho
    · exact h.pendingOpen a ha hp other ho hoi
    · rw [List.mem_singleton.mp ho] at hoi
      exact absurd hoi (hnew a ha)
  · intro a ha hp other ho hoi
    rcases List.mem_append.mp ho with ho | ho
    · exact h.approvedResolved a ha hp other ho hoi
    · rw [List.mem_singleton.mp ho] at hoi
      exact absurd hoi (hnew a ha)
  · intro other ho
    rcases List.mem_append.mp ho with ho | ho
    · exact h.inForce other ho
    · rw [List.mem_singleton.mp ho]
      exact .inl hplan

private theorem reviewed_touch (h : l.Reviewed) (incidentId : UUID) (status : IncidentStatus)
    (hs : status ≠ .resolved) (hopen : l.Open incidentId) :
    (l.setIncident incidentId status).Reviewed := by
  refine { h with shaped := h.shaped, pendingOpen := ?_, approvedResolved := ?_, inForce := ?_ }
  · intro a ha hp other ho hoi
    obtain ⟨old, hold, ⟨-, rfl⟩ | ⟨-, rfl⟩⟩ := mem_updateWhere.mp ho
    · exact hs
    · exact h.pendingOpen a ha hp other hold hoi
  · intro a ha hp other ho hoi
    obtain ⟨old, hold, ⟨hc, rfl⟩ | ⟨-, rfl⟩⟩ := mem_updateWhere.mp ho
    · rw [beq_iff_eq] at hc
      exact absurd (h.approvedResolved a ha hp old hold hoi) (hopen old hold hc)
    · exact h.approvedResolved a ha hp other hold hoi
  · intro other ho
    obtain ⟨old, hold, ⟨-, rfl⟩ | ⟨-, rfl⟩⟩ := mem_updateWhere.mp ho
    · exact h.inForce old hold
    · exact h.inForce other hold

/-! ### A new attempt -/

-- What a new attempt has to be like, with or without a candidate.
private structure Addable (l : Ledger) (attempt : RecoveryPlan) (plans : List PlanHeader) :
    Prop where
  next : l.Next attempt
  shaped : { l with plans := l.plans ++ plans }.Shaped attempt
  notCurrent : ∀ plan ∈ plans, plan.status ≠ .current
  own : ∀ id, attempt.candidateDeliveryPlanId = some id → ∀ other ∈ l.attempts,
    other.candidateDeliveryPlanId ≠ some id
  notApproved : ¬ Approved attempt
  quiet : ∀ other ∈ l.attempts, other.incidentId = attempt.incidentId → other.inFlight = false
  alone : attempt.candidateDeliveryPlanId = none → ∀ other ∈ l.attempts,
    other.incidentId = attempt.incidentId → other.isPending = false
  isOpen : attempt.isPending = true → l.Open attempt.incidentId
  batch : ∀ other ∈ l.attempts, other.incidentId = attempt.incidentId →
    attempt.isPending = true → other.isPending = true → attempt.options.isSome ∧
      other.options.map (·.batchId) = attempt.options.map (·.batchId)

private theorem reviewed_add (h : l.Reviewed) (hk : l.keys.Numbered) {attempt : RecoveryPlan}
    {plans : List PlanHeader} (ha : Addable l attempt plans) (nextId : UUID) :
    { l with
      plans := l.plans ++ plans
      attempts := l.attempts ++ [attempt]
      nextId := nextId }.Reviewed := by
  have hmore : ∀ other, other.incidentId = attempt.incidentId → other ∈ l.attempts →
      other.attemptNo < attempt.attemptNo := by
    intro other ho hm
    have hle := Ledger.attemptNo_le hk hm
    have hno := ha.next.number
    rw [ho] at hle
    omega
  refine ⟨?_, ?_, ?_, ?_, ?_, ?_, ?_, ?_, ?_, ?_⟩
  · intro a hm
    rcases List.mem_append.mp hm with hm | hm
    · exact (h.shaped a hm).mono fun plan hp _ ↦ List.mem_append_left _ hp
    · rw [List.mem_singleton.mp hm]
      exact ha.shaped
  · intro a hma b hmb id hia hib
    rcases List.mem_append.mp hma with hma | hma <;> rcases List.mem_append.mp hmb with hmb | hmb
    · exact h.ownCandidate a hma b hmb id hia hib
    · rw [List.mem_singleton.mp hmb] at hib
      exact absurd hia (ha.own id hib a hma)
    · rw [List.mem_singleton.mp hma] at hia
      exact absurd hib (ha.own id hia b hmb)
    · rw [List.mem_singleton.mp hma, List.mem_singleton.mp hmb]
  · intro a hma b hmb hf hi
    rcases List.mem_append.mp hma with hma | hma <;> rcases List.mem_append.mp hmb with hmb | hmb
    · exact h.inFlightLast a hma b hmb hf hi
    · rw [List.mem_singleton.mp hmb] at hi
      rw [ha.quiet a hma hi.symm] at hf
      cases hf
    · rw [List.mem_singleton.mp hma] at hi ⊢
      exact Nat.le_of_lt (hmore b hi hmb)
    · rw [List.mem_singleton.mp hma, List.mem_singleton.mp hmb]
  · intro a hma b hmb hp hi hle
    rcases List.mem_append.mp hma with hma | hma <;> rcases List.mem_append.mp hmb with hmb | hmb
    · exact h.pendingLast a hma b hmb hp hi hle
    · rw [List.mem_singleton.mp hmb] at hi ⊢
      cases hc : attempt.candidateDeliveryPlanId with
      | some id => rfl
      | none =>
        rw [ha.alone hc a hma hi.symm] at hp
        cases hp
    · rw [List.mem_singleton.mp hma] at hi hle
      exact absurd (hmore b hi hmb) (Nat.not_lt.mpr hle)
    · rw [List.mem_singleton.mp hma] at hp
      rw [List.mem_singleton.mp hmb]
      obtain ⟨-, -, -, plan, -, hc, -⟩ := ha.shaped.pending hp
      rw [hc]
      rfl
  · intro a hma hp
    rcases List.mem_append.mp hma with hma | hma
    · exact h.pendingOpen a hma hp
    · rw [List.mem_singleton.mp hma] at hp ⊢
      exact ha.isOpen hp
  · intro a hma hap
    rcases List.mem_append.mp hma with hma | hma
    · exact h.approvedResolved a hma hap
    · rw [List.mem_singleton.mp hma] at hap
      exact absurd hap ha.notApproved
  · intro a hma b hmb haa hab hi
    rcases List.mem_append.mp hma with hma | hma
    · rcases List.mem_append.mp hmb with hmb | hmb
      · exact h.approvedOnce a hma b hmb haa hab hi
      · rw [List.mem_singleton.mp hmb] at hab
        exact absurd hab ha.notApproved
    · rw [List.mem_singleton.mp hma] at haa
      exact absurd haa ha.notApproved
  · intro a hma b hmb hpa hpb hi
    rcases List.mem_append.mp hma with hma | hma <;> rcases List.mem_append.mp hmb with hmb | hmb
    · exact h.oneBatch a hma b hmb hpa hpb hi
    · rw [List.mem_singleton.mp hmb] at hpb hi ⊢
      obtain ⟨hsome, he⟩ := ha.batch a hma hi.symm hpb hpa
      refine .inr ⟨?_, he⟩
      rw [← Option.isSome_map, he, Option.isSome_map]
      exact hsome
    · rw [List.mem_singleton.mp hma] at hpa hi ⊢
      obtain ⟨hsome, he⟩ := ha.batch b hmb hi hpa hpb
      exact .inr ⟨hsome, he.symm⟩
    · rw [List.mem_singleton.mp hma, List.mem_singleton.mp hmb]
      exact .inl rfl
  · intro p hp q hq hps hqs hdate
    rcases List.mem_append.mp hp with hp | hp
    · rcases List.mem_append.mp hq with hq | hq
      · exact h.currentOnce p hp q hq hps hqs hdate
      · exact absurd hqs (ha.notCurrent q hq)
    · exact absurd hps (ha.notCurrent p hp)
  · intro incident hi
    rcases h.inForce incident hi with hc | ⟨hs, a, hma, hap⟩
    · exact .inl (hc.mono fun plan hp _ ↦ List.mem_append_left _ hp)
    · exact .inr ⟨hs.mono fun plan hp _ ↦ List.mem_append_left _ hp, a,
        List.mem_append_left _ hma, hap⟩

private theorem reviewed_reserve (h : l.Reviewed) (hk : l.keys.Numbered)
    {attempt : RecoveryPlan} (hfresh : Fresh attempt) (hnext : l.Next attempt)
    (hidle : l.Idle attempt.incidentId) (nextId : UUID) :
    { l with attempts := l.attempts ++ [attempt], nextId := nextId }.Reviewed := by
  have hpending : attempt.isPending = false := isPending_eq_false (by rw [hfresh.status]; decide)
  have hadd : Addable l attempt [] :=
    { next := hnext
      shaped := by
        rw [Ledger.Shaped, hfresh.status]
        refine ⟨hfresh.decision, fun _ ↦ hfresh.candidate, ?_⟩
        intro id hid
        rw [hfresh.candidate] at hid
        cases hid
      notCurrent := fun _ hp ↦ (by cases hp)
      own := fun id hid ↦ (by rw [hfresh.candidate] at hid; cases hid)
      notApproved := by
        rw [Approved, hfresh.decision]
        exact fun hn ↦ (by cases hn)
      quiet := fun other ho hi ↦ (hidle other ho hi).1
      alone := fun _ other ho hi ↦ (hidle other ho hi).2
      isOpen := fun hp ↦ (by rw [hpending] at hp; cases hp)
      batch := fun _ _ _ hp ↦ (by rw [hpending] at hp; cases hp) }
  have hadded := reviewed_add h hk hadd nextId
  rw [List.append_nil] at hadded
  exact hadded

private theorem Filled.shaped {attempt : RecoveryPlan} {plan : PlanHeader}
    (h : Filled attempt plan) (hplan : plan ∈ l.plans) : l.Shaped attempt := by
  rcases h.status with ⟨hs, hp⟩ | ⟨hs, hp⟩
  · rw [Ledger.Shaped, hs]
    exact ⟨h.solverStatus, h.validationStatus, h.decision, plan, hplan, h.candidate, hp,
      h.parent⟩
  · rw [Ledger.Shaped, hs]
    refine ⟨h.decision, ?_, ?_⟩
    · intro hn
      rw [h.solverStatus] at hn
      cases hn
    · intro id hid
      rw [h.candidate, Option.some.injEq] at hid
      exact ⟨plan, hplan, hid, hp⟩

private theorem Filled.not_approved {attempt : RecoveryPlan} {plan : PlanHeader}
    (h : Filled attempt plan) : ¬ Approved attempt := by
  rw [Approved, h.decision]
  exact fun hn ↦ (by cases hn)

private theorem Filled.plan_not_current {attempt : RecoveryPlan} {plan : PlanHeader}
    (h : Filled attempt plan) : plan.status ≠ .current := by
  rcases h.status with ⟨-, hp⟩ | ⟨-, hp⟩ <;> rw [hp] <;> decide

private theorem Filled.not_inFlight {attempt : RecoveryPlan} {plan : PlanHeader}
    (h : Filled attempt plan) : attempt.inFlight = false := by
  rw [Bool.eq_false_iff]
  intro hf
  have hn := (inFlight_iff.mp hf).2
  rw [h.solverStatus] at hn
  cases hn

private theorem not_candidate (h : l.Reviewed) (hk : l.keys.Numbered) {id : UUID}
    (hid : l.nextId ≤ id) {attempt : RecoveryPlan} (ha : attempt ∈ l.attempts) :
    attempt.candidateDeliveryPlanId ≠ some id := by
  intro hc
  obtain ⟨plan, hp, hpid⟩ := (h.shaped attempt ha).candidate_mem hc
  have hlt := hk.plansFresh plan.id (List.mem_map.mpr ⟨plan, hp, rfl⟩)
  rw [hpid] at hlt
  exact Nat.lt_irrefl _ (Nat.lt_of_lt_of_le hlt hid)

private theorem reviewed_append (h : l.Reviewed) (hk : l.keys.Numbered)
    {attempt : RecoveryPlan} {plan : PlanHeader} {batchId : UUID} (hplan : l.nextId ≤ plan.id)
    (hnext : l.Next attempt) (hopen : l.Open attempt.incidentId) (hfilled : Filled attempt plan)
    (hbatch : attempt.options.map (·.batchId) = some batchId)
    (hsame : ∀ other ∈ l.attempts, other.incidentId = attempt.incidentId →
      other.inFlight = false ∧
        (other.isPending = true → other.options.map (·.batchId) = some batchId))
    (nextId : UUID) :
    { l with
      plans := l.plans ++ [plan]
      attempts := l.attempts ++ [attempt]
      nextId := nextId }.Reviewed := by
  have hadd : Addable l attempt [plan] :=
    { next := hnext
      shaped := hfilled.shaped (List.mem_append_right _ (List.mem_singleton_self plan))
      notCurrent := fun p hp ↦ (by
        rw [List.mem_singleton.mp hp]
        exact hfilled.plan_not_current)
      own := fun id hid other ho ↦ (by
        rw [hfilled.candidate, Option.some.injEq] at hid
        rw [← hid]
        exact not_candidate h hk hplan ho)
      notApproved := hfilled.not_approved
      quiet := fun other ho hi ↦ (hsame other ho hi).1
      alone := fun hn ↦ (by rw [hfilled.candidate] at hn; cases hn)
      isOpen := fun _ ↦ hopen
      batch := fun other ho hi _ hp ↦ (by
        refine ⟨?_, ((hsame other ho hi).2 hp).trans hbatch.symm⟩
        rw [← Option.isSome_map, hbatch]
        rfl) }
  exact reviewed_add h hk hadd nextId

/-! ### The attempt of a run -/

-- What the attempt of a run has to be like afterwards, with or without a candidate.
private structure Replacement (l : Ledger) (attempt : RecoveryPlan) (plans : List PlanHeader) :
    Prop where
  shaped : { l with plans := l.plans ++ plans }.Shaped attempt
  own : ∀ id, attempt.candidateDeliveryPlanId = some id → ∀ other ∈ l.attempts,
    other.candidateDeliveryPlanId ≠ some id
  notApproved : ¬ Approved attempt
  landed : attempt.inFlight = false
  isOpen : attempt.isPending = true → l.Open attempt.incidentId

private theorem reviewed_replace (h : l.Reviewed) (hk : l.keys.Numbered) {id : UUID}
    {f : RecoveryPlan → RecoveryPlan} {plans : List PlanHeader}
    (hflight : ∀ attempt ∈ l.attempts, attempt.id = id → attempt.inFlight = true)
    (hkey : ∀ attempt, keyOf (f attempt) = keyOf attempt)
    (hnew : ∀ attempt ∈ l.attempts, attempt.id = id → Replacement l (f attempt) plans)
    (hplans : ∀ plan ∈ plans, plan.status ≠ .current) (nextId : UUID) :
    { (l.updateAttempts (·.id == id) f) with
      plans := l.plans ++ plans
      nextId := nextId }.Reviewed := by
  have hincident : ∀ a, (f a).incidentId = a.incidentId :=
    fun a ↦ congrArg AttemptKey.incidentId (hkey a)
  have hno : ∀ a, (f a).attemptNo = a.attemptNo := fun a ↦ congrArg AttemptKey.attemptNo (hkey a)
  have hcases : ∀ {a}, a ∈ updateWhere l.attempts (·.id == id) f →
      (∃ old ∈ l.attempts, old.id = id ∧ a = f old) ∨ (a ∈ l.attempts ∧ a.id ≠ id) := by
    intro a ha
    obtain ⟨old, hold, ⟨hc, rfl⟩ | ⟨hc, rfl⟩⟩ := mem_updateWhere.mp ha
    · exact .inl ⟨old, hold, by simpa using hc, rfl⟩
    · exact .inr ⟨hold, by simpa using hc⟩
  have hkeep : ∀ a ∈ l.attempts, a.inFlight = false →
      a ∈ updateWhere l.attempts (·.id == id) f := by
    intro a ha hf
    refine mem_updateWhere_of_false ha (beq_false_of_ne fun he ↦ ?_)
    rw [hflight a ha he] at hf
    cases hf
  have hquiet : ∀ a ∈ l.attempts, a.id = id → ∀ b ∈ l.attempts, b.incidentId = a.incidentId →
      b.isPending = false :=
    fun a ha hid b hb hi ↦ h.not_pending_of_inFlight ha hb (hflight a ha hid) hi
  refine ⟨?_, ?_, ?_, ?_, ?_, ?_, ?_, ?_, ?_, ?_⟩
  · intro a hma
    rcases hcases hma with ⟨old, hold, hid, rfl⟩ | ⟨hma, -⟩
    · exact (hnew old hold hid).shaped
    · exact (h.shaped a hma).mono fun plan hp _ ↦ List.mem_append_left _ hp
  · intro a hma b hmb planId hia hib
    rcases hcases hma with ⟨x, hx, hxid, rfl⟩ | ⟨hma, hane⟩ <;>
      rcases hcases hmb with ⟨y, hy, hyid, rfl⟩ | ⟨hmb, hbne⟩
    · rw [Ledger.attempt_eq hk hx hy (hxid.trans hyid.symm)]
    · exact absurd hib ((hnew x hx hxid).own planId hia b hmb)
    · exact absurd hia ((hnew y hy hyid).own planId hib a hma)
    · exact h.ownCandidate a hma b hmb planId hia hib
  · intro a hma b hmb hf hi
    rcases hcases hma with ⟨x, hx, hxid, rfl⟩ | ⟨hma, hane⟩
    · rw [(hnew x hx hxid).landed] at hf
      cases hf
    · rcases hcases hmb with ⟨y, hy, hyid, rfl⟩ | ⟨hmb, hbne⟩
      · rw [hincident] at hi
        rw [hno]
        exact h.inFlightLast a hma y hy hf hi
      · exact h.inFlightLast a hma b hmb hf hi
  · intro a hma b hmb hp hi hle
    rcases hcases hma with ⟨x, hx, hxid, rfl⟩ | ⟨hma, hane⟩ <;>
      rcases hcases hmb with ⟨y, hy, hyid, rfl⟩ | ⟨hmb, hbne⟩
    · rw [← Ledger.attempt_eq hk hx hy (hxid.trans hyid.symm)]
      obtain ⟨-, -, -, plan, -, hc, -⟩ := (hnew x hx hxid).shaped.pending hp
      rw [hc]
      rfl
    · rw [hincident] at hi
      rw [hno] at hle
      have hge := h.inFlightLast x hx b hmb (hflight x hx hxid) hi
      have hsame := Ledger.attempt_eq_of_no hk hx hmb hi (Nat.le_antisymm hle hge)
      rw [← hsame] at hbne
      exact absurd hxid hbne
    · rw [hincident] at hi
      rw [hquiet y hy hyid a hma hi.symm] at hp
      cases hp
    · exact h.pendingLast a hma b hmb hp hi hle
  · intro a hma hp
    rcases hcases hma with ⟨x, hx, hxid, rfl⟩ | ⟨hma, -⟩
    · exact (hnew x hx hxid).isOpen hp
    · exact h.pendingOpen a hma hp
  · intro a hma hap
    rcases hcases hma with ⟨x, hx, hxid, rfl⟩ | ⟨hma, -⟩
    · exact absurd hap (hnew x hx hxid).notApproved
    · exact h.approvedResolved a hma hap
  · intro a hma b hmb haa hab hi
    rcases hcases hma with ⟨x, hx, hxid, rfl⟩ | ⟨hma, -⟩
    · exact absurd haa (hnew x hx hxid).notApproved
    · rcases hcases hmb with ⟨y, hy, hyid, rfl⟩ | ⟨hmb, -⟩
      · exact absurd hab (hnew y hy hyid).notApproved
      · exact h.approvedOnce a hma b hmb haa hab hi
  · intro a hma b hmb hpa hpb hi
    rcases hcases hma with ⟨x, hx, hxid, rfl⟩ | ⟨hma, hane⟩ <;>
      rcases hcases hmb with ⟨y, hy, hyid, rfl⟩ | ⟨hmb, hbne⟩
    · exact .inl (by rw [Ledger.attempt_eq hk hx hy (hxid.trans hyid.symm)])
    · rw [hincident] at hi
      rw [hquiet x hx hxid b hmb hi] at hpb
      cases hpb
    · rw [hincident] at hi
      rw [hquiet y hy hyid a hma hi.symm] at hpa
      cases hpa
    · exact h.oneBatch a hma b hmb hpa hpb hi
  · intro p hp q hq hps hqs hdate
    rcases List.mem_append.mp hp with hp | hp
    · rcases List.mem_append.mp hq with hq | hq
      · exact h.currentOnce p hp q hq hps hqs hdate
      · exact absurd hqs (hplans q hq)
    · exact absurd hps (hplans p hp)
  · intro incident hi
    rcases h.inForce incident hi with hc | ⟨hs, a, hma, hap, hbase⟩
    · exact .inl (hc.mono fun plan hp _ ↦ List.mem_append_left _ hp)
    · refine .inr ⟨hs.mono fun plan hp _ ↦ List.mem_append_left _ hp, a, hkeep a hma ?_, hap,
        hbase⟩
      rw [Bool.eq_false_iff]
      intro hf
      have hd := ((h.shaped a hma).inFlight hf).2
      rw [hap] at hd
      cases hd

private theorem reviewed_record (h : l.Reviewed) (hk : l.keys.Numbered) {id : UUID}
    {f : RecoveryPlan → RecoveryPlan}
    (hflight : ∀ attempt ∈ l.attempts, attempt.id = id → attempt.inFlight = true)
    (hkey : ∀ attempt, keyOf (f attempt) = keyOf attempt)
    (hrest : ∀ attempt, (f attempt).status = attempt.status ∧
      (f attempt).candidateDeliveryPlanId = attempt.candidateDeliveryPlanId ∧
      (f attempt).dispatcherDecision = attempt.dispatcherDecision ∧
      (f attempt).solverStatus.isSome) :
    (l.updateAttempts (·.id == id) f).Reviewed := by
  have hnew : ∀ attempt ∈ l.attempts, attempt.id = id → Replacement l (f attempt) [] := by
    intro attempt ha hid
    have hf := hflight attempt ha hid
    obtain ⟨hc, hd⟩ := (h.shaped attempt ha).inFlight hf
    obtain ⟨hstatus, hcandidate, hdecision, hsolver⟩ := hrest attempt
    rw [(inFlight_iff.mp hf).1] at hstatus
    rw [hc] at hcandidate
    rw [hd] at hdecision
    have hpending : (f attempt).isPending = false :=
      isPending_eq_false (by rw [hstatus]; decide)
    have hnone : ∀ {p : Prop} {planId : UUID},
        (f attempt).candidateDeliveryPlanId = some planId → p := by
      intro p planId hid
      rw [hcandidate] at hid
      cases hid
    exact
      { shaped := by
          rw [Ledger.Shaped, hstatus]
          exact ⟨hdecision, fun _ ↦ hcandidate, fun _ hid ↦ hnone hid⟩
        own := fun _ hid ↦ hnone hid
        notApproved := fun ha ↦ (by rw [Approved, hdecision] at ha; cases ha)
        landed := by
          rw [Bool.eq_false_iff]
          intro hfl
          rw [(inFlight_iff.mp hfl).2] at hsolver
          cases hsolver
        isOpen := fun hp ↦ (by rw [hpending] at hp; cases hp) }
  have hreplaced := reviewed_replace h hk hflight hkey hnew (fun _ hp ↦ (by cases hp)) l.nextId
  rw [List.append_nil] at hreplaced
  exact hreplaced

private theorem reviewed_fill (h : l.Reviewed) (hk : l.keys.Numbered) {id : UUID}
    {f : RecoveryPlan → RecoveryPlan} {plan : PlanHeader} (hplan : l.nextId ≤ plan.id)
    (hflight : ∀ attempt ∈ l.attempts, attempt.id = id → attempt.inFlight = true)
    (hkey : ∀ attempt, keyOf (f attempt) = keyOf attempt)
    (hopen : ∀ attempt ∈ l.attempts, attempt.id = id → l.Open attempt.incidentId)
    (hfilled : ∀ attempt ∈ l.attempts, attempt.id = id → Filled (f attempt) plan)
    (nextId : UUID) (hexists : ∃ attempt ∈ l.attempts, attempt.id = id) :
    { (l.updateAttempts (·.id == id) f) with
      plans := l.plans ++ [plan]
      nextId := nextId }.Reviewed := by
  obtain ⟨own, hm, hid⟩ := hexists
  refine reviewed_replace h hk hflight hkey ?_ ?_ nextId
  · intro attempt ha hid
    have hfill := hfilled attempt ha hid
    exact
      { shaped := hfill.shaped (List.mem_append_right _ (List.mem_singleton_self plan))
        own := fun planId hp other ho ↦ (by
          rw [hfill.candidate, Option.some.injEq] at hp
          rw [← hp]
          exact not_candidate h hk hplan ho)
        notApproved := hfill.not_approved
        landed := hfill.not_inFlight
        isOpen := fun _ ↦ (by
          have hincident : (f attempt).incidentId = attempt.incidentId :=
            congrArg AttemptKey.incidentId (hkey attempt)
          rw [hincident]
          exact hopen attempt ha hid) }
  · intro p hp
    rw [List.mem_singleton.mp hp]
    exact (hfilled own hm hid).plan_not_current

/-! ### Decisions -/

private theorem reviewed_retire (h : l.Reviewed) (hk : l.keys.Numbered)
    {retiring : RecoveryPlan → Bool} {cancelled : UUID → Bool} {f : RecoveryPlan → RecoveryPlan}
    (hf : ∀ attempt, Retired attempt (f attempt))
    (hpending : ∀ attempt ∈ l.attempts, retiring attempt = true → attempt.isPending = true)
    (hplans : ∀ plan ∈ l.plans, cancelled plan.id = true ↔ ∃ attempt ∈ l.attempts,
      retiring attempt = true ∧ attempt.candidateDeliveryPlanId = some plan.id) :
    ((l.setPlans cancelled .cancelled).updateAttempts retiring f).Reviewed := by
  have hcases : ∀ {a}, a ∈ updateWhere l.attempts retiring f →
      (∃ old ∈ l.attempts, retiring old = true ∧ a = f old) ∨
      (a ∈ l.attempts ∧ retiring a = false) := by
    intro a ha
    obtain ⟨old, hold, ⟨hc, rfl⟩ | ⟨hc, rfl⟩⟩ := mem_updateWhere.mp ha
    · exact .inl ⟨old, hold, hc, rfl⟩
    · exact .inr ⟨hold, hc⟩
  have hincident : ∀ a, (f a).incidentId = a.incidentId :=
    fun a ↦ congrArg AttemptKey.incidentId (hf a).key
  have hno : ∀ a, (f a).attemptNo = a.attemptNo :=
    fun a ↦ congrArg AttemptKey.attemptNo (hf a).key
  have hdecided : ∀ {old : RecoveryPlan} {p : Prop}, (f old).isPending = true → p := by
    intro old p hp
    rw [isPending_iff] at hp
    rcases (hf old).status with ⟨hs, -⟩ | ⟨hs, -⟩ <;> rw [hs] at hp <;> cases hp
  have hwaiting : ∀ {old}, old ∈ l.attempts → retiring old = true →
      ∃ plan ∈ l.plans, old.candidateDeliveryPlanId = some plan.id ∧ plan.status = .candidate ∧
        old.solverStatus = some .feasible ∧ old.dispatcherDecision = none := by
    intro old hold hr
    obtain ⟨hs, -, hd, plan, hm, hp, hcand, -⟩ :=
      (h.shaped old hold).pending (hpending old hold hr)
    exact ⟨plan, hm, hp, hcand, hs, hd⟩
  have hnotApproved : ∀ {old}, old ∈ l.attempts → retiring old = true → ¬ Approved (f old) := by
    intro old hold hr hap
    obtain ⟨-, -, -, -, -, hd⟩ := hwaiting hold hr
    rcases (hf old).status with ⟨-, decision, hdec, hne⟩ | ⟨-, hdec⟩
    · rw [Approved, hdec, Option.some.injEq] at hap
      exact hne hap
    · rw [Approved, hdec, hd] at hap
      cases hap
  -- the cancelled plans are the candidates of pending attempts
  have hother : ∀ plan ∈ l.plans, plan.status ≠ .candidate → cancelled plan.id = false := by
    intro plan hm hne
    rw [Bool.eq_false_iff]
    intro hc
    obtain ⟨a, ha, hra, hid⟩ := (hplans plan hm).mp hc
    obtain ⟨plan', hm', hp', hcand, -⟩ := hwaiting ha hra
    rw [hid, Option.some.injEq] at hp'
    rw [Ledger.plan_eq hk hm hm' hp'] at hne
    exact hne hcand
  have hkeepPlan : ∀ {id status}, l.HasPlan id status → status ≠ .candidate →
      (l.setPlans cancelled .cancelled).HasPlan id status := by
    intro id status ⟨plan, hm, hp, hs⟩ hne
    refine ⟨plan, Ledger.mem_setPlans_of_false hm (hother plan hm ?_), hp, hs⟩
    rw [hs]
    exact hne
  refine ⟨?_, ?_, ?_, ?_, ?_, ?_, ?_, ?_, ?_, ?_⟩
  · intro a hma
    rcases hcases hma with ⟨old, hold, hr, rfl⟩ | ⟨hma, hr⟩
    · obtain ⟨plan, hm, hp, -, hs, hd⟩ := hwaiting hold hr
      have hcandidate := (hf old).candidate.trans hp
      have hcancelled : (l.setPlans cancelled .cancelled).HasPlan plan.id .cancelled :=
        ⟨_, mem_updateWhere_of_true hm ((hplans plan hm).mpr ⟨old, hold, hr, hp⟩), rfl, rfl⟩
      rcases (hf old).status with ⟨hst, decision, hdec, hne⟩ | ⟨hst, hdec⟩
      · rw [Ledger.Shaped, hst]
        refine ⟨plan.id, hcandidate, .inr ⟨?_, ?_, hcancelled⟩⟩
        · rw [hdec]
          rfl
        · rw [hdec]
          exact fun he ↦ hne (Option.some.inj he)
      · rw [Ledger.Shaped, hst]
        refine ⟨hdec.trans hd, ?_, ?_⟩
        · intro hn
          rw [(hf old).solverStatus, hs] at hn
          cases hn
        · intro id hid
          rw [hcandidate, Option.some.injEq] at hid
          rw [← hid]
          exact hcancelled
    · refine (h.shaped a hma).mono fun plan hm hp ↦ Ledger.mem_setPlans_of_false hm ?_
      rw [Bool.eq_false_iff]
      intro hcancel
      obtain ⟨b, hb, hrb, hpb⟩ := (hplans plan hm).mp hcancel
      rw [h.ownCandidate b hb a hma plan.id hpb hp, hr] at hrb
      cases hrb
  · intro a hma b hmb id hia hib
    rcases hcases hma with ⟨x, hx, hrx, rfl⟩ | ⟨hma, hra⟩ <;>
      rcases hcases hmb with ⟨y, hy, hry, rfl⟩ | ⟨hmb, hrb⟩
    · rw [(hf x).candidate] at hia
      rw [(hf y).candidate] at hib
      rw [h.ownCandidate x hx y hy id hia hib]
    · rw [(hf x).candidate] at hia
      rw [h.ownCandidate x hx b hmb id hia hib, hrb] at hrx
      cases hrx
    · rw [(hf y).candidate] at hib
      rw [← h.ownCandidate a hma y hy id hia hib, hra] at hry
      cases hry
    · exact h.ownCandidate a hma b hmb id hia hib
  · intro a hma b hmb hfl hi
    rcases hcases hma with ⟨x, hx, hrx, rfl⟩ | ⟨hma, hra⟩
    · obtain ⟨-, -, -, -, hs, -⟩ := hwaiting hx hrx
      have hn := (inFlight_iff.mp hfl).2
      rw [(hf x).solverStatus, hs] at hn
      cases hn
    · rcases hcases hmb with ⟨y, hy, hry, rfl⟩ | ⟨hmb, hrb⟩
      · rw [hincident] at hi
        rw [hno]
        exact h.inFlightLast a hma y hy hfl hi
      · exact h.inFlightLast a hma b hmb hfl hi
  · intro a hma b hmb hp hi hle
    rcases hcases hma with ⟨x, hx, hrx, rfl⟩ | ⟨hma, hra⟩
    · exact hdecided hp
    · rcases hcases hmb with ⟨y, hy, hry, rfl⟩ | ⟨hmb, hrb⟩
      · rw [hincident] at hi
        rw [hno] at hle
        rw [(hf y).candidate]
        exact h.pendingLast a hma y hy hp hi hle
      · exact h.pendingLast a hma b hmb hp hi hle
  · intro a hma hp
    rcases hcases hma with ⟨x, hx, hrx, rfl⟩ | ⟨hma, hra⟩
    · exact hdecided hp
    · exact h.pendingOpen a hma hp
  · intro a hma hap
    rcases hcases hma with ⟨x, hx, hrx, rfl⟩ | ⟨hma, hra⟩
    · exact absurd hap (hnotApproved hx hrx)
    · exact h.approvedResolved a hma hap
  · intro a hma b hmb haa hab hi
    rcases hcases hma with ⟨x, hx, hrx, rfl⟩ | ⟨hma, hra⟩
    · exact absurd haa (hnotApproved hx hrx)
    · rcases hcases hmb with ⟨y, hy, hry, rfl⟩ | ⟨hmb, hrb⟩
      · exact absurd hab (hnotApproved hy hry)
      · exact h.approvedOnce a hma b hmb haa hab hi
  · intro a hma b hmb hpa hpb hi
    rcases hcases hma with ⟨x, hx, hrx, rfl⟩ | ⟨hma, hra⟩
    · exact hdecided hpa
    · rcases hcases hmb with ⟨y, hy, hry, rfl⟩ | ⟨hmb, hrb⟩
      · exact hdecided hpb
      · exact h.oneBatch a hma b hmb hpa hpb hi
  · intro p hp q hq hps hqs hdate
    obtain ⟨p', hp', ⟨-, rfl⟩ | ⟨-, rfl⟩⟩ := mem_updateWhere.mp hp
    · cases hps
    · obtain ⟨q', hq', ⟨-, rfl⟩ | ⟨-, rfl⟩⟩ := mem_updateWhere.mp hq
      · cases hqs
      · exact h.currentOnce p hp' q hq' hps hqs hdate
  · intro incident hi
    rcases h.inForce incident hi with hc | ⟨hs, a, hma, hap, hbase⟩
    · exact .inl (hkeepPlan hc (by decide))
    · refine .inr ⟨hkeepPlan hs (by decide), a, mem_updateWhere_of_false hma ?_, hap, hbase⟩
      rw [Bool.eq_false_iff]
      intro hra
      obtain ⟨-, -, -, -, -, hd⟩ := hwaiting hma hra
      rw [hap] at hd
      cases hd

-- An approved attempt: its base is superseded, its candidate is CURRENT, and its incident is
-- resolved.
private theorem reviewed_approve (h : l.Reviewed) (hk : l.keys.Numbered)
    {attempt : RecoveryPlan} {base candidate : PlanHeader} (hmem : attempt ∈ l.attempts)
    (hpending : attempt.isPending = true)
    (honly : ∀ other ∈ l.attempts, other.incidentId = attempt.incidentId →
      other.isPending = true → other = attempt)
    (hbase : base ∈ l.plans ∧ base.id = attempt.baseDeliveryPlanId ∧ base.status = .current)
    (hcandidate : candidate ∈ l.plans ∧ attempt.candidateDeliveryPlanId = some candidate.id)
    (hdate : candidate.businessDate = base.businessDate) :
    ((((l.setPlans (· == base.id) .superseded).setPlans
      (· == candidate.id) .current).setIncident attempt.incidentId .resolved).updateAttempts
        (·.id == attempt.id) fun row ↦
          { row with
            status := .decided
            dispatcherDecision := some .approve }).Reviewed := by
  have hwaiting : candidate.status = .candidate := by
    obtain ⟨-, -, -, plan, hm, hp, hs, -⟩ := (h.shaped attempt hmem).pending hpending
    rw [hcandidate.2, Option.some.injEq] at hp
    rw [Ledger.plan_eq hk hcandidate.1 hm hp]
    exact hs
  have hne : candidate.id ≠ base.id := by
    intro he
    rw [Ledger.plan_eq hk hcandidate.1 hbase.1 he, hbase.2.2] at hwaiting
    cases hwaiting
  -- the rows of the plans afterwards
  have hplan : ∀ {p}, p ∈ ((l.setPlans (· == base.id) .superseded).setPlans
      (· == candidate.id) .current).plans → (p.id = candidate.id ∧ p.status = .current ∧
        p.businessDate = candidate.businessDate) ∨ p.status = .superseded ∨
        (p ∈ l.plans ∧ p.id ≠ base.id) := by
    intro p hp
    obtain ⟨q, hq, ⟨hqc, rfl⟩ | ⟨-, rfl⟩⟩ := mem_updateWhere.mp hp
    · rw [beq_iff_eq] at hqc
      obtain ⟨r, hr, ⟨hrb, rfl⟩ | ⟨-, rfl⟩⟩ := mem_updateWhere.mp hq
      · rw [beq_iff_eq] at hrb
        exact absurd (hqc.symm.trans hrb) hne
      · have hsame : q.businessDate = candidate.businessDate := by
          rw [Ledger.plan_eq hk hr hcandidate.1 hqc]
        exact .inl ⟨hqc, rfl, hsame⟩
    · obtain ⟨r, hr, ⟨-, rfl⟩ | ⟨hrb, rfl⟩⟩ := mem_updateWhere.mp hq
      · exact .inr (.inl rfl)
      · exact .inr (.inr ⟨hr, by simpa using hrb⟩)
  have hkeepPlan : ∀ p ∈ l.plans, p.id ≠ base.id → p.id ≠ candidate.id →
      p ∈ ((l.setPlans (· == base.id) .superseded).setPlans
        (· == candidate.id) .current).plans := by
    intro p hp hb hc
    exact Ledger.mem_setPlans_of_false
      (Ledger.mem_setPlans_of_false hp (beq_false_of_ne hb)) (beq_false_of_ne hc)
  have hsuperseded : ((l.setPlans (· == base.id) .superseded).setPlans
      (· == candidate.id) .current).HasPlan base.id .superseded := by
    refine ⟨_, Ledger.mem_setPlans_of_false (mem_updateWhere_of_true hbase.1 ?_) ?_, rfl, rfl⟩
    · exact beq_self_eq_true _
    · exact beq_false_of_ne hne.symm
  have hcurrent : ((l.setPlans (· == base.id) .superseded).setPlans
      (· == candidate.id) .current).HasPlan candidate.id .current := by
    refine ⟨_, mem_updateWhere_of_true
      (Ledger.mem_setPlans_of_false hcandidate.1 (beq_false_of_ne hne)) ?_, rfl, rfl⟩
    exact beq_self_eq_true _
  have hcases : ∀ {a}, a ∈ updateWhere l.attempts (·.id == attempt.id) (fun row ↦
      { row with status := .decided, dispatcherDecision := some .approve }) →
      a = { attempt with status := .decided, dispatcherDecision := some .approve } ∨
      (a ∈ l.attempts ∧ a ≠ attempt) := by
    intro a ha
    obtain ⟨old, hold, ⟨hc, rfl⟩ | ⟨hc, rfl⟩⟩ := mem_updateWhere.mp ha
    · rw [beq_iff_eq] at hc
      exact .inl (by rw [Ledger.attempt_eq hk hold hmem hc])
    · refine .inr ⟨hold, ?_⟩
      rintro rfl
      rw [beq_self_eq_true] at hc
      cases hc
  have hkeep : ∀ a ∈ l.attempts, a ≠ attempt → a ∈ updateWhere l.attempts (·.id == attempt.id)
      (fun row ↦ { row with status := .decided, dispatcherDecision := some .approve }) := by
    intro a ha hane
    refine mem_updateWhere_of_false ha (beq_false_of_ne fun he ↦ ?_)
    exact hane (Ledger.attempt_eq hk ha hmem he)
  have hundecided := ((h.shaped attempt hmem).pending hpending).2.2.1
  have hunapproved : ¬ Approved attempt := by
    rw [Approved, hundecided]
    exact fun hn ↦ (by cases hn)
  have hfresh : ∀ a ∈ l.attempts, Approved a → a.incidentId ≠ attempt.incidentId := by
    intro a ha hap hi
    obtain ⟨incident, hm, hid⟩ : ∃ incident ∈ l.incidents, incident.id = attempt.incidentId := by
      have howner := hk.owner (keyOf attempt) (List.mem_map.mpr ⟨attempt, hmem, rfl⟩)
      obtain ⟨incident, hm, he⟩ := List.mem_map.mp howner
      exact ⟨incident, hm, congrArg Prod.fst he⟩
    exact h.pendingOpen attempt hmem hpending incident hm hid
      (h.approvedResolved a ha hap incident hm (hid.trans hi.symm))
  refine ⟨?_, ?_, ?_, ?_, ?_, ?_, ?_, ?_, ?_, ?_⟩
  · intro a hma
    rcases hcases hma with rfl | ⟨hma, hane⟩
    · exact ⟨candidate.id, hcandidate.2, .inl ⟨rfl, .inl hcurrent⟩⟩
    · have hshape := h.shaped a hma
      by_cases hb : a.candidateDeliveryPlanId = some base.id
      · -- a candidate that is the base was approved before
        have hcur : l.HasPlan base.id .current := ⟨base, hbase.1, rfl, hbase.2.2⟩
        cases hs : a.status with
        | draft => cases ((hshape.draft hs).2.2 base.id hb).status_eq hk hcur
        | pendingReview =>
          obtain ⟨-, -, -, plan, hm, hp, hps, -⟩ := hshape.pending (isPending_iff.mpr hs)
          rw [hb, Option.some.injEq] at hp
          cases Ledger.HasPlan.status_eq hk ⟨plan, hm, hp.symm, hps⟩ hcur
        | decided =>
          obtain ⟨id, hid, ⟨hap, -⟩ | ⟨-, -, hcan⟩⟩ := hshape.decided hs
          · rw [Ledger.Shaped, hs]
            exact ⟨base.id, hb, .inl ⟨hap, .inr hsuperseded⟩⟩
          · rw [hb, Option.some.injEq] at hid
            subst hid
            cases hcan.status_eq hk hcur
      · refine hshape.mono fun plan hm hp ↦ hkeepPlan plan hm ?_ ?_
        · intro he
          exact hb (by rw [hp, he])
        · intro he
          rw [he] at hp
          exact hane (h.ownCandidate a hma attempt hmem _ hp hcandidate.2)
  · intro a hma b hmb id hia hib
    rcases hcases hma with rfl | ⟨hma, hane⟩ <;> rcases hcases hmb with rfl | ⟨hmb, hbne⟩
    · rfl
    · exact absurd (h.ownCandidate b hmb attempt hmem id hib hia) hbne
    · exact absurd (h.ownCandidate a hma attempt hmem id hia hib) hane
    · exact h.ownCandidate a hma b hmb id hia hib
  · intro a hma b hmb hf hi
    rcases hcases hma with rfl | ⟨hma, hane⟩
    · cases (inFlight_iff.mp hf).1
    · rcases hcases hmb with rfl | ⟨hmb, hbne⟩
      · exact h.inFlightLast a hma attempt hmem hf hi
      · exact h.inFlightLast a hma b hmb hf hi
  · intro a hma b hmb hp hi hle
    rcases hcases hma with rfl | ⟨hma, hane⟩
    · cases isPending_iff.mp hp
    · rcases hcases hmb with rfl | ⟨hmb, hbne⟩
      · exact h.pendingLast a hma attempt hmem hp hi hle
      · exact h.pendingLast a hma b hmb hp hi hle
  · intro a hma hp incident hm hid
    rcases hcases hma with rfl | ⟨hma, hane⟩
    · cases isPending_iff.mp hp
    · obtain ⟨old, hold, ⟨hc, rfl⟩ | ⟨-, rfl⟩⟩ := mem_updateWhere.mp hm
      · rw [beq_iff_eq] at hc
        exact absurd (honly a hma (hid.symm.trans hc) hp) hane
      · exact h.pendingOpen a hma hp incident hold hid
  · intro a hma hap incident hm hid
    obtain ⟨old, hold, ⟨-, rfl⟩ | ⟨hc, rfl⟩⟩ := mem_updateWhere.mp hm
    · rfl
    · rcases hcases hma with rfl | ⟨hma, hane⟩
      · exact absurd hid (by simpa using hc)
      · exact h.approvedResolved a hma hap incident hold hid
  · intro a hma b hmb haa hab hi
    rcases hcases hma with rfl | ⟨hma, hane⟩ <;> rcases hcases hmb with rfl | ⟨hmb, hbne⟩
    · rfl
    · exact absurd hi (hfresh b hmb hab)
    · exact absurd hi.symm (hfresh a hma haa)
    · exact h.approvedOnce a hma b hmb haa hab hi
  · intro a hma b hmb hpa hpb hi
    rcases hcases hma with rfl | ⟨hma, hane⟩
    · cases isPending_iff.mp hpa
    · rcases hcases hmb with rfl | ⟨hmb, hbne⟩
      · cases isPending_iff.mp hpb
      · exact h.oneBatch a hma b hmb hpa hpb hi
  · intro p hp q hq hps hqs hd
    rcases hplan hp with ⟨hpid, -, hpd⟩ | hs | ⟨hp', hpb⟩
    · rcases hplan hq with ⟨hqid, -, -⟩ | hs | ⟨hq', hqb⟩
      · have hkeys : (((l.setPlans (· == base.id) .superseded).setPlans
            (· == candidate.id) .current)).keys.Numbered := by
          rwa [Ledger.keys_setPlans, Ledger.keys_setPlans]
        exact Ledger.plan_eq hkeys hp hq (hpid.trans hqid.symm)
      · rw [hqs] at hs
        cases hs
      · have hsame := h.currentOnce q hq' base hbase.1 hqs hbase.2.2
          (hd.symm.trans (hpd.trans hdate))
        exact absurd (congrArg PlanHeader.id hsame) hqb
    · rw [hps] at hs
      cases hs
    · rcases hplan hq with ⟨hqid, -, hqd⟩ | hs | ⟨hq', hqb⟩
      · have hsame := h.currentOnce p hp' base hbase.1 hps hbase.2.2
          (hd.trans (hqd.trans hdate))
        exact absurd (congrArg PlanHeader.id hsame) hpb
      · rw [hqs] at hs
        cases hs
      · exact h.currentOnce p hp' q hq' hps hqs hd
  · intro incident hm
    have hforce : ∀ planId, l.PlanInForce planId →
        (((l.setPlans (· == base.id) .superseded).setPlans (· == candidate.id)
          .current).setIncident attempt.incidentId .resolved |>.updateAttempts
            (·.id == attempt.id) fun row ↦
              { row with
                status := .decided
                dispatcherDecision := some .approve }).PlanInForce planId := by
      intro planId hf
      by_cases hb : planId = base.id
      · subst hb
        exact .inr ⟨hsuperseded, _,
          mem_updateWhere_of_true hmem (beq_self_eq_true _), rfl, hbase.2.1.symm⟩
      · have hstay : ∀ {status}, l.HasPlan planId status → status ≠ .candidate →
            ((l.setPlans (· == base.id) .superseded).setPlans
              (· == candidate.id) .current).HasPlan planId status := by
          intro status hs hst
          refine hs.mono fun plan hp hpid ↦ hkeepPlan plan hp ?_ ?_
          · rw [hpid]
            exact hb
          · intro he
            have hcan : l.HasPlan planId .candidate :=
              ⟨candidate, hcandidate.1, he.symm.trans hpid, hwaiting⟩
            exact hst (hs.status_eq hk hcan)
        rcases hf with hc | ⟨hs, a, hma, hap, hab⟩
        · exact .inl (hstay hc (by decide))
        · refine .inr ⟨hstay hs (by decide), a, hkeep a hma ?_, hap, hab⟩
          rintro rfl
          exact hunapproved hap
    obtain ⟨old, hold, ⟨-, rfl⟩ | ⟨-, rfl⟩⟩ := mem_updateWhere.mp hm
    · exact hforce _ (h.inForce old hold)
    · exact hforce _ (h.inForce incident hold)

/-! ### All moves -/

/-- Every move keeps the lifecycle invariant. -/
theorem Move.reviewed {own : Option UUID} {l l' : Ledger} (m : Move own l l')
    (hk : l.keys.Numbered) (h : l.Reviewed) : l'.Reviewed := by
  cases m with
  | age nextId hle => exact reviewed_age h nextId
  | report incident hid hplan => exact reviewed_report h hk incident hid hplan _
  | touch incidentId status hs hopen => exact reviewed_touch h incidentId status hs hopen
  | reserve attempt hid hfresh hnext hidle => exact reviewed_reserve h hk hfresh hnext hidle _
  | record id f hown hflight hkey hrest => exact reviewed_record h hk hflight hkey hrest
  | fill id f plan nextId hown hplan hexists hflight hkey hopen hfilled =>
    exact reviewed_fill h hk hplan.1 hflight hkey hopen hfilled nextId hexists
  | append attempt plan batchId nextId hid hplan hnext hopen hfilled hbatch hsame =>
    exact reviewed_append h hk hplan hnext hopen hfilled hbatch hsame nextId
  | retire retiring cancelled f hf hpending hplans =>
    exact reviewed_retire h hk hf hpending hplans
  | approve attempt base candidate hmem hpending honly hbase hcandidate hdate =>
    exact reviewed_approve h hk hmem hpending honly hbase hcandidate hdate

/-- So does every series of moves. -/
theorem Moves.reviewed {own : Option UUID} {l l' : Ledger} (m : Moves own l l')
    (hk : l.keys.Numbered) (h : l.Reviewed) : l'.Reviewed := by
  induction m with
  | refl => exact h
  | tail hm m ih => exact m.reviewed (hm.numbered hk) ih

/-! ### What a move leaves alone -/

/-- Ids are only taken. -/
theorem Move.nextId_le {own : Option UUID} {l l' : Ledger} (m : Move own l l') :
    l.nextId ≤ l'.nextId := by
  cases m with
  | age nextId hle => exact hle
  | report => exact Nat.le_succ _
  | reserve => exact Nat.le_succ _
  | fill id f plan nextId hown hplan => exact Nat.le_of_lt (Nat.lt_of_le_of_lt hplan.1 hplan.2)
  | append attempt plan batchId nextId hid hplan =>
    exact Nat.le_of_lt (Nat.lt_of_le_of_lt hplan (Nat.lt_trans hid.1 hid.2))
  | touch | record | retire | approve => exact Nat.le_refl _

/-- A draft is only written by the run that works on it. -/
theorem Move.draft_mem {own : Option UUID} {l l' : Ledger} (m : Move own l l')
    (hk : l.keys.Numbered) {attempt : RecoveryPlan} (ha : attempt ∈ l.attempts)
    (hs : attempt.status = .draft) (hne : own ≠ some attempt.id) : attempt ∈ l'.attempts := by
  have hother : ∀ {id}, own = some id → (attempt.id == id) = false := by
    intro id hown
    refine beq_false_of_ne fun he ↦ hne ?_
    rw [hown, he]
  have hwaiting : attempt.isPending = false := isPending_eq_false (by rw [hs]; decide)
  cases m with
  | age | report | touch => exact ha
  | reserve | append => exact List.mem_append_left _ ha
  | record id f hown => exact mem_updateWhere_of_false ha (hother hown)
  | fill id f plan nextId hown => exact mem_updateWhere_of_false ha (hother hown)
  | retire retiring cancelled f hf hpending =>
    refine mem_updateWhere_of_false ha (Bool.eq_false_iff.mpr fun hr ↦ ?_)
    rw [hpending attempt ha hr] at hwaiting
    cases hwaiting
  | approve other base candidate hmem hpending =>
    refine mem_updateWhere_of_false ha (beq_false_of_ne fun he ↦ ?_)
    rw [Ledger.attempt_eq hk ha hmem he, hpending] at hwaiting
    cases hwaiting

/-- Only new attempts get in flight. -/
theorem Move.inFlight_mem {own : Option UUID} {l l' : Ledger} (m : Move own l l')
    (h : l.Reviewed) {attempt : RecoveryPlan} (ha : attempt ∈ l'.attempts)
    (hf : attempt.inFlight = true) :
    attempt ∈ l.attempts ∨ l.nextId ≤ attempt.id := by
  cases m with
  | age | report | touch => exact .inl ha
  | reserve other hid =>
    rcases List.mem_append.mp ha with ha | ha
    · exact .inl ha
    · rw [List.mem_singleton.mp ha, hid]
      exact .inr (Nat.le_refl _)
  | append other plan batchId nextId hid hplan hnext hopen hfilled =>
    rcases List.mem_append.mp ha with ha | ha
    · exact .inl ha
    · rw [List.mem_singleton.mp ha, hfilled.not_inFlight] at hf
      cases hf
  | record id f hown hflight hkey hrest =>
    obtain ⟨old, hold, ⟨-, rfl⟩ | ⟨-, rfl⟩⟩ := mem_updateWhere.mp ha
    · have hsome := (hrest old).2.2.2
      rw [(inFlight_iff.mp hf).2] at hsome
      cases hsome
    · exact .inl hold
  | fill id f plan nextId hown hplan hexists hflight hkey hopen hfilled =>
    obtain ⟨old, hold, ⟨hid, rfl⟩ | ⟨-, rfl⟩⟩ := mem_updateWhere.mp ha
    · rw [(hfilled old hold (by simpa using hid)).not_inFlight] at hf
      cases hf
    · exact .inl hold
  | retire retiring cancelled f hretired hpending =>
    obtain ⟨old, hold, ⟨hr, rfl⟩ | ⟨-, rfl⟩⟩ := mem_updateWhere.mp ha
    · have hs := ((h.shaped old hold).pending (hpending old hold hr)).1
      have hn := (inFlight_iff.mp hf).2
      rw [(hretired old).solverStatus, hs] at hn
      cases hn
    · exact .inl hold
  | approve other base candidate hmem hpending =>
    obtain ⟨old, hold, ⟨-, rfl⟩ | ⟨-, rfl⟩⟩ := mem_updateWhere.mp ha
    · cases (inFlight_iff.mp hf).1
    · exact .inl hold

/-- A series of moves only takes ids. -/
theorem Moves.nextId_le {own : Option UUID} {l l' : Ledger} (m : Moves own l l') :
    l.nextId ≤ l'.nextId := by
  induction m with
  | refl => exact Nat.le_refl _
  | tail _ m ih => exact Nat.le_trans ih m.nextId_le

/-- A draft is only written by the run that works on it. -/
theorem Moves.draft_mem {own : Option UUID} {l l' : Ledger} (m : Moves own l l')
    (hk : l.keys.Numbered) {attempt : RecoveryPlan} (ha : attempt ∈ l.attempts)
    (hs : attempt.status = .draft) (hne : own ≠ some attempt.id) : attempt ∈ l'.attempts := by
  induction m with
  | refl => exact ha
  | tail hm m ih => exact m.draft_mem (hm.numbered hk) ih hs hne

/-- Only new attempts get in flight. -/
theorem Moves.inFlight_mem {own : Option UUID} {l l' : Ledger} (m : Moves own l l')
    (hk : l.keys.Numbered) (h : l.Reviewed) {attempt : RecoveryPlan}
    (ha : attempt ∈ l'.attempts) (hf : attempt.inFlight = true) :
    attempt ∈ l.attempts ∨ l.nextId ≤ attempt.id := by
  induction m with
  | refl => exact .inl ha
  | tail hm m ih =>
    rcases m.inFlight_mem (hm.reviewed hk h) ha hf with hmem | hnew
    · exact ih hmem
    · exact .inr (Nat.le_trans hm.nextId_le hnew)

end PenroseRoute.Lifecycle
