import PenroseRoute.Lifecycle.Ledger

/-!
# Numbered attempts

The part of the lifecycle that no status matters for: ids are unique and taken in order, the
attempts of an incident are numbered from one, and each points back to an earlier one.
-/

namespace PenroseRoute.Lifecycle

open PenroseRoute.Db PenroseRoute.Lib

/-- What never changes of the rows of a ledger. -/
structure Keys where
  plans : List UUID
  incidents : List (UUID × UUID)
  attempts : List AttemptKey
  nextId : UUID
  deriving DecidableEq, Repr

/-- What never changes of the rows of a ledger. -/
def Ledger.keys (l : Ledger) : Keys where
  plans := l.plans.map (·.id)
  incidents := l.incidents.map fun incident ↦ (incident.id, incident.deliveryPlanId)
  attempts := l.attempts.map keyOf
  nextId := l.nextId

/-- The attempts of an incident. -/
def Keys.attemptsOf (k : Keys) (incidentId : UUID) : List AttemptKey :=
  k.attempts.filter (·.incidentId == incidentId)

/-- Ids are unique and below the next one, and attempts are numbered and chained. -/
structure Keys.Numbered (k : Keys) : Prop where
  plans : k.plans.Nodup
  incidents : (k.incidents.map (·.1)).Nodup
  attempts : (k.attempts.map (·.id)).Nodup
  plansFresh : ∀ id ∈ k.plans, id < k.nextId
  incidentsFresh : ∀ incident ∈ k.incidents, incident.1 < k.nextId
  attemptsFresh : ∀ attempt ∈ k.attempts, attempt.id < k.nextId
  numbers : ∀ incidentId, (k.attemptsOf incidentId).map (·.attemptNo) =
    List.range' 1 (k.attemptsOf incidentId).length
  previous : ∀ attempt ∈ k.attempts, ∀ id, attempt.previousRecoveryPlanId = some id →
    ∃ before ∈ k.attempts, before.id = id ∧ before.incidentId = attempt.incidentId ∧
      before.attemptNo < attempt.attemptNo
  owner : ∀ attempt ∈ k.attempts,
    (attempt.incidentId, attempt.baseDeliveryPlanId) ∈ k.incidents

/-! ### Appending keys -/

private theorem nodup_append_fresh {xs : List Nat} {x n : Nat} (h : xs.Nodup)
    (hlt : ∀ y ∈ xs, y < n) (hx : n ≤ x) : (xs ++ [x]).Nodup := by
  rw [List.nodup_append]
  refine ⟨h, List.nodup_singleton x, ?_⟩
  intro a ha b hb
  rw [List.mem_singleton.mp hb]
  exact Nat.ne_of_lt (Nat.lt_of_lt_of_le (hlt a ha) hx)

namespace Keys.Numbered

variable {k : Keys}

/-- Ids that others take. -/
theorem age (h : k.Numbered) {nextId : UUID} (hle : k.nextId ≤ nextId) :
    { k with nextId := nextId }.Numbered where
  plans := h.plans
  incidents := h.incidents
  attempts := h.attempts
  plansFresh id hid := Nat.lt_of_lt_of_le (h.plansFresh id hid) hle
  incidentsFresh i hi := Nat.lt_of_lt_of_le (h.incidentsFresh i hi) hle
  attemptsFresh a ha := Nat.lt_of_lt_of_le (h.attemptsFresh a ha) hle
  numbers := h.numbers
  previous := h.previous
  owner := h.owner

/-- A new plan. -/
theorem addPlan (h : k.Numbered) {id : UUID} (hid : k.nextId ≤ id) :
    { k with plans := k.plans ++ [id], nextId := id + 1 }.Numbered := by
  have h' := h.age (Nat.le_succ_of_le hid)
  refine { h' with plans := nodup_append_fresh h.plans h.plansFresh hid, plansFresh := ?_ }
  intro x hx
  rcases List.mem_append.mp hx with hx | hx
  · exact h'.plansFresh x hx
  · rw [List.mem_singleton.mp hx]
    exact Nat.lt_succ_self id

/-- A new incident. -/
theorem addIncident (h : k.Numbered) {id : UUID} (plan : UUID) (hid : k.nextId ≤ id) :
    { k with incidents := k.incidents ++ [(id, plan)], nextId := id + 1 }.Numbered := by
  have h' := h.age (Nat.le_succ_of_le hid)
  refine { h' with incidents := ?_, incidentsFresh := ?_, owner := ?_ }
  · rw [List.map_append]
    refine nodup_append_fresh h.incidents ?_ hid
    intro x hx
    obtain ⟨i, hi, rfl⟩ := List.mem_map.mp hx
    exact h.incidentsFresh i hi
  · intro x hx
    rcases List.mem_append.mp hx with hx | hx
    · exact h'.incidentsFresh x hx
    · rw [List.mem_singleton.mp hx]
      exact Nat.lt_succ_self id
  · intro a ha
    exact List.mem_append_left _ (h.owner a ha)

/-- The numbers of an incident's attempts are at most their count. -/
theorem attemptNo_le (h : k.Numbered) {attempt : AttemptKey} (ha : attempt ∈ k.attempts) :
    1 ≤ attempt.attemptNo ∧ attempt.attemptNo ≤ (k.attemptsOf attempt.incidentId).length := by
  have hmem : attempt.attemptNo ∈ (k.attemptsOf attempt.incidentId).map (·.attemptNo) :=
    List.mem_map.mpr ⟨attempt, List.mem_filter.mpr ⟨ha, beq_self_eq_true _⟩, rfl⟩
  rw [h.numbers, List.mem_range'_1] at hmem
  omega

/-- A new attempt with the next number that points back to an earlier one. -/
theorem addAttempt (h : k.Numbered) (attempt : AttemptKey) (hid : k.nextId ≤ attempt.id)
    (hno : attempt.attemptNo = (k.attemptsOf attempt.incidentId).length + 1)
    (hprev : ∀ id, attempt.previousRecoveryPlanId = some id →
      ∃ before ∈ k.attempts, before.id = id ∧ before.incidentId = attempt.incidentId)
    (howner : (attempt.incidentId, attempt.baseDeliveryPlanId) ∈ k.incidents) :
    { k with attempts := k.attempts ++ [attempt], nextId := attempt.id + 1 }.Numbered := by
  have h' := h.age (Nat.le_succ_of_le hid)
  refine { h' with
    attempts := ?_, attemptsFresh := ?_, numbers := ?_, previous := ?_, owner := ?_ }
  · rw [List.map_append]
    refine nodup_append_fresh h.attempts ?_ hid
    intro x hx
    obtain ⟨a, ha, rfl⟩ := List.mem_map.mp hx
    exact h.attemptsFresh a ha
  · intro a ha
    rcases List.mem_append.mp ha with ha | ha
    · exact h'.attemptsFresh a ha
    · rw [List.mem_singleton.mp ha]
      exact Nat.lt_succ_self attempt.id
  · intro incidentId
    have hold := h.numbers incidentId
    rw [attemptsOf] at hold hno
    rw [attemptsOf, List.filter_append, List.map_append, List.length_append, hold]
    by_cases hi : attempt.incidentId = incidentId
    · subst hi
      rw [List.filter_singleton, beq_self_eq_true, cond_true, List.map_singleton, hno,
        List.length_singleton, List.range'_1_concat, Nat.add_comm]
    · rw [List.filter_singleton, beq_false_of_ne hi, cond_false, List.map_nil, List.append_nil]
      rfl
  · intro a ha id hp
    rcases List.mem_append.mp ha with ha | ha
    · obtain ⟨before, hb, hrest⟩ := h.previous a ha id hp
      exact ⟨before, List.mem_append_left _ hb, hrest⟩
    · rw [List.mem_singleton.mp ha] at hp ⊢
      obtain ⟨before, hb, hbid, hbi⟩ := hprev id hp
      refine ⟨before, List.mem_append_left _ hb, hbid, hbi, ?_⟩
      have hle := (h.attemptNo_le hb).2
      rw [hbi] at hle
      omega
  · intro a ha
    rcases List.mem_append.mp ha with ha | ha
    · exact h.owner a ha
    · rw [List.mem_singleton.mp ha]
      exact howner

end Keys.Numbered

/-! ### Keys of an updated ledger -/

/-- The status of a plan is no key. -/
@[simp] theorem Ledger.keys_setPlans (l : Ledger) (ids : UUID → Bool)
    (status : DeliveryPlanStatus) : (l.setPlans ids status).keys = l.keys := by
  rw [keys, setPlans, map_updateWhere]
  · rfl
  · exact fun _ ↦ rfl

/-- The status of an incident is no key. -/
@[simp] theorem Ledger.keys_setIncident (l : Ledger) (id : UUID) (status : IncidentStatus) :
    (l.setIncident id status).keys = l.keys := by
  rw [keys, setIncident, map_updateWhere]
  · rfl
  · exact fun _ ↦ rfl

/-- Updates that keep the keys of attempts keep all keys. -/
theorem Ledger.keys_updateAttempts (l : Ledger) (cond : RecoveryPlan → Bool)
    {f : RecoveryPlan → RecoveryPlan} (hf : ∀ attempt, keyOf (f attempt) = keyOf attempt) :
    (l.updateAttempts cond f).keys = l.keys := by
  rw [keys, updateAttempts, map_updateWhere hf]
  rfl

/-- The attempts of an incident and their keys. -/
theorem Ledger.keys_attemptsOf (l : Ledger) (incidentId : UUID) :
    l.keys.attemptsOf incidentId = (l.attemptsOf incidentId).map keyOf := by
  rw [Keys.attemptsOf, keys, attemptsOf, List.filter_map]
  rfl

/-! ### Moves -/

private theorem Ledger.Next.addAttempt {l : Ledger} {attempt : RecoveryPlan} (h : l.Next attempt)
    {nextId : UUID} (hid : nextId ≤ attempt.id) {plans : List UUID}
    (hplans : { l.keys with plans := plans, nextId := nextId }.Numbered) :
    { l.keys with
      plans := plans
      attempts := l.keys.attempts ++ [keyOf attempt]
      nextId := attempt.id + 1 }.Numbered := by
  refine hplans.addAttempt (keyOf attempt) hid ?_ ?_ ?_
  · have hlen := congrArg List.length (l.keys_attemptsOf attempt.incidentId)
    rw [List.length_map] at hlen
    exact h.number.trans (congrArg (· + 1) hlen.symm)
  · intro id hp
    obtain ⟨before, hb, hbid, hbi⟩ := h.previous id hp
    exact ⟨keyOf before, List.mem_map.mpr ⟨before, hb, rfl⟩, hbid, hbi⟩
  · obtain ⟨incident, hi, hii, hip⟩ := h.owner
    refine List.mem_map.mpr ⟨incident, hi, ?_⟩
    rw [hii, hip]
    rfl

/-- Every move keeps the attempts numbered. -/
theorem Move.numbered {own : Option UUID} {l l' : Ledger} (m : Move own l l')
    (h : l.keys.Numbered) : l'.keys.Numbered := by
  cases m with
  | age nextId hle => exact h.age hle
  | report incident hid hplan =>
    have := h.addIncident incident.deliveryPlanId (Nat.le_of_eq hid.symm)
    rw [hid] at this
    simpa [Ledger.keys, hid] using this
  | touch incidentId status hs hopen => rwa [Ledger.keys_setIncident]
  | reserve attempt hid hfresh hnext hidle =>
    have := hnext.addAttempt (Nat.le_of_eq hid.symm) h
    simpa [Ledger.keys, hid] using this
  | record id f hown hflight hkey hrest => rwa [Ledger.keys_updateAttempts _ _ hkey]
  | fill id f plan nextId hown hplan hexists hflight hkey hopen hfilled =>
    have := (h.addPlan hplan.1).age (Nat.succ_le_of_lt hplan.2)
    have hkeys : (l.attempts.map keyOf) = ((l.updateAttempts (·.id == id) f).attempts.map keyOf) :=
      (congrArg Keys.attempts (l.keys_updateAttempts (·.id == id) hkey)).symm
    simpa [Ledger.keys, hkeys, Ledger.updateAttempts] using this
  | append attempt plan batchId nextId hid hplan hnext hopen hfilled hbatch hsame =>
    have := (hnext.addAttempt (Nat.succ_le_of_lt hid.1) (h.addPlan hplan)).age
      (Nat.succ_le_of_lt hid.2)
    simpa [Ledger.keys] using this
  | retire retiring cancelled f hf hpending hplans =>
    rwa [Ledger.keys_updateAttempts _ _ fun attempt ↦ (hf attempt).key, Ledger.keys_setPlans]
  | approve attempt base candidate hmem hpending honly hbase hcandidate hdate =>
    rwa [Ledger.keys_updateAttempts, Ledger.keys_setIncident, Ledger.keys_setPlans,
      Ledger.keys_setPlans]
    exact fun _ ↦ rfl

/-- So does every series of moves. -/
theorem Moves.numbered {own : Option UUID} {l l' : Ledger} (m : Moves own l l')
    (h : l.keys.Numbered) : l'.keys.Numbered := by
  induction m with
  | refl => exact h
  | tail _ m ih => exact m.numbered ih

end PenroseRoute.Lifecycle
