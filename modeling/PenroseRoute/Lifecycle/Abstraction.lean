import PenroseRoute.Decisions.Service
import PenroseRoute.Lifecycle.Moves
import PenroseRoute.Recovery.CandidateRoutes

/-!
# The ledger of a database

What the ledger sees of a database, and what the lookups and the writes of the services are
in the ledger.
-/

namespace PenroseRoute.Lifecycle

open PenroseRoute.Db PenroseRoute.Lib PenroseRoute.Recovery

/-- What the ledger sees of a plan. -/
def headerOf (plan : DeliveryPlan) : PlanHeader where
  id := plan.id
  status := plan.status
  businessDate := plan.businessDate
  parentPlanId := plan.parentPlanId

/-- What the ledger sees of an incident. -/
def incidentHeaderOf (incident : Incident) : IncidentHeader where
  id := incident.id
  status := incident.status
  deliveryPlanId := incident.deliveryPlanId

/-- The ledger of a database. -/
def ledgerOf (db : Database) : Ledger where
  plans := db.plans.map headerOf
  incidents := db.incidents.map incidentHeaderOf
  attempts := db.recoveryPlans
  nextId := db.nextId

/-- A ledger whose rows are numbered and whose statuses go together. -/
structure Ledger.Sound (l : Ledger) : Prop where
  numbered : l.keys.Numbered
  reviewed : l.Reviewed

/-- Moves keep a ledger sound. -/
theorem Moves.sound {own : Option UUID} {l l' : Ledger} (m : Moves own l l') (h : l.Sound) :
    l'.Sound where
  numbered := m.numbered h.numbered
  reviewed := m.reviewed h.numbered h.reviewed

/-! ### Lookups -/

variable {db : Database}

/-- A plan that is found is a row with the id. -/
theorem plan?_mem {id : UUID} {plan : DeliveryPlan} (h : db.plan? id = some plan) :
    plan ∈ db.plans ∧ plan.id = id :=
  ⟨List.mem_of_find?_eq_some h, eq_of_beq (List.find?_some h :)⟩

/-- An incident that is found is a row with the id. -/
theorem incident?_mem {id : UUID} {incident : Incident} (h : db.incident? id = some incident) :
    incident ∈ db.incidents ∧ incident.id = id :=
  ⟨List.mem_of_find?_eq_some h, eq_of_beq (List.find?_some h :)⟩

/-- An attempt that is found is a row with the id. -/
theorem recoveryPlan?_mem {id : UUID} {attempt : RecoveryPlan}
    (h : db.recoveryPlan? id = some attempt) : attempt ∈ db.recoveryPlans ∧ attempt.id = id :=
  ⟨List.mem_of_find?_eq_some h, eq_of_beq (List.find?_some h :)⟩

/-- The header of a plan is in the ledger. -/
theorem headerOf_mem {plan : DeliveryPlan} (h : plan ∈ db.plans) :
    headerOf plan ∈ (ledgerOf db).plans :=
  List.mem_map.mpr ⟨plan, h, rfl⟩

/-- The header of an incident is in the ledger. -/
theorem incidentHeaderOf_mem {incident : Incident} (h : incident ∈ db.incidents) :
    incidentHeaderOf incident ∈ (ledgerOf db).incidents :=
  List.mem_map.mpr ⟨incident, h, rfl⟩

/-- Of a sound ledger the plans have distinct ids. -/
theorem Ledger.Sound.planIds (h : (ledgerOf db).Sound) : (db.plans.map (·.id)).Nodup := by
  have hnodup := h.numbered.plans
  rw [Ledger.keys, ledgerOf, List.map_map] at hnodup
  exact hnodup

/-- Of a sound ledger the incidents have distinct ids. -/
theorem Ledger.Sound.incidentIds (h : (ledgerOf db).Sound) :
    (db.incidents.map (·.id)).Nodup := by
  have hnodup := h.numbered.incidents
  rw [Ledger.keys, ledgerOf, List.map_map, List.map_map] at hnodup
  exact hnodup

/-- Of a sound ledger the attempts have distinct ids. -/
theorem Ledger.Sound.attemptIds {l : Ledger} (h : l.Sound) : (l.attempts.map (·.id)).Nodup := by
  have hnodup := h.numbered.attempts
  rw [Ledger.keys, List.map_map] at hnodup
  exact hnodup

/-- The row with an id is found. -/
theorem Ledger.Sound.plan? (h : (ledgerOf db).Sound) {plan : DeliveryPlan}
    (hp : plan ∈ db.plans) : db.plan? plan.id = some plan :=
  (find?_key_eq_some_iff h.planIds).mpr ⟨hp, rfl⟩

/-- An incident is found by its id. -/
theorem Ledger.Sound.incident? (h : (ledgerOf db).Sound) {incident : Incident}
    (hi : incident ∈ db.incidents) : db.incident? incident.id = some incident :=
  (find?_key_eq_some_iff h.incidentIds).mpr ⟨hi, rfl⟩

/-- An attempt is found by its id. -/
theorem Ledger.Sound.recoveryPlan? (h : (ledgerOf db).Sound) {attempt : RecoveryPlan}
    (ha : attempt ∈ db.recoveryPlans) : db.recoveryPlan? attempt.id = some attempt :=
  (find?_key_eq_some_iff h.attemptIds).mpr ⟨ha, rfl⟩

/-- An incident is open when the row that is found is. -/
theorem Ledger.Sound.open_of_incident? (h : (ledgerOf db).Sound) {id : UUID}
    {incident : Incident} (hi : db.incident? id = some incident)
    (hs : incident.status ≠ .resolved) : (ledgerOf db).Open id := by
  intro header hmem hid
  obtain ⟨other, ho, rfl⟩ := List.mem_map.mp hmem
  have hother := h.incident? ho
  have he : other.id = id := hid
  rw [he, hi, Option.some.injEq] at hother
  rw [← hother]
  exact hs

/-- The attempts of an incident stand in the order of their numbers. -/
theorem Ledger.Sound.attempts_eq (h : (ledgerOf db).Sound) (incidentId : UUID) :
    db.attempts incidentId = (ledgerOf db).attemptsOf incidentId := by
  have hnumbers := h.numbered.numbers incidentId
  rw [Ledger.keys_attemptsOf, List.map_map] at hnumbers
  have hsorted : ((ledgerOf db).attemptsOf incidentId).Pairwise
      fun a b ↦ a.attemptNo ≤ b.attemptNo := by
    have hrange : (((ledgerOf db).attemptsOf incidentId).map (·.attemptNo)).Pairwise (· ≤ ·) := by
      have hmap : ((ledgerOf db).attemptsOf incidentId).map (·.attemptNo) =
          ((ledgerOf db).attemptsOf incidentId).map
            ((fun k : AttemptKey ↦ k.attemptNo) ∘ keyOf) := rfl
      rw [hmap, hnumbers]
      exact List.pairwise_le_range'
    rwa [List.pairwise_map] at hrange
  exact List.Pairwise.insertionSort_eq hsorted

/-- The last attempt of an incident has its highest number, which is their count. -/
theorem Ledger.Sound.getLast?_attempts (h : (ledgerOf db).Sound) {incidentId : UUID}
    {last : RecoveryPlan} (hl : (db.attempts incidentId).getLast? = some last) :
    last ∈ db.recoveryPlans ∧ last.incidentId = incidentId ∧
      last.attemptNo = ((ledgerOf db).attemptsOf incidentId).length := by
  rw [h.attempts_eq] at hl
  have hmem := List.mem_filter.mp (List.mem_of_getLast? hl)
  refine ⟨hmem.1, by simpa using hmem.2, ?_⟩
  have hnumbers := h.numbered.numbers incidentId
  rw [Ledger.keys_attemptsOf, List.map_map, List.length_map] at hnumbers
  have hlast := congrArg List.getLast? hnumbers
  rw [List.getLast?_map, hl, List.getLast?_range'] at hlast
  have hne : ((ledgerOf db).attemptsOf incidentId).length ≠ 0 := by
    intro h0
    rw [List.length_eq_zero_iff.mp h0] at hl
    cases hl
  rw [if_neg hne] at hlast
  simpa [keyOf, Nat.add_sub_cancel' (Nat.one_le_iff_ne_zero.mpr hne)] using hlast

/-! ### Next attempts -/

/-- An attempt of an incident belongs to the plan that the incident was reported on. -/
theorem Ledger.Sound.base_eq {l : Ledger} (h : l.Sound) {attempt : RecoveryPlan}
    (ha : attempt ∈ l.attempts) {incident : IncidentHeader} (hi : incident ∈ l.incidents)
    (hid : incident.id = attempt.incidentId) :
    incident.deliveryPlanId = attempt.baseDeliveryPlanId := by
  have howner := h.numbered.owner (keyOf attempt) (List.mem_map.mpr ⟨attempt, ha, rfl⟩)
  have hmem : (incident.id, incident.deliveryPlanId) ∈ l.keys.incidents :=
    List.mem_map.mpr ⟨incident, hi, rfl⟩
  have he := eq_of_key_eq h.numbered.incidents hmem howner hid
  exact congrArg Prod.snd he

/-- The first attempt of an incident. -/
theorem Ledger.next_first {l : Ledger} {attempt : RecoveryPlan}
    (hnone : l.attemptsOf attempt.incidentId = []) (hno : attempt.attemptNo = 1)
    (hprev : attempt.previousRecoveryPlanId = none)
    (howner : ∃ incident ∈ l.incidents, incident.id = attempt.incidentId ∧
      incident.deliveryPlanId = attempt.baseDeliveryPlanId) : l.Next attempt where
  number := by rw [hnone, hno]; rfl
  previous id hp := by rw [hprev] at hp; cases hp
  owner := howner

/-- A later attempt of an incident. -/
theorem Ledger.next_later {l : Ledger} {attempt before : RecoveryPlan} (hb : before ∈ l.attempts)
    (hbi : before.incidentId = attempt.incidentId) {count : Nat}
    (hcount : count = (l.attemptsOf attempt.incidentId).length)
    (hno : attempt.attemptNo = count + 1)
    (hprev : attempt.previousRecoveryPlanId = some before.id)
    (howner : ∃ incident ∈ l.incidents, incident.id = attempt.incidentId ∧
      incident.deliveryPlanId = attempt.baseDeliveryPlanId) : l.Next attempt where
  number := by rw [hno, hcount]
  previous id hp := by
    rw [hprev, Option.some.injEq] at hp
    exact ⟨before, hb, hp, hbi⟩
  owner := howner

/-! ### Writes -/

/-- A rewritten plan with the same header. -/
theorem ledgerOf_updatePlan (db : Database) {f : DeliveryPlan → DeliveryPlan}
    (hf : ∀ plan, headerOf (f plan) = headerOf plan) (id : UUID) :
    ledgerOf (db.updatePlan id f) = ledgerOf db := by
  rw [ledgerOf, Database.updatePlan, map_updateWhere hf]
  rfl

/-- Plans that get a status. -/
theorem map_headerOf_updateWhere (plans : List DeliveryPlan) (cond : UUID → Bool)
    (status : DeliveryPlanStatus) :
    (updateWhere plans (fun plan ↦ cond plan.id) fun plan ↦
      { plan with status := status }).map headerOf =
      updateWhere (plans.map headerOf) (fun plan ↦ cond plan.id) fun plan ↦
        { plan with status := status } :=
  map_updateWhere_comm (fun _ _ ↦ rfl) fun _ ↦ rfl

/-- A new status of a plan is one of its header. -/
@[simp] theorem ledgerOf_updatePlan_status (id : UUID) (status : DeliveryPlanStatus) :
    ledgerOf (db.updatePlan id fun plan ↦ { plan with status := status }) =
      (ledgerOf db).setPlans (· == id) status := by
  rw [ledgerOf, Database.updatePlan, map_headerOf_updateWhere db.plans (· == id) status]
  rfl

/-- A new status of an incident is one of its header. -/
@[simp] theorem ledgerOf_updateIncident_status (id : UUID) (status : IncidentStatus) :
    ledgerOf (db.updateIncident id fun incident ↦ { incident with status := status }) =
      (ledgerOf db).setIncident id status := by
  have hmap : (updateWhere db.incidents (·.id == id) fun incident ↦
      { incident with status := status }).map incidentHeaderOf =
      updateWhere (db.incidents.map incidentHeaderOf) (·.id == id) fun incident ↦
        { incident with status := status } :=
    map_updateWhere_comm (fun _ _ ↦ rfl) fun _ ↦ rfl
  rw [ledgerOf, Database.updateIncident, hmap]
  rfl

/-- The ledger has the attempts as they are. -/
@[simp] theorem ledgerOf_updateRecoveryPlan (id : UUID) (f : RecoveryPlan → RecoveryPlan) :
    ledgerOf (db.updateRecoveryPlan id f) = (ledgerOf db).updateAttempts (·.id == id) f :=
  rfl

/-- The candidates of the attempts that satisfy a condition. -/
def candidatesOf (attempts : List RecoveryPlan) (cond : RecoveryPlan → Bool) (id : UUID) : Bool :=
  (attempts.filter cond).any (·.candidateDeliveryPlanId == some id)

/-- The candidates are those of the attempts that meet the condition. -/
theorem candidatesOf_iff {attempts : List RecoveryPlan} {cond : RecoveryPlan → Bool} {id : UUID} :
    candidatesOf attempts cond id = true ↔ ∃ attempt ∈ attempts,
      cond attempt = true ∧ attempt.candidateDeliveryPlanId = some id := by
  simp only [candidatesOf, List.any_eq_true, List.mem_filter, beq_iff_eq, and_assoc]

/-- Pending attempts are rewritten and their candidates are cancelled. -/
theorem moves_retire {own : Option UUID} (l : Ledger) {retiring : RecoveryPlan → Bool}
    {f : RecoveryPlan → RecoveryPlan} (hf : ∀ attempt, Retired attempt (f attempt))
    (hpending : ∀ attempt ∈ l.attempts, retiring attempt = true → attempt.isPending = true) :
    Moves own l ((l.setPlans (candidatesOf l.attempts retiring) .cancelled).updateAttempts
      retiring f) :=
  (Move.retire l retiring _ f hf hpending fun _ _ ↦ candidatesOf_iff).moves

/-- The ledger behind `closeAttempts`. -/
theorem ledgerOf_closeAttempts (closing : RecoveryPlan → Bool) :
    ledgerOf (RecoveryOptionsWorkflow.closeAttempts db closing) =
      ((ledgerOf db).setPlans (candidatesOf db.recoveryPlans closing) .cancelled).updateAttempts
        closing RecoveryOptionsWorkflow.close := by
  rw [ledgerOf, RecoveryOptionsWorkflow.closeAttempts]
  have hmap := map_headerOf_updateWhere db.plans (candidatesOf db.recoveryPlans closing) .cancelled
  rw [Ledger.updateAttempts, Ledger.setPlans]
  exact congrArg (fun plans ↦ Ledger.mk plans _ _ _) hmap

/-- The ledger behind a created candidate. -/
theorem ledgerOf_createCandidate {db' : Database} {context : RecoveryContext}
    {result : Optimization.SolverResult} {roads : RoadRoutes} {plan : DeliveryPlan}
    (h : createCandidate db context result roads = .ok (db', plan)) :
    ledgerOf db' = { ledgerOf db with
        plans := (ledgerOf db).plans ++ [headerOf plan]
        nextId := db'.nextId } ∧
      headerOf plan = ⟨db.nextId, .candidate, context.businessDate, some context.basePlanId⟩ ∧
      db.nextId < db'.nextId := by
  obtain ⟨hcreated, rfl⟩ := createCandidate_ok h
  refine ⟨?_, ?_, ?_⟩
  · rw [ledgerOf, List.map_append]
    rfl
  · rw [hcreated.row]
    rfl
  · exact Nat.lt_of_lt_of_le (Nat.lt_succ_self _) (Nat.le_add_right _ _)

end PenroseRoute.Lifecycle
