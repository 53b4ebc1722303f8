import PenroseRoute.Lifecycle.RunSteps

/-!
# Batches of options as moves

The last transaction of the options workflow: its loop gives the first alternative to the
reserved attempt and adds an attempt for every further one, and then the rows beyond the limit
are filtered. What the loop keeps says that the rows of the batch are what is pending.
-/

namespace PenroseRoute.Lifecycle

open PenroseRoute.Db PenroseRoute.Lib PenroseRoute.Recovery PenroseRoute.Optimization
open RecoveryOptionsWorkflow

variable {db db' : Database} {run : Run}

/-- An attempt is the one of a row of a batch. -/
structure RowOf (run : Run) (row : BatchRow) (attempt : RecoveryPlan) : Prop where
  id : attempt.id = row.attemptId
  incidentId : attempt.incidentId = run.incidentId
  attemptNo : attempt.attemptNo = row.attemptNo
  pending : attempt.isPending = true

/-- What the loop keeps: its rows are the pending attempts of the incident, and behind the first
one nothing is in flight. -/
structure BatchOk (l : Ledger) (run : Run) (batchId : UUID) (reserved : RecoveryPlan)
    (batch : Batch) : Prop where
  moves : Moves (some run.attemptId) l (ledgerOf batch.db)
  incidents : (ledgerOf batch.db).incidents = l.incidents
  opened : batchId < batch.db.nextId
  others : (ledgerOf batch.db).attempts.filter (·.incidentId != run.incidentId) =
    l.attempts.filter (·.incidentId != run.incidentId)
  reserved : batch.rows = [] → reserved ∈ (ledgerOf batch.db).attempts
  rows : ∀ row ∈ batch.rows, ∃ attempt ∈ (ledgerOf batch.db).attempts, RowOf run row attempt
  settled : batch.rows ≠ [] → ∀ attempt ∈ (ledgerOf batch.db).attempts,
    attempt.incidentId = run.incidentId → attempt.inFlight = false
  pending : ∀ attempt ∈ (ledgerOf batch.db).attempts, attempt.incidentId = run.incidentId →
    attempt.isPending = true → attempt.id ∈ batch.rows.map (·.attemptId) ∧
      attempt.options.map (·.batchId) = some batchId
  last : ∀ row, batch.rows.getLast? = some row →
    row.attemptNo = ((ledgerOf batch.db).attemptsOf run.incidentId).length

section

variable {l : Ledger} {batchId : UUID} {reserved : RecoveryPlan} {batch : Batch}

/-- An attempt in flight has the last number of its incident. -/
theorem attemptNo_eq_of_inFlight {l : Ledger} (hl : l.Sound) {attempt : RecoveryPlan}
    (ha : attempt ∈ l.attempts) (hf : attempt.inFlight = true) :
    attempt.attemptNo = (l.attemptsOf attempt.incidentId).length := by
  refine attemptNo_eq_of_free hl ha fun other ho hi hno ↦ ?_
  have hle := hl.reviewed.inFlightLast attempt ha other ho hf hi
  omega

/-- Rewriting attempts within their incidents leaves their numbers of attempts. -/
theorem length_attemptsOf_updateAttempts (l : Ledger) (cond : RecoveryPlan → Bool)
    (f : RecoveryPlan → RecoveryPlan) (hf : ∀ attempt, (f attempt).incidentId = attempt.incidentId)
    (incidentId : UUID) :
    ((l.updateAttempts cond f).attemptsOf incidentId).length =
      (l.attemptsOf incidentId).length := by
  rw [Ledger.attemptsOf, Ledger.updateAttempts, filter_updateWhere, updateWhere, List.length_map]
  · rfl
  · intro attempt
    rw [hf]

/-- A context of an incident, in a ledger with the same incidents. -/
theorem ContextOf.of_incidents {l l' : Ledger} {id : UUID} {context : RecoveryContext}
    (h : ContextOf l id context) (he : l'.incidents = l.incidents) : ContextOf l' id context where
  incidentId := h.incidentId
  incidentOpen := by
    intro incident hi
    rw [he] at hi
    exact h.incidentOpen incident hi
  owner := by
    rw [he]
    exact h.owner

/-- The first row goes to the reserved attempt. -/
theorem BatchOk.first (h : BatchOk l run batchId reserved batch) (hl : l.Sound)
    (hid : reserved.id = run.attemptId) (hi : reserved.incidentId = run.incidentId)
    (hf : reserved.inFlight = true) {fingerprint : RecoveryContext → Nat}
    {option : RecoveryContext × SolverResult} (hof : ContextOf l run.incidentId option.1)
    (hnone : batch.rows = []) {created : Database} {candidate : DeliveryPlan}
    (hc : createCandidate batch.db option.1 option.2 none = .ok (created, candidate))
    (metrics : OptionMetrics) (signatures : List (List (UUID × List (UUID × StopType × UUID)))) :
    BatchOk l run batchId reserved {
      db := created.updateRecoveryPlan reserved.id
        (publishOption fingerprint batchId option.1 candidate.id)
      rows := batch.rows ++ [⟨reserved.id, reserved.attemptNo, metrics⟩]
      signatures := signatures } := by
  have hb := h.moves.sound hl
  have hmem := h.reserved hnone
  have hincidents : (ledgerOf created).incidents = (ledgerOf batch.db).incidents := by
    rw [(ledgerOf_createCandidate hc).1]
  have hattempts : (ledgerOf created).attempts = (ledgerOf batch.db).attempts := by
    rw [(ledgerOf_createCandidate hc).1]
  have hself : ∀ attempt ∈ (ledgerOf created).attempts, attempt.id = reserved.id →
      attempt = reserved := by
    intro attempt ha he
    rw [hattempts] at ha
    exact Ledger.attempt_eq hb.numbered ha hmem he
  have hcases : ∀ {attempt}, attempt ∈ (ledgerOf (created.updateRecoveryPlan reserved.id
      (publishOption fingerprint batchId option.1 candidate.id))).attempts →
      attempt = publishOption fingerprint batchId option.1 candidate.id reserved ∨
        (attempt ∈ (ledgerOf batch.db).attempts ∧ attempt.id ≠ reserved.id) := by
    intro attempt ha
    obtain ⟨old, hold, ⟨he, rfl⟩ | ⟨hne, rfl⟩⟩ := mem_updateWhere.mp ha
    · rw [hself old hold (eq_of_beq he)]
      exact .inl rfl
    · rw [← hattempts]
      exact .inr ⟨hold, beq_eq_false_iff_ne.mp hne⟩
  rw [hnone, List.nil_append]
  refine ⟨?_, hincidents.trans h.incidents,
    Nat.lt_trans h.opened (ledgerOf_createCandidate hc).2.2, ?_, fun hn ↦ (by cases hn), ?_, ?_,
    ?_, ?_⟩
  · have hfill := fill_moves hb hmem hf (by rw [hi]; exact hof.of_incidents h.incidents) hc
      (some (optionSummary fingerprint batchId option.1))
      (fun row ↦ { row with replanningScope := option.1.scope }) (fun _ ↦ rfl) fun _ ↦ rfl
    rw [hid] at hfill
    rw [hid]
    exact h.moves.trans hfill
  · rw [← h.others, ← hattempts]
    refine filter_updateAttempts (l := ledgerOf created) (publishOption fingerprint batchId
      option.1 candidate.id) (fun _ ↦ rfl) fun attempt ha he ↦ ?_
    rw [hself attempt ha he, hi]
  · intro row hr
    rw [List.mem_singleton.mp hr]
    have hmem' : reserved ∈ (ledgerOf created).attempts := by rwa [hattempts]
    exact ⟨_, mem_updateWhere_of_true hmem' (beq_self_eq_true _), rfl, hi, rfl, rfl⟩
  · intro _ attempt ha hai
    rcases hcases ha with rfl | ⟨hold, hne⟩
    · rfl
    · refine Bool.eq_false_iff.mpr fun hfa ↦ hne ?_
      rw [hb.reviewed.inFlight_unique hb.numbered hold hmem hfa hf (hi.trans hai.symm)]
  · intro attempt ha hai hp
    rcases hcases ha with rfl | ⟨hold, -⟩
    · exact ⟨List.mem_singleton.mpr rfl, rfl⟩
    · have hnot := hb.reviewed.not_pending_of_inFlight hmem hold hf (hai.trans hi.symm)
      rw [hp] at hnot
      cases hnot
  · intro row hr
    rw [List.getLast?_singleton, Option.some.injEq] at hr
    rw [← hr, ledgerOf_updateRecoveryPlan, length_attemptsOf_updateAttempts _ _
      (publishOption fingerprint batchId option.1 candidate.id) fun _ ↦ rfl]
    have hlast := attemptNo_eq_of_inFlight hb hmem hf
    rw [hi] at hlast
    rw [Ledger.attemptsOf, hattempts]
    exact hlast

/-- The attempt of a further row. -/
theorem nextRow_ok {created added : Database} {rows : List BatchRow} {previous : BatchRow}
    (hprevious : rows.getLast? = some previous) {context : RecoveryContext}
    {attempt : RecoveryPlan} (h : nextRow created reserved rows context = .ok (added, attempt)) :
    attempt = RecoveryWorkflow.newAttempt context created.nextId (previous.attemptNo + 1)
        (some previous.attemptId) ∧
      added = { created with
        recoveryPlans := created.recoveryPlans ++ [attempt]
        nextId := created.nextId + 1 } := by
  rw [nextRow, hprevious] at h
  obtain ⟨added', ha, h⟩ := bind_eq_ok.mp h
  cases h
  exact ⟨rfl, (addRecoveryPlan_ok ha).2⟩

/-- Every further row gets an attempt of its own. -/
theorem BatchOk.further (h : BatchOk l run batchId reserved batch) (hl : l.Sound)
    {fingerprint : RecoveryContext → Nat} {option : RecoveryContext × SolverResult}
    (hof : ContextOf l run.incidentId option.1) {previous : BatchRow}
    (hprevious : batch.rows.getLast? = some previous) {created added : Database}
    {candidate : DeliveryPlan}
    (hc : createCandidate batch.db option.1 option.2 none = .ok (created, candidate))
    {attempt : RecoveryPlan}
    (hn : nextRow created reserved batch.rows option.1 = .ok (added, attempt))
    (metrics : OptionMetrics) (signatures : List (List (UUID × List (UUID × StopType × UUID)))) :
    BatchOk l run batchId reserved {
      db := added.updateRecoveryPlan attempt.id
        (publishOption fingerprint batchId option.1 candidate.id)
      rows := batch.rows ++ [⟨attempt.id, attempt.attemptNo, metrics⟩]
      signatures := signatures } := by
  have hb := h.moves.sound hl
  obtain ⟨hledger, hheader, hlt⟩ := ledgerOf_createCandidate hc
  obtain ⟨hattempt, rfl⟩ := nextRow_ok hprevious hn
  let published := publishOption fingerprint batchId option.1 candidate.id attempt
  have hcontext := hof.of_incidents h.incidents
  have hcreated : created.recoveryPlans = (ledgerOf batch.db).attempts := by
    rw [← congrArg Ledger.attempts hledger]
    rfl
  have hid : attempt.id = created.nextId := by rw [hattempt]; rfl
  have hi : attempt.incidentId = run.incidentId := by
    rw [hattempt]
    exact hof.incidentId
  have hne : batch.rows ≠ [] := fun hnil ↦ by rw [hnil] at hprevious; cases hprevious
  have hfinal : ledgerOf ({ created with
        recoveryPlans := created.recoveryPlans ++ [attempt]
        nextId := created.nextId + 1 }.updateRecoveryPlan attempt.id
          (publishOption fingerprint batchId option.1 candidate.id)) =
      { ledgerOf batch.db with
        plans := (ledgerOf batch.db).plans ++ [headerOf candidate]
        attempts := (ledgerOf batch.db).attempts ++ [published]
        nextId := created.nextId + 1 } := by
    have hnew : ∀ other ∈ created.recoveryPlans, other.id ≠ attempt.id := by
      intro other ho
      rw [hcreated] at ho
      have hfresh := hb.numbered.attemptsFresh (keyOf other) (List.mem_map.mpr ⟨other, ho, rfl⟩)
      rw [hid]
      exact Nat.ne_of_lt (Nat.lt_trans hfresh hlt)
    have hplans : created.plans.map headerOf = (ledgerOf batch.db).plans ++ [headerOf candidate] :=
      congrArg Ledger.plans hledger
    have hincidents : created.incidents.map incidentHeaderOf = (ledgerOf batch.db).incidents :=
      congrArg Ledger.incidents hledger
    have hrows := updateWhere_append_new
      (publishOption fingerprint batchId option.1 candidate.id) hnew
    rw [hcreated] at hrows
    change Ledger.mk (created.plans.map headerOf) (created.incidents.map incidentHeaderOf)
      (updateWhere (created.recoveryPlans ++ [attempt]) (·.id == attempt.id)
        (publishOption fingerprint batchId option.1 candidate.id)) (created.nextId + 1) = _
    rw [hplans, hincidents, hcreated, hrows]
  have hnext : (ledgerOf batch.db).Next published := by
    obtain ⟨before, hbefore, hof'⟩ := h.rows previous (List.mem_of_getLast? hprevious)
    have hcount : previous.attemptNo =
        ((ledgerOf batch.db).attemptsOf published.incidentId).length := by
      rw [h.last previous hprevious, ← hi]
      rfl
    refine Ledger.next_later hbefore (hof'.incidentId.trans hi.symm) hcount ?_ ?_ ?_
    · exact congrArg RecoveryPlan.attemptNo hattempt
    · exact (congrArg RecoveryPlan.previousRecoveryPlanId hattempt).trans
        (congrArg some hof'.id.symm)
    · have howner := hcontext.ownerOf
      have hbase : published.baseDeliveryPlanId = option.1.basePlanId :=
        congrArg RecoveryPlan.baseDeliveryPlanId hattempt
      have hinc : published.incidentId = option.1.incidentId :=
        congrArg RecoveryPlan.incidentId hattempt
      rw [hbase, hinc]
      exact howner
  have hfilled : Filled published (headerOf candidate) := by
    refine filled_publish (headerOf candidate) _ ?_ ?_ ?_
    · exact congrArg RecoveryPlan.dispatcherDecision hattempt
    · rw [hheader]
      exact congrArg some (congrArg RecoveryPlan.baseDeliveryPlanId hattempt).symm
    · rw [hheader]
  have hopen : (ledgerOf batch.db).Open published.incidentId := by
    rw [show published.incidentId = run.incidentId from hi]
    exact hcontext.incidentOpen
  have happend : Move (some run.attemptId) _ _ := .append (ledgerOf batch.db) published
    (headerOf candidate) batchId (created.nextId + 1)
    ⟨by rw [hheader]; exact Nat.lt_of_lt_of_eq hlt hid.symm,
      Nat.lt_of_le_of_lt (Nat.le_of_eq hid) (Nat.lt_succ_self _)⟩
    (by rw [hheader]; exact Nat.le_refl _) hnext hopen hfilled rfl
    fun other ho hoi ↦ ⟨h.settled hne other ho (hoi.trans hi),
      fun hp ↦ (h.pending other ho (hoi.trans hi) hp).2⟩
  have hcases : ∀ {other}, other ∈ (ledgerOf batch.db).attempts ++ [published] →
      other ∈ (ledgerOf batch.db).attempts ∨ other = published :=
    fun ho ↦ (List.mem_append.mp ho).imp_right List.mem_singleton.mp
  refine ⟨?_, ?_, Nat.lt_trans h.opened (Nat.lt_trans hlt (Nat.lt_succ_self _)), ?_,
    fun hn ↦ (by cases (List.append_eq_nil_iff.mp hn).2), ?_, ?_, ?_, ?_⟩
  all_goals rw [hfinal]
  · exact h.moves.tail happend
  · exact h.incidents
  · rw [← h.others]
    exact filter_append_own hi
  · intro row hr
    rcases List.mem_append.mp hr with hr | hr
    · obtain ⟨other, ho, hrow⟩ := h.rows row hr
      exact ⟨other, List.mem_append_left _ ho, hrow⟩
    · rw [List.mem_singleton.mp hr]
      exact ⟨published, List.mem_append_right _ (List.mem_singleton.mpr rfl), rfl, hi, rfl, rfl⟩
  · intro _ other ho hoi
    rcases hcases ho with ho | rfl
    · exact h.settled hne other ho hoi
    · rfl
  · intro other ho hoi hp
    rw [List.map_append]
    rcases hcases ho with ho | rfl
    · obtain ⟨hrow, hbatch⟩ := h.pending other ho hoi hp
      exact ⟨List.mem_append_left _ hrow, hbatch⟩
    · exact ⟨List.mem_append_right _ (List.mem_singleton.mpr rfl), rfl⟩
  · intro row hr
    rw [List.getLast?_concat, Option.some.injEq] at hr
    rw [← hr, Ledger.attemptsOf, List.filter_append, List.length_append, List.filter_singleton]
    have hown : (published.incidentId == run.incidentId) = true := beq_iff_eq.mpr hi
    rw [hown, cond_true, List.length_singleton]
    have hno : attempt.attemptNo = previous.attemptNo + 1 :=
      congrArg RecoveryPlan.attemptNo hattempt
    rw [hno, h.last previous hprevious]
    rfl

/-- Every pass of the loop keeps it. -/
theorem BatchOk.step (h : BatchOk l run batchId reserved batch) (hl : l.Sound)
    (hid : reserved.id = run.attemptId) (hi : reserved.incidentId = run.incidentId)
    (hf : reserved.inFlight = true) {services : Services} {fingerprint : RecoveryContext → Nat}
    {option : RecoveryContext × SolverResult} (hof : ContextOf l run.incidentId option.1)
    {batch' : Batch}
    (hp : persistOption services fingerprint batchId reserved batch option = .ok batch') :
    BatchOk l run batchId reserved batch' := by
  rcases persistOption_ok hp with
    rfl | ⟨created, candidate, added, attempt, metrics, hc, hn, rfl⟩
  · exact h
  · cases hprevious : batch.rows.getLast? with
    | none =>
      rw [nextRow, hprevious, Except.ok.injEq, Prod.mk.injEq] at hn
      obtain ⟨rfl, rfl⟩ := hn
      exact h.first hl hid hi hf hof (List.getLast?_eq_none_iff.mp hprevious) hc metrics _
    | some previous => exact h.further hl hof hprevious hc hn metrics _

/-! ### The limit -/

/-- How a row beyond the limit is retired. -/
theorem retired_filterRow (attempt : RecoveryPlan) : Retired attempt (filterRow attempt) where
  key := rfl
  candidate := rfl
  solverStatus := rfl
  status := .inr ⟨rfl, rfl⟩

/-- The ledger behind `filterRows`. -/
theorem ledgerOf_filterRows (db : Database) (ids : List UUID) :
    ledgerOf (filterRows db ids) = ((ledgerOf db).setPlans
      (candidatesOf db.recoveryPlans fun attempt ↦ ids.contains attempt.id)
        .cancelled).updateAttempts (fun attempt ↦ ids.contains attempt.id) filterRow := by
  have hmap := map_headerOf_updateWhere db.plans
    (candidatesOf db.recoveryPlans fun attempt ↦ ids.contains attempt.id) .cancelled
  rw [Ledger.updateAttempts, Ledger.setPlans]
  exact congrArg (fun plans ↦ Ledger.mk plans _ _ _) hmap

/-- The attempt with the id of a row is pending. -/
theorem BatchOk.row_eq (h : BatchOk l run batchId reserved batch) (hl : l.Sound)
    {attempt : RecoveryPlan} (ha : attempt ∈ (ledgerOf batch.db).attempts)
    (hid : attempt.id ∈ batch.rows.map (·.attemptId)) :
    attempt.incidentId = run.incidentId ∧ attempt.isPending = true := by
  obtain ⟨row, hr, hrid⟩ := List.mem_map.mp hid
  obtain ⟨other, ho, hof⟩ := h.rows row hr
  have he := Ledger.attempt_eq (h.moves.sound hl).numbered ha ho (hrid.symm.trans hof.id.symm)
  rw [he]
  exact ⟨hof.incidentId, hof.pending⟩

/-- The rows beyond the limit are rows. -/
theorem mem_rowsBeyond {maxCandidates : Nat} {rows : List BatchRow} {id : UUID}
    (h : id ∈ (rowsBeyond maxCandidates rows).map (·.attemptId)) :
    id ∈ rows.map (·.attemptId) := by
  obtain ⟨row, hr, rfl⟩ := List.mem_map.mp h
  exact List.mem_map_of_mem ((List.mem_insertionSort _).mp (List.mem_of_mem_drop hr))

/-- What a closed batch comes to in the ledger. -/
structure BatchClosed (l l' : Ledger) (run : Run) (batchId : UUID) (maxCandidates : Nat) :
    Prop where
  moves : Moves (some run.attemptId) l l'
  opened : batchId < l'.nextId
  others : l'.attempts.filter (·.incidentId != run.incidentId) =
    l.attempts.filter (·.incidentId != run.incidentId)
  settled : ∀ attempt ∈ l'.attempts, attempt.incidentId = run.incidentId →
    attempt.inFlight = false
  batch : ∀ attempt ∈ l'.attempts, attempt.incidentId = run.incidentId →
    attempt.isPending = true → attempt.options.map (·.batchId) = some batchId
  limit : l'.pendingCount run.incidentId ≤ maxCandidates

/-- The rows within the limit are what is pending after the rows beyond it are filtered. -/
theorem BatchOk.pendingCount_le (h : BatchOk l run batchId reserved batch) (hl : l.Sound)
    (maxCandidates : Nat) :
    (ledgerOf (filterRows batch.db
      ((rowsBeyond maxCandidates batch.rows).map (·.attemptId)))).pendingCount run.incidentId ≤
        maxCandidates := by
  let sorted := batch.rows.insertionSort fun a b ↦
    priorityKey a.metrics a.attemptNo ≤ priorityKey b.metrics b.attemptNo
  let ids := (rowsBeyond maxCandidates batch.rows).map (·.attemptId)
  let pending := ((ledgerOf (filterRows batch.db ids)).attempts.filter fun attempt ↦
    attempt.incidentId == run.incidentId && attempt.isPending).map (·.id)
  have hnodup : pending.Nodup := by
    have hids : (ledgerOf (filterRows batch.db ids)).attempts.map (·.id) =
        (ledgerOf batch.db).attempts.map (·.id) := map_updateWhere fun _ ↦ rfl
    have hall := (h.moves.sound hl).attemptIds
    rw [← hids] at hall
    exact (List.filter_sublist.map _).nodup hall
  have hsubset : pending ⊆ (sorted.take maxCandidates).map (·.attemptId) := by
    intro id hid
    obtain ⟨attempt, ha, rfl⟩ := List.mem_map.mp hid
    obtain ⟨ha, hp⟩ := List.mem_filter.mp ha
    rw [Bool.and_eq_true_iff, beq_iff_eq] at hp
    obtain ⟨old, hold, ⟨-, rfl⟩ | ⟨hc, rfl⟩⟩ := mem_updateWhere.mp ha
    · cases hp.2
    · obtain ⟨hrow, -⟩ := h.pending attempt hold hp.1 hp.2
      have hsplit : attempt.id ∈ (sorted.take maxCandidates ++ sorted.drop maxCandidates).map
          (·.attemptId) := by
        obtain ⟨row, hr, hrid⟩ := List.mem_map.mp hrow
        rw [List.take_append_drop]
        exact List.mem_map.mpr ⟨row, (List.mem_insertionSort _).mpr hr, hrid⟩
      rw [List.map_append, List.mem_append] at hsplit
      refine hsplit.resolve_right fun hbeyond ↦ ?_
      have hin : attempt.id ∈ ids := hbeyond
      rw [List.contains_iff_mem.mpr hin] at hc
      cases hc
  have hlength := (List.subperm_of_subset hnodup hsubset).length_le
  rw [List.length_map, List.length_map] at hlength
  rw [Ledger.pendingCount, List.countP_eq_length_filter]
  exact Nat.le_trans hlength (List.length_take_le _ _)

/-- A batch without rows is recorded as infeasible. -/
theorem closeBatch_nil (hrows : batch.rows = []) (maxCandidates : Nat) :
    closeBatch run maxCandidates batch = RecoveryWorkflow.record
      (batch.db.updateIncident run.incidentId fun row ↦ { row with status := .assessing })
        run.attemptId .infeasible none := by
  have hnone : batch.db.recoveryPlans.filter (fun attempt ↦ ([] : List UUID).contains attempt.id) =
      [] := List.filter_eq_nil_iff.mpr fun _ _ hc ↦ (by cases hc)
  have hfiltered : filterRows batch.db [] = batch.db := by
    have hattempts : updateWhere batch.db.recoveryPlans
        (fun attempt ↦ ([] : List UUID).contains attempt.id) filterRow = batch.db.recoveryPlans :=
      updateWhere_eq_self fun _ _ ↦ rfl
    rw [filterRows, hattempts, hnone, updateWhere_eq_self fun _ _ ↦ List.any_nil]
  rw [closeBatch, hrows, if_pos rfl, if_pos rfl]
  rw [show (rowsBeyond maxCandidates []).map (·.attemptId) = [] by simp [rowsBeyond], hfiltered]

/-- Any other batch leaves the rows within its limit for review. -/
theorem closeBatch_cons (hrows : batch.rows ≠ []) (maxCandidates : Nat) :
    closeBatch run maxCandidates batch = (filterRows batch.db
      ((rowsBeyond maxCandidates batch.rows).map (·.attemptId))).updateIncident run.incidentId
        fun row ↦ { row with status := .review } := by
  rw [closeBatch, if_neg hrows, if_neg hrows]

/-- Closing a batch filters its rows, or records that there are none. -/
theorem BatchOk.closed (h : BatchOk l run batchId reserved batch) (hl : l.Sound)
    (hid : reserved.id = run.attemptId) (hi : reserved.incidentId = run.incidentId)
    (hf : reserved.inFlight = true) (hopen : l.Open run.incidentId) (maxCandidates : Nat) :
    BatchClosed l (ledgerOf (closeBatch run maxCandidates batch)) run batchId maxCandidates := by
  have hb := h.moves.sound hl
  have hopen' : ∀ {l' : Ledger}, l'.incidents = (ledgerOf batch.db).incidents →
      l'.Open run.incidentId := by
    intro l' he incident hmem
    rw [he, h.incidents] at hmem
    exact hopen incident hmem
  by_cases hrows : batch.rows = []
  · have hmem := h.reserved hrows
    have hself : ∀ attempt ∈ (ledgerOf batch.db).attempts, attempt.id = run.attemptId →
        attempt = reserved :=
      fun attempt ha he ↦ Ledger.attempt_eq hb.numbered ha hmem (he.trans hid.symm)
    have hnone : ∀ attempt ∈ (ledgerOf batch.db).attempts, attempt.incidentId = run.incidentId →
        attempt.isPending = false := by
      intro attempt ha hai
      rw [Bool.eq_false_iff]
      intro hp
      have hrow := (h.pending attempt ha hai hp).1
      rw [hrows] at hrow
      cases hrow
    rw [closeBatch_nil hrows, RecoveryWorkflow.record, ledgerOf_updateRecoveryPlan,
      ledgerOf_updateIncident_status]
    refine ⟨?_, h.opened, ?_, ?_, ?_, ?_⟩
    · refine (h.moves.tail (.touch _ run.incidentId .assessing (by decide) (hopen' rfl))).tail
        (.record _ run.attemptId _ rfl ?_ (fun _ ↦ rfl) fun _ ↦ ⟨rfl, rfl, rfl, rfl⟩)
      intro attempt ha he
      rw [hself attempt ha he]
      exact hf
    · rw [← h.others]
      refine filter_updateAttempts (l := ledgerOf batch.db)
        (RecoveryWorkflow.recorded .infeasible none) (fun _ ↦ rfl) fun attempt ha he ↦ ?_
      rw [hself attempt ha he, hi]
    · intro attempt ha hai
      rw [Bool.eq_false_iff]
      intro hfa
      obtain ⟨old, hold, ⟨-, rfl⟩ | ⟨hc, rfl⟩⟩ := mem_updateWhere.mp ha
      · cases (inFlight_iff.mp hfa).2
      · have he := hb.reviewed.inFlight_unique hb.numbered hold hmem hfa hf (hi.trans hai.symm)
        rw [he, hid, beq_self_eq_true] at hc
        cases hc
    · intro attempt ha hai hp
      obtain ⟨old, hold, ⟨-, rfl⟩ | ⟨hc, rfl⟩⟩ := mem_updateWhere.mp ha
      · have hn : old.isPending = false := hnone old hold hai
        have hp' : old.isPending = true := hp
        rw [hn] at hp'
        cases hp'
      · rw [hnone attempt hold hai] at hp
        cases hp
    · refine Nat.le_trans (Nat.le_of_eq (List.countP_eq_zero.mpr ?_)) (Nat.zero_le _)
      intro attempt ha hp
      rw [Bool.and_eq_true_iff, beq_iff_eq] at hp
      obtain ⟨old, hold, ⟨-, rfl⟩ | ⟨hc, rfl⟩⟩ := mem_updateWhere.mp ha
      · exact Bool.false_ne_true ((hnone old hold hp.1).symm.trans hp.2)
      · exact Bool.false_ne_true ((hnone attempt hold hp.1).symm.trans hp.2)
  · have hlimit := h.pendingCount_le hl maxCandidates
    rw [ledgerOf_filterRows] at hlimit
    rw [closeBatch_cons hrows, ledgerOf_updateIncident_status, ledgerOf_filterRows]
    have hrow : ∀ attempt ∈ (ledgerOf batch.db).attempts, ((rowsBeyond maxCandidates
        batch.rows).map (·.attemptId)).contains attempt.id = true →
        attempt.incidentId = run.incidentId ∧ attempt.isPending = true :=
      fun attempt ha hc ↦ h.row_eq hl ha (mem_rowsBeyond (List.contains_iff_mem.mp hc))
    refine ⟨?_, h.opened, ?_, ?_, ?_, hlimit⟩
    · refine (h.moves.trans (moves_retire _ retired_filterRow ?_)).tail
        (.touch _ run.incidentId .review (by decide) (hopen' rfl))
      exact fun attempt ha hc ↦ (hrow attempt ha hc).2
    · rw [← h.others]
      refine filter_updateWhere_of_false fun attempt ha hc ↦ ?_
      have hai := (hrow attempt ha hc).1
      have hself : (attempt.incidentId != run.incidentId) = false := by
        rw [hai, bne_self_eq_false]
      exact ⟨hself, hself⟩
    · intro attempt ha hai
      obtain ⟨old, hold, ⟨hc, rfl⟩ | ⟨-, rfl⟩⟩ := mem_updateWhere.mp ha
      · have hshaped := ((hb.reviewed.shaped old hold).pending (hrow old hold hc).2).1
        rw [Bool.eq_false_iff]
        intro hfa
        have hn : old.solverStatus = none := (inFlight_iff.mp hfa).2
        rw [hn] at hshaped
        cases hshaped
      · exact h.settled hrows attempt hold hai
    · intro attempt ha hai hp
      obtain ⟨old, hold, ⟨-, rfl⟩ | ⟨-, rfl⟩⟩ := mem_updateWhere.mp ha
      · cases hp
      · exact (h.pending attempt hold hai hp).2

/-- The loop starts with no rows, and the reserved attempt is in flight. -/
theorem batchOk_start (hl : (ledgerOf db).Sound) {reserved : RecoveryPlan}
    (hmem : reserved ∈ db.recoveryPlans) (hof : AttemptOf run reserved)
    (hf : reserved.inFlight = true) : BatchOk (ledgerOf db) run db.nextId reserved
      { db := { db with nextId := db.nextId + 1 }, rows := [], signatures := [] } where
  moves := (Move.age _ (db.nextId + 1) (Nat.le_succ _)).moves
  incidents := rfl
  opened := Nat.lt_succ_self _
  others := rfl
  reserved := fun _ ↦ hmem
  rows := fun _ hrow ↦ (by cases hrow)
  settled := fun hn ↦ absurd rfl hn
  pending := fun attempt ha hai hp ↦ (by
    have hnot := hl.reviewed.not_pending_of_inFlight hmem ha hf (hai.trans hof.incidentId.symm)
    rw [hp] at hnot
    cases hnot)
  last := fun _ hrow ↦ (by cases hrow)

/-- The last transaction of the options workflow closes the batch of its loop. -/
theorem generate_batch (hl : (ledgerOf db).Sound) (h : Held (ledgerOf db) run)
    (hw : working run.point = true) {services : Services} {fingerprint : RecoveryContext → Nat}
    {maxCandidates : Nat} {contexts : List RecoveryContext}
    (hg : generate services fingerprint db run maxCandidates contexts = .ok db') :
    (ledgerOf db).Open run.incidentId ∧ ∃ reserved batch,
      ∃ solved : List (RecoveryContext × SolverResult), AttemptOf run reserved ∧
      reserved.inFlight = true ∧
      BatchOk (ledgerOf db) run db.nextId reserved batch ∧
      solved.foldlM (persistOption services fingerprint db.nextId reserved)
        { db := { db with nextId := db.nextId + 1 }, rows := [], signatures := [] } = .ok batch ∧
      db' = closeBatch run maxCandidates batch := by
  obtain ⟨solved, hs, hg⟩ := bind_eq_ok.mp hg
  obtain ⟨⟨initial, hinitial, -⟩, hfresh, reserved, batch, hr, hfold, rfl⟩ := finish_ok hg
  obtain ⟨hmem, hid⟩ := recoveryPlan?_mem hr
  obtain ⟨hof, hf⟩ := h.row hl hw hmem hid
  have hcontext : ∀ option ∈ solved, ContextOf (ledgerOf db) run.incidentId option.1 :=
    fun option ho ↦ contextOf_materialize hl (hfresh _ (solveContexts_mem hs ho))
  have hopen := (contextOf_materialize hl (hfresh initial hinitial)).incidentOpen
  have hbatch := foldlM_invariant (fun batch option ho batch' hb hp ↦
    BatchOk.step hb hl hid hof.incidentId hf (hcontext option ho) hp) (batchOk_start hl hmem hof hf)
      hfold
  exact ⟨hopen, reserved, batch, solved, hof, hf, hbatch, hfold, rfl⟩

/-- In the ledger it leaves a closed batch. -/
theorem generate_closed (hl : (ledgerOf db).Sound) (h : Held (ledgerOf db) run)
    (hw : working run.point = true) {services : Services} {fingerprint : RecoveryContext → Nat}
    {maxCandidates : Nat} {contexts : List RecoveryContext}
    (hg : generate services fingerprint db run maxCandidates contexts = .ok db') :
    BatchClosed (ledgerOf db) (ledgerOf db') run db.nextId maxCandidates := by
  obtain ⟨hopen, reserved, batch, -, hof, hf, hbatch, -, rfl⟩ := generate_batch hl h hw hg
  exact hbatch.closed hl hof.id hof.incidentId hf hopen maxCandidates

end

end PenroseRoute.Lifecycle
