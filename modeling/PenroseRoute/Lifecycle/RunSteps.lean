import PenroseRoute.Lifecycle.Transactions

/-!
# Steps of a run as moves

A step of a run is a series of moves of the attempt it works on. The batch of the options
workflow is one transaction over all alternatives: what its loop keeps is an invariant of its own.
-/

namespace PenroseRoute.Lifecycle

open PenroseRoute.Db PenroseRoute.Lib PenroseRoute.Recovery PenroseRoute.Optimization

variable {db db' : Database} {run : Run}

/-- A step of a run: moves of its attempt, after which the run still has its attempt, and
nothing happens to the attempts of other incidents. -/
structure Stepped (l l' : Ledger) (run next : Run) : Prop where
  moves : Moves (some run.attemptId) l l'
  held : Held l' next
  attempt : next.attemptId = run.attemptId ∨ l.nextId ≤ next.attemptId
  incident : next.incidentId = run.incidentId
  others : l'.attempts.filter (·.incidentId != run.incidentId) =
    l.attempts.filter (·.incidentId != run.incidentId)

/-- Nothing happens to the pending attempts of other incidents. -/
theorem Stepped.other_pending {l l' : Ledger} {next : Run} (h : Stepped l l' run next)
    {attempt : RecoveryPlan} (ha : attempt ∈ l'.attempts)
    (hne : attempt.incidentId ≠ run.incidentId) : attempt ∈ l.attempts ∧
      l'.pendingCount attempt.incidentId = l.pendingCount attempt.incidentId := by
  have hmem : attempt ∈ l'.attempts.filter (·.incidentId != run.incidentId) :=
    List.mem_filter.mpr ⟨ha, bne_iff_ne.mpr hne⟩
  rw [h.others] at hmem
  refine ⟨(List.mem_filter.mp hmem).1, ?_⟩
  have hcount : ∀ attempts : List RecoveryPlan,
      (attempts.filter (·.incidentId != run.incidentId)).countP (fun other ↦
        other.incidentId == attempt.incidentId && other.isPending) =
      attempts.countP fun other ↦ other.incidentId == attempt.incidentId && other.isPending := by
    intro attempts
    rw [List.countP_filter]
    refine List.countP_congr fun other _ ↦ ?_
    simp only [Bool.and_eq_true, beq_iff_eq, bne_iff_ne, and_iff_left_iff_imp]
    intro he
    rw [he.1]
    exact hne
  rw [Ledger.pendingCount, Ledger.pendingCount, ← hcount l'.attempts, ← hcount l.attempts, h.others]

/-- A run goes to another point. -/
theorem Stepped.point {l : Ledger} {point : RunPoint} (h : Held l { run with point := point }) :
    Stepped l l run { run with point := point } :=
  ⟨.refl l, h, .inl rfl, rfl, rfl⟩

/-- A run ends after moves of its attempt. -/
theorem Stepped.ended {l l' : Ledger} {point : RunPoint} (h : Held l run)
    (m : Moves (some run.attemptId) l l')
    (others : l'.attempts.filter (·.incidentId != run.incidentId) =
      l.attempts.filter (·.incidentId != run.incidentId))
    (hw : working point = false) (he : ∀ context, point ≠ .expanding context) :
    Stepped l l' run { run with point := point } :=
  ⟨m, .ended (Nat.lt_of_lt_of_le h.fresh m.nextId_le) hw he, .inl rfl, rfl, others⟩

/-- The attempt that a run works on is its only row, and in flight. -/
theorem Held.row {l : Ledger} (h : Held l run) (hl : l.Sound) (hw : working run.point = true)
    {attempt : RecoveryPlan} (ha : attempt ∈ l.attempts) (hid : attempt.id = run.attemptId) :
    AttemptOf run attempt ∧ attempt.inFlight = true := by
  obtain ⟨own, hown, hof, hf⟩ := h.inFlight hw
  have he := Ledger.attempt_eq hl.numbered ha hown (hid.trans hof.id.symm)
  rw [he]
  exact ⟨hof, hf⟩

/-- Rewriting the attempt of a run leaves those of other incidents alone. -/
theorem filter_updateAttempts {l : Ledger} (f : RecoveryPlan → RecoveryPlan) {id : UUID}
    (hf : ∀ attempt, (f attempt).incidentId = attempt.incidentId) {incidentId : UUID}
    (hown : ∀ attempt ∈ l.attempts, attempt.id = id → attempt.incidentId = incidentId) :
    (l.updateAttempts (·.id == id) f).attempts.filter (·.incidentId != incidentId) =
      l.attempts.filter (·.incidentId != incidentId) := by
  refine filter_updateWhere_of_false fun attempt ha he ↦ ?_
  rw [hf, hown attempt ha (eq_of_beq he), bne_self_eq_false]
  exact ⟨rfl, rfl⟩

/-- A further attempt of an incident leaves those of other incidents alone. -/
theorem filter_append_own {attempts : List RecoveryPlan} {attempt : RecoveryPlan}
    {incidentId : UUID} (hi : attempt.incidentId = incidentId) :
    (attempts ++ [attempt]).filter (·.incidentId != incidentId) =
      attempts.filter (·.incidentId != incidentId) := by
  rw [List.filter_append, List.filter_singleton, hi, bne_self_eq_false, cond_false,
    List.append_nil]

/-! ### Records -/

/-- What a run records on its attempt is a move. -/
theorem record_moves (hl : (ledgerOf db).Sound) (h : Held (ledgerOf db) run)
    (hw : working run.point = true) (solverStatus : SolverStatus)
    (validationStatus : Option ValidationStatus) :
    Moves (some run.attemptId) (ledgerOf db)
      (ledgerOf (RecoveryWorkflow.record db run.attemptId solverStatus validationStatus)) :=
  (Move.record _ run.attemptId (RecoveryWorkflow.recorded solverStatus validationStatus) rfl
    (fun _ ha hid ↦ (h.row hl hw ha hid).2) (fun _ ↦ rfl) fun _ ↦ ⟨rfl, rfl, rfl, rfl⟩).moves

/-- Recording a result leaves the attempts of other incidents. -/
theorem record_others (hl : (ledgerOf db).Sound) (h : Held (ledgerOf db) run)
    (hw : working run.point = true) (solverStatus : SolverStatus)
    (validationStatus : Option ValidationStatus) :
    (ledgerOf (RecoveryWorkflow.record db run.attemptId solverStatus
      validationStatus)).attempts.filter (·.incidentId != run.incidentId) =
      (ledgerOf db).attempts.filter (·.incidentId != run.incidentId) :=
  filter_updateAttempts (RecoveryWorkflow.recorded solverStatus validationStatus)
    (fun _ ↦ rfl) fun _ ha hid ↦ (h.row hl hw ha hid).1.incidentId

/-- A recorded attempt is not in flight. -/
theorem record_not_inFlight {id : UUID} {solverStatus : SolverStatus}
    {validationStatus : Option ValidationStatus} {attempt : RecoveryPlan}
    (ha : attempt ∈ (RecoveryWorkflow.record db id solverStatus validationStatus).recoveryPlans)
    (hid : attempt.id = id) : attempt.inFlight = false := by
  obtain ⟨old, -, ⟨-, rfl⟩ | ⟨hc, rfl⟩⟩ := mem_updateWhere.mp ha
  · rw [Bool.eq_false_iff]
    intro hf
    cases (inFlight_iff.mp hf).2
  · exact absurd hid (beq_eq_false_iff_ne.mp hc)

/-- A run that has recorded that its attempt is infeasible can expand it. -/
theorem record_held (hl : (ledgerOf db).Sound) (h : Held (ledgerOf db) run)
    (hw : working run.point = true) (solverStatus : SolverStatus)
    (validationStatus : Option ValidationStatus) (context : RecoveryContext) :
    Held (ledgerOf (RecoveryWorkflow.record db run.attemptId solverStatus validationStatus))
      { run with point := .expanding context } where
  fresh := h.fresh
  inFlight hw := by cases hw
  expanding _ _ := by
    obtain ⟨attempt, ha, ⟨hid, hi, hno⟩, hf⟩ := h.inFlight hw
    obtain ⟨hc, -⟩ := (hl.reviewed.shaped attempt ha).inFlight hf
    refine ⟨_, mem_updateWhere_of_true ha (beq_iff_eq.mpr hid), ⟨hid, hi, hno⟩, ?_, rfl, hc⟩
    exact (inFlight_iff.mp hf).1

/-! ### Wider scopes -/

/-- The numbers of an incident's attempts are all taken up to their count. -/
theorem exists_attemptNo {l : Ledger} (hl : l.Sound) (incidentId : UUID) {no : Nat} (h1 : 1 ≤ no)
    (hle : no ≤ (l.attemptsOf incidentId).length) :
    ∃ attempt ∈ l.attempts, attempt.incidentId = incidentId ∧ attempt.attemptNo = no := by
  have hnumbers := hl.numbered.numbers incidentId
  rw [Ledger.keys_attemptsOf, List.map_map, List.length_map] at hnumbers
  have hmem : no ∈ (l.attemptsOf incidentId).map ((fun k : AttemptKey ↦ k.attemptNo) ∘ keyOf) := by
    rw [hnumbers, List.mem_range'_1]
    omega
  obtain ⟨attempt, ha, hno⟩ := List.mem_map.mp hmem
  obtain ⟨ha, hi⟩ := List.mem_filter.mp ha
  exact ⟨attempt, ha, eq_of_beq hi, hno⟩

/-- An attempt whose next number is free is the last one of its incident. -/
theorem attemptNo_eq_of_free {l : Ledger} (hl : l.Sound) {attempt : RecoveryPlan}
    (ha : attempt ∈ l.attempts) (hfree : ∀ other ∈ l.attempts,
      other.incidentId = attempt.incidentId → other.attemptNo ≠ attempt.attemptNo + 1) :
    attempt.attemptNo = (l.attemptsOf attempt.incidentId).length := by
  have hle := Ledger.attemptNo_le hl.numbered ha
  by_contra hne
  have hlt : attempt.attemptNo + 1 ≤ (l.attemptsOf attempt.incidentId).length := by omega
  obtain ⟨other, ho, hi, hno⟩ :=
    exists_attemptNo hl attempt.incidentId (Nat.le_add_left 1 _) hlt
  exact hfree other ho hi hno

/-- Behind the last attempt of an incident that is a recorded draft, the incident is idle. -/
theorem idle_of_last {l : Ledger} (hl : l.Sound) {attempt : RecoveryPlan}
    (ha : attempt ∈ l.attempts)
    (hlast : attempt.attemptNo = (l.attemptsOf attempt.incidentId).length)
    (hsolver : attempt.solverStatus.isSome) (hnone : attempt.candidateDeliveryPlanId = none) :
    l.Idle attempt.incidentId := by
  intro other ho hi
  have hle := Ledger.attemptNo_le hl.numbered ho
  rw [hi, ← hlast] at hle
  constructor
  · rw [Bool.eq_false_iff]
    intro hf
    have hge := hl.reviewed.inFlightLast other ho attempt ha hf hi.symm
    have he := Ledger.attempt_eq_of_no hl.numbered ha ho hi (Nat.le_antisymm hge hle)
    rw [← he] at hf
    rw [(inFlight_iff.mp hf).2] at hsolver
    cases hsolver
  · rw [Bool.eq_false_iff]
    intro hp
    have hsome := hl.reviewed.pendingLast other ho attempt ha hp hi.symm hle
    rw [hnone] at hsome
    cases hsome

/-- The attempt at a wider scope is reserved behind the recorded one. -/
theorem expand_stepped (hl : (ledgerOf db).Sound) (h : Held (ledgerOf db) run)
    {context : RecoveryContext} (hp : run.point = .expanding context) {scope : ReplanningScope}
    {next : Run} (he : RecoveryWorkflow.expand db run context scope = .ok (db', next)) :
    Stepped (ledgerOf db) (ledgerOf db') run next := by
  obtain ⟨-, he⟩ := unit_bind_eq_ok.mp he
  obtain ⟨wider, hc, he⟩ := bind_eq_ok.mp he
  obtain ⟨reserved, hr, he⟩ := bind_eq_ok.mp he
  cases he
  obtain ⟨hfree, rfl⟩ := addRecoveryPlan_ok hr
  have hof := contextOf_materialize hl hc
  obtain ⟨attempt, ha, ⟨hid, hi, hno⟩, -, hsolver, hnone⟩ := h.expanding context hp
  have hi' : wider.incidentId = attempt.incidentId := hof.incidentId.trans hi.symm
  have hlast := attemptNo_eq_of_free hl ha fun other ho hoi hon ↦
    hfree other ho (hoi.trans hi'.symm) (hon.trans (congrArg (· + 1) hno))
  have hidle : (ledgerOf db).Idle wider.incidentId := by
    rw [hi']
    exact idle_of_last hl ha hlast hsolver hnone
  have hnext : (ledgerOf db).Next (RecoveryWorkflow.newAttempt wider db.nextId
      (run.attemptNo + 1) (some run.attemptId)) := by
    refine Ledger.next_later ha hi'.symm ?_ rfl ?_ hof.ownerOf
    · rw [← hno, hlast, ← hi']
      rfl
    · exact congrArg some hid.symm
  let next : Run := { run with
    attemptId := db.nextId
    attemptNo := run.attemptNo + 1
    point := .attempting wider }
  have hnextOf : AttemptOf next (RecoveryWorkflow.newAttempt wider db.nextId (run.attemptNo + 1)
    (some run.attemptId)) := ⟨rfl, hof.incidentId, rfl⟩
  have hheld := held_reserved (ledgerOf db) (fresh_newAttempt ..) rfl hnextOf
    fun _ hn ↦ (by cases hn)
  refine ⟨(Move.reserve _ _ rfl (fresh_newAttempt ..) hnext hidle).moves, hheld,
    .inr (Nat.le_refl _), rfl, ?_⟩
  exact filter_append_own hof.incidentId

/-! ### Candidates -/

/-- A published attempt owns its candidate. -/
theorem filled_publish {attempt : RecoveryPlan} (plan : PlanHeader)
    (options : Option OptionSummary) (hd : attempt.dispatcherDecision = none)
    (hp : plan.parentPlanId = some attempt.baseDeliveryPlanId) (hs : plan.status = .candidate) :
    Filled (RecoveryWorkflow.publish plan.id options attempt) plan :=
  ⟨rfl, rfl, rfl, hd, hp, .inl ⟨rfl, hs⟩⟩

/-- The base plan of an attempt is that of a context of its incident. -/
theorem ContextOf.base_eq {l : Ledger} (hl : l.Sound) {attempt : RecoveryPlan}
    (ha : attempt ∈ l.attempts) {context : RecoveryContext}
    (hof : ContextOf l attempt.incidentId context) :
    context.basePlanId = attempt.baseDeliveryPlanId := by
  obtain ⟨incident, hi, hid, hplan⟩ := hof.owner
  rw [← hplan]
  exact hl.base_eq ha hi hid

/-- The ledger after a created candidate has been given to an attempt. -/
theorem fill_moves (hl : (ledgerOf db).Sound) {attempt : RecoveryPlan}
    (ha : attempt ∈ (ledgerOf db).attempts) (hf : attempt.inFlight = true)
    {context : RecoveryContext} (hof : ContextOf (ledgerOf db) attempt.incidentId context)
    {result : SolverResult} {roads : RoadRoutes} {created : Database} {candidate : DeliveryPlan}
    (hc : createCandidate db context result roads = .ok (created, candidate))
    (options : Option OptionSummary) (rescope : RecoveryPlan → RecoveryPlan)
    (hkey : ∀ row, keyOf (rescope row) = keyOf row)
    (hd : ∀ row, (rescope row).dispatcherDecision = row.dispatcherDecision) :
    Moves (some attempt.id) (ledgerOf db) (ledgerOf (created.updateRecoveryPlan attempt.id
      fun row ↦ RecoveryWorkflow.publish candidate.id options (rescope row))) := by
  obtain ⟨hledger, hheader, hlt⟩ := ledgerOf_createCandidate hc
  have hself : ∀ row ∈ (ledgerOf db).attempts, row.id = attempt.id → row = attempt :=
    fun row hr hid ↦ Ledger.attempt_eq hl.numbered hr ha hid
  have hfill : Move (some attempt.id) _ _ := .fill (ledgerOf db) attempt.id
    (fun row ↦ RecoveryWorkflow.publish candidate.id options (rescope row)) (headerOf candidate)
    created.nextId rfl (by rw [hheader]; exact ⟨Nat.le_refl _, hlt⟩) ⟨attempt, ha, rfl⟩
    (fun row hr hid ↦ by rw [hself row hr hid]; exact hf) hkey
    (fun row hr hid ↦ by rw [hself row hr hid]; exact hof.incidentOpen) ?_
  · rw [ledgerOf_updateRecoveryPlan, hledger]
    exact hfill.moves
  · intro row hr hid
    refine filled_publish (headerOf candidate) options ?_ ?_ ?_
    · rw [hd, hself row hr hid]
      exact ((hl.reviewed.shaped attempt ha).inFlight hf).2
    · have hbase : (rescope row).baseDeliveryPlanId = row.baseDeliveryPlanId :=
        congrArg AttemptKey.baseDeliveryPlanId (hkey row)
      rw [hbase, hself row hr hid, ← hof.base_eq hl ha, hheader]
    · rw [hheader]

/-- The last transaction of a single attempt. -/
theorem finish_moves (hl : (ledgerOf db).Sound) (h : Held (ledgerOf db) run)
    (hw : working run.point = true) {services : WorkflowServices} {context : RecoveryContext}
    {result : SolverResult} {roads : RoadRoutes}
    (hfin : RecoveryWorkflow.finish services db run context result roads = .ok db') :
    Moves (some run.attemptId) (ledgerOf db) (ledgerOf db') ∧
      (ledgerOf db').attempts.filter (·.incidentId != run.incidentId) =
        (ledgerOf db).attempts.filter (·.incidentId != run.incidentId) ∧
      ∃ attempt ∈ (ledgerOf db').attempts, AttemptOf run attempt ∧ attempt.isPending = true ∧
        attempt.options = none := by
  obtain ⟨-, hfin⟩ := unit_bind_eq_ok.mp hfin
  obtain ⟨currentContext, hm, hfin⟩ := bind_eq_ok.mp hfin
  obtain ⟨hsame, hfin⟩ := unit_bind_eq_ok.mp hfin
  obtain ⟨locked, hlock, hfin⟩ := bind_eq_ok.mp hfin
  obtain ⟨⟨created, candidate⟩, hc, hfin⟩ := bind_eq_ok.mp hfin
  obtain ⟨-, hfin⟩ := unit_bind_eq_ok.mp hfin
  obtain ⟨incident, hi, hfin⟩ := bind_eq_ok.mp hfin
  cases hfin
  rw [orRaise_eq_ok] at hlock hi
  rw [raiseFirst_cons_eq_ok, bne_eq_false_iff_eq] at hsame
  rw [hsame.1] at hm
  obtain ⟨hlmem, hlid⟩ := recoveryPlan?_mem hlock
  obtain ⟨hof, hflight⟩ := h.row hl hw hlmem hlid
  obtain ⟨himem, hiid⟩ := incident?_mem hi
  have hcontext := contextOf_materialize hl hm
  rw [← hof.incidentId] at hcontext
  have hincidents : (ledgerOf created).incidents = (ledgerOf db).incidents := by
    rw [(ledgerOf_createCandidate hc).1]
  have hattempts : (ledgerOf created).attempts = (ledgerOf db).attempts := by
    rw [(ledgerOf_createCandidate hc).1]
  have hmoves := fill_moves hl hlmem hflight hcontext hc none id (fun _ ↦ rfl) fun _ ↦ rfl
  have hown : ∀ row ∈ (ledgerOf created).attempts, row.id = locked.id →
      row.incidentId = run.incidentId := by
    intro row hr hid
    rw [hattempts] at hr
    rw [Ledger.attempt_eq hl.numbered hr hlmem hid, hof.incidentId]
  rw [ledgerOf_updateIncident_status]
  rw [hlid] at hmoves hown ⊢
  refine ⟨?_, ?_, ?_⟩
  · refine hmoves.tail (.touch _ incident.id .review (by decide) ?_)
    have hopen := hcontext.incidentOpen
    rw [hof.incidentId] at hopen
    rw [hiid]
    intro row hr
    rw [ledgerOf_updateRecoveryPlan, Ledger.updateAttempts, hincidents] at hr
    exact hopen row hr
  · rw [← hattempts]
    exact filter_updateAttempts (RecoveryWorkflow.publish candidate.id none) (fun _ ↦ rfl) hown
  · have hlmem' : locked ∈ (ledgerOf created).attempts := by rwa [hattempts]
    exact ⟨_, mem_updateWhere_of_true hlmem' (beq_iff_eq.mpr hlid),
      ⟨hof.id, hof.incidentId, hof.attemptNo⟩, rfl, rfl⟩

/-- The handler of the options workflow records the failure. -/
theorem recordFailure_eq (hl : (ledgerOf db).Sound) (h : Held (ledgerOf db) run)
    (hw : working run.point = true) :
    ledgerOf (RecoveryOptionsWorkflow.recordFailure db run.attemptId) =
      (ledgerOf db).updateAttempts (·.id == run.attemptId) RecoveryOptionsWorkflow.failed := by
  refine congrArg (fun attempts ↦ Ledger.mk _ _ attempts _) (updateWhere_congr ?_)
  intro attempt ha
  split
  · next he =>
    have hf := (h.row hl hw ha (eq_of_beq he)).2
    rw [((hl.reviewed.shaped attempt ha).inFlight hf).1]
    rfl
  · rfl

/-- Recording a failure is a move of the run's attempt. -/
theorem recordFailure_moves (hl : (ledgerOf db).Sound) (h : Held (ledgerOf db) run)
    (hw : working run.point = true) : Moves (some run.attemptId) (ledgerOf db)
      (ledgerOf (RecoveryOptionsWorkflow.recordFailure db run.attemptId)) := by
  rw [recordFailure_eq hl h hw]
  exact (Move.record _ run.attemptId RecoveryOptionsWorkflow.failed rfl
    (fun _ ha hid ↦ (h.row hl hw ha hid).2) (fun _ ↦ rfl) fun _ ↦ ⟨rfl, rfl, rfl, rfl⟩).moves

/-- Recording a failure leaves the attempts of other incidents. -/
theorem recordFailure_others (hl : (ledgerOf db).Sound) (h : Held (ledgerOf db) run)
    (hw : working run.point = true) :
    (ledgerOf (RecoveryOptionsWorkflow.recordFailure db run.attemptId)).attempts.filter
        (·.incidentId != run.incidentId) =
      (ledgerOf db).attempts.filter (·.incidentId != run.incidentId) := by
  rw [recordFailure_eq hl h hw]
  exact filter_updateAttempts RecoveryOptionsWorkflow.failed (fun _ ↦ rfl)
    fun _ ha hid ↦ (h.row hl hw ha hid).1.incidentId

/-- An attempt whose failure is recorded is not in flight. -/
theorem recordFailure_not_inFlight (hl : (ledgerOf db).Sound) (h : Held (ledgerOf db) run)
    (hw : working run.point = true) {attempt : RecoveryPlan}
    (ha : attempt ∈ (ledgerOf (RecoveryOptionsWorkflow.recordFailure db
      run.attemptId)).attempts) (hid : attempt.id = run.attemptId) : attempt.inFlight = false := by
  rw [recordFailure_eq hl h hw] at ha
  obtain ⟨old, -, ⟨-, rfl⟩ | ⟨hc, rfl⟩⟩ := mem_updateWhere.mp ha
  · rw [Bool.eq_false_iff]
    intro hf
    cases (inFlight_iff.mp hf).2
  · exact absurd hid (beq_eq_false_iff_ne.mp hc)

end PenroseRoute.Lifecycle
