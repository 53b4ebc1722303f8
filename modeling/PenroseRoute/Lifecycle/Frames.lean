import PenroseRoute.Lifecycle.Batches

/-!
# What planning leaves alone

Runs and decisions write attempts, statuses and new plans; no stop, order or vehicle changes, and
no plan or incident changes but for its status.
-/

namespace PenroseRoute.Db

/-- A plan apart from its status. -/
def DeliveryPlan.bare (plan : DeliveryPlan) : DeliveryPlan := { plan with status := .draft }

/-- An incident apart from its status. -/
def Incident.bare (incident : Incident) : Incident := { incident with status := .detected }

end PenroseRoute.Db

namespace PenroseRoute.Lifecycle

open PenroseRoute.Db PenroseRoute.Lib PenroseRoute.Recovery PenroseRoute.Optimization

/-- A transaction that plans: beside attempts and statuses it only adds plans. -/
structure Plans (db db' : Database) (added : List DeliveryPlan) : Prop where
  orders : db'.orders = db.orders
  vehicles : db'.vehicles = db.vehicles
  drivers : db'.drivers = db.drivers
  assignments : db'.assignments = db.assignments
  incidents : db'.incidents.map (·.bare) = db.incidents.map (·.bare)
  plans : db'.plans.map (·.bare) = (db.plans ++ added).map (·.bare)

variable {db db' : Database}

namespace Plans

/-- Without a transaction there are no new plans. -/
theorem refl (db : Database) : Plans db db [] :=
  ⟨rfl, rfl, rfl, rfl, rfl, by rw [List.append_nil]⟩

/-- Transactions in a row add their plans in a row. -/
theorem trans {db'' : Database} {added added' : List DeliveryPlan} (h : Plans db db' added)
    (h' : Plans db' db'' added') : Plans db db'' (added ++ added') where
  orders := h'.orders.trans h.orders
  vehicles := h'.vehicles.trans h.vehicles
  drivers := h'.drivers.trans h.drivers
  assignments := h'.assignments.trans h.assignments
  incidents := h'.incidents.trans h.incidents
  plans := by rw [h'.plans, List.map_append, h.plans, ← List.map_append, List.append_assoc]

/-- Without new plans their number is the same. -/
theorem length_eq (h : Plans db db' []) : db'.plans.length = db.plans.length := by
  have hlength := congrArg List.length h.plans
  rwa [List.append_nil, List.length_map, List.length_map] at hlength

/-- A status of a plan. -/
theorem updatePlan (db : Database) (id : UUID) (status : DeliveryPlanStatus) :
    Plans db (db.updatePlan id fun plan ↦ { plan with status := status }) [] :=
  { refl db with
    plans := by
      rw [List.append_nil]
      exact map_updateWhere fun _ ↦ rfl }

/-- A status of an incident. -/
theorem updateIncident (db : Database) (id : UUID) (status : IncidentStatus) :
    Plans db (db.updateIncident id fun incident ↦ { incident with status := status }) [] :=
  { refl db with incidents := map_updateWhere fun _ ↦ rfl }

/-- Attempts are not planned data. -/
theorem updateRecoveryPlan (db : Database) (id : UUID) (f : RecoveryPlan → RecoveryPlan) :
    Plans db (db.updateRecoveryPlan id f) [] :=
  { refl db with orders := rfl }

/-- Closing attempts leaves the plans. -/
theorem closeAttempts (db : Database) (closing : RecoveryPlan → Bool) :
    Plans db (RecoveryOptionsWorkflow.closeAttempts db closing) [] :=
  { refl db with
    plans := by
      rw [List.append_nil]
      exact map_updateWhere fun _ ↦ rfl }

/-- Filtering rows leaves the plans. -/
theorem filterRows (db : Database) (ids : List UUID) :
    Plans db (RecoveryOptionsWorkflow.filterRows db ids) [] :=
  { refl db with
    plans := by
      rw [List.append_nil]
      exact map_updateWhere fun _ ↦ rfl }

/-- Adding an attempt leaves the plans. -/
theorem addRecoveryPlan {attempt : RecoveryPlan}
    (h : RecoveryWorkflow.addRecoveryPlan db attempt = .ok db') : Plans db db' [] := by
  obtain ⟨-, rfl⟩ := addRecoveryPlan_ok h
  exact { refl db with orders := rfl }

/-- A candidate is one new plan. -/
theorem createCandidate {context : RecoveryContext} {result : SolverResult} {roads : RoadRoutes}
    {plan : DeliveryPlan} (h : createCandidate db context result roads = .ok (db', plan)) :
    Plans db db' [plan] := by
  obtain ⟨-, rfl⟩ := createCandidate_ok h
  exact { refl db with plans := rfl }

end Plans

/-! ### Transactions -/

/-- Starting a recovery leaves the plans. -/
theorem start_plans {incidentId : UUID} {now : Instant} {run : Run}
    (hs : RecoveryWorkflow.start db incidentId now = .ok (db', run)) : Plans db db' [] := by
  obtain ⟨incident, -, hs⟩ := bind_eq_ok.mp hs
  obtain ⟨-, hs⟩ := unit_bind_eq_ok.mp hs
  obtain ⟨context, -, hs⟩ := bind_eq_ok.mp hs
  obtain ⟨reserved, hr, hs⟩ := bind_eq_ok.mp hs
  cases hs
  exact .addRecoveryPlan hr

/-- Starting options leaves the plans. -/
theorem startOptions_plans {incidentId : UUID} {maxCandidates : CandidateLimit}
    {regenerate : Bool} {now : Instant} {run : Run}
    (hs : RecoveryOptionsWorkflow.start db incidentId maxCandidates regenerate now =
      .ok (db', run)) : Plans db db' [] := by
  obtain ⟨incident, -, hs⟩ := bind_eq_ok.mp hs
  obtain ⟨-, hs⟩ := unit_bind_eq_ok.mp hs
  obtain ⟨context, -, hs⟩ := bind_eq_ok.mp hs
  obtain ⟨reserved, hr, hs⟩ := bind_eq_ok.mp hs
  cases hs
  exact ((Plans.closeAttempts db _).trans (.addRecoveryPlan hr)).trans (.updateIncident _ _ _)

/-- An approval adds no plan. -/
theorem applyApproval_plans (db : Database) (reviewable : Decisions.Reviewable) :
    Plans db (Decisions.applyApproval db reviewable) [] := by
  have happroved : Plans db ((((db.updatePlan reviewable.base.id fun plan ↦
      { plan with status := .superseded }).updatePlan reviewable.candidate.id fun plan ↦
        { plan with status := .current }).updateIncident reviewable.incident.id fun incident ↦
          { incident with status := .resolved }).updateRecoveryPlan reviewable.recovery.id
            (Decisions.setDecision .approve)) [] :=
    (((Plans.updatePlan db _ _).trans (.updatePlan _ _ _)).trans (.updateIncident _ _ _)).trans
      (.updateRecoveryPlan _ _ _)
  rw [Decisions.applyApproval]
  split
  · exact happroved.trans (.closeAttempts _ _)
  · exact happroved

/-- A decision adds no plan. -/
theorem decide_plans {services : Services} {fingerprint : RecoveryContext → Nat}
    {recoveryId : UUID} {decision : DispatcherDecision} {reason : String} {now : Instant}
    (hd : Decisions.decide services fingerprint db recoveryId decision reason now = .ok db') :
    Plans db db' [] := by
  obtain ⟨reviewable, -, ⟨-, -, -, -, rfl⟩ | ⟨-, rfl⟩⟩ := Decisions.decide_ok hd
  · exact applyApproval_plans db reviewable
  · exact ((Plans.updatePlan db _ _).trans (.updateIncident _ _ _)).trans
      (.updateRecoveryPlan _ _ _)

/-- A modification adds no plan. -/
theorem modify_plans {fingerprint : RecoveryContext → Nat} {recoveryId : UUID} {reason : String}
    {run : Run} (hm : Decisions.modify fingerprint db recoveryId reason = .ok (db', run)) :
    Plans db db' [] := by
  obtain ⟨reviewable, scope, last, -, -, -, -, hadd, -⟩ := Decisions.modify_ok hm
  have hcancelled : Plans db ((db.updatePlan reviewable.candidate.id fun plan ↦
      { plan with status := .cancelled }).updateRecoveryPlan reviewable.recovery.id
        (Decisions.setDecision .modify)) [] :=
    (Plans.updatePlan db _ _).trans (.updateRecoveryPlan _ _ _)
  have hmodified : Plans db (Decisions.applyModification db reviewable) [] := by
    rw [Decisions.applyModification]
    split
    · exact (hcancelled.trans (.closeAttempts _ _)).trans (.updateIncident _ _ _)
    · exact hcancelled.trans (.updateIncident _ _ _)
  exact hmodified.trans (.addRecoveryPlan hadd)

/-! ### Steps of a run -/

/-- How a run has made a candidate: from a context that its last transaction has read again. -/
structure Made (db : Database) (incidentId : UUID) (context : RecoveryContext)
    (result : SolverResult) (candidate : DeliveryPlan) : Prop where
  read : materializeRecoveryContext db incidentId context.scope context.currentTime = .ok context
  created : ∃ db₀ : Database, Created db₀ context result candidate ∧ db.nextId ≤ db₀.nextId ∧
    db₀.orders = db.orders ∧ db₀.incidents = db.incidents

/-- What the `options` of a published attempt remember of the context of its candidate. -/
def Remembers (fingerprint : RecoveryContext → Nat) (attempt : RecoveryPlan)
    (context : RecoveryContext) : Prop :=
  ∀ summary, attempt.options = some summary → summary.contextFingerprint = fingerprint context ∧
    summary.operationalTime = context.currentTime ∧ attempt.replanningScope = context.scope

/-- An attempt that a run has published with a candidate it has made. -/
structure Published (fingerprint : RecoveryContext → Nat) (db : Database) (run : Run)
    (attempt : RecoveryPlan) (candidate : DeliveryPlan) : Prop where
  candidateId : attempt.candidateDeliveryPlanId = some candidate.id
  made : ∃ context result, Made db run.incidentId context result candidate ∧
    Remembers fingerprint attempt context

/-- What a step of a run does to plans and attempts. -/
structure RunPlans (fingerprint : RecoveryContext → Nat) (db db' : Database) (run : Run)
    (added : List DeliveryPlan) : Prop where
  plans : Plans db db' added
  made : ∀ candidate ∈ added, ∃ context result, Made db run.incidentId context result candidate
  pending : ∀ attempt ∈ db'.recoveryPlans, attempt.isPending = true →
    attempt ∈ db.recoveryPlans ∨ ∃ candidate ∈ added, Published fingerprint db run attempt candidate

variable {run : Run} {fingerprint : RecoveryContext → Nat}

/-- A step that publishes nothing. -/
theorem RunPlans.quiet (plans : Plans db db' []) (pending : ∀ attempt ∈ db'.recoveryPlans,
    attempt.isPending = true → attempt ∈ db.recoveryPlans) :
    RunPlans fingerprint db db' run [] :=
  ⟨plans, fun _ hc ↦ (by cases hc), fun attempt ha hp ↦ .inl (pending attempt ha hp)⟩

/-- An attempt in flight that is rewritten within its status is not pending. -/
theorem record_plans (hf : ∀ attempt ∈ db.recoveryPlans, attempt.id = run.attemptId →
    attempt.inFlight = true) (solverStatus : SolverStatus)
    (validationStatus : Option ValidationStatus) : RunPlans fingerprint db
      (RecoveryWorkflow.record db run.attemptId solverStatus validationStatus) run [] := by
  refine .quiet (.updateRecoveryPlan _ _ _) fun attempt ha hp ↦ ?_
  obtain ⟨old, hold, ⟨hc, rfl⟩ | ⟨-, rfl⟩⟩ := mem_updateWhere.mp ha
  · have hs := (inFlight_iff.mp (hf old hold (eq_of_beq hc))).1
    have hps : old.status = .pendingReview := isPending_iff.mp hp
    rw [hs] at hps
    cases hps
  · exact hold

/-- The last transaction of a single attempt publishes its candidate. -/
theorem finish_plans {services : WorkflowServices} {context : RecoveryContext}
    {result : SolverResult} {roads : RoadRoutes}
    (hfin : RecoveryWorkflow.finish services db run context result roads = .ok db') :
    ∃ added, RunPlans fingerprint db db' run added := by
  obtain ⟨-, hfin⟩ := unit_bind_eq_ok.mp hfin
  obtain ⟨currentContext, hm, hfin⟩ := bind_eq_ok.mp hfin
  obtain ⟨hsame, hfin⟩ := unit_bind_eq_ok.mp hfin
  obtain ⟨locked, -, hfin⟩ := bind_eq_ok.mp hfin
  obtain ⟨⟨created, candidate⟩, hc, hfin⟩ := bind_eq_ok.mp hfin
  obtain ⟨-, hfin⟩ := unit_bind_eq_ok.mp hfin
  obtain ⟨incident, -, hfin⟩ := bind_eq_ok.mp hfin
  cases hfin
  rw [raiseFirst_cons_eq_ok, bne_eq_false_iff_eq] at hsame
  rw [hsame.1] at hm
  have hmade : Made db run.incidentId context result candidate :=
    ⟨hm, db, (createCandidate_ok hc).1, Nat.le_refl _, rfl, rfl⟩
  have hattempts : created.recoveryPlans = db.recoveryPlans := by
    rw [(createCandidate_ok hc).2]
  refine ⟨[candidate], ?_, ?_, ?_⟩
  · exact ((Plans.createCandidate hc).trans (.updateRecoveryPlan _ _ _)).trans
      (.updateIncident _ _ _)
  · intro other ho
    rw [List.mem_singleton.mp ho]
    exact ⟨context, result, hmade⟩
  · intro attempt ha _
    obtain ⟨old, hold, ⟨-, rfl⟩ | ⟨-, rfl⟩⟩ := mem_updateWhere.mp ha
    · refine .inr ⟨candidate, List.mem_singleton.mpr rfl, rfl, context, result, hmade, ?_⟩
      intro summary hs
      cases hs
    · rw [hattempts] at hold
      exact .inl hold

/-- The attempt that a wider scope is reserved with is not pending. -/
theorem expand_plans {context : RecoveryContext} {scope : ReplanningScope} {next : Run}
    (he : RecoveryWorkflow.expand db run context scope = .ok (db', next)) :
    RunPlans fingerprint db db' run [] := by
  obtain ⟨-, he⟩ := unit_bind_eq_ok.mp he
  obtain ⟨wider, -, he⟩ := bind_eq_ok.mp he
  obtain ⟨reserved, hr, he⟩ := bind_eq_ok.mp he
  cases he
  refine .quiet (.addRecoveryPlan hr) ?_
  obtain ⟨-, rfl⟩ := addRecoveryPlan_ok hr
  intro attempt ha hp
  rcases List.mem_append.mp ha with ha | ha
  · exact ha
  · rw [List.mem_singleton.mp ha] at hp
    cases hp

/-! ### Batches -/

/-- What the loop over the alternatives does to plans and attempts. -/
structure BatchPlans (fingerprint : RecoveryContext → Nat) (db : Database) (run : Run)
    (batch : RecoveryOptionsWorkflow.Batch) (added : List DeliveryPlan) : Prop where
  plans : Plans db batch.db added
  incidents : batch.db.incidents = db.incidents
  nextId : db.nextId ≤ batch.db.nextId
  made : ∀ candidate ∈ added, ∃ context result, Made db run.incidentId context result candidate
  published : ∀ attempt ∈ batch.db.recoveryPlans,
    attempt ∈ db.recoveryPlans ∨ ∃ candidate ∈ added, Published fingerprint db run attempt candidate
  untouched : batch.rows = [] → batch.db.recoveryPlans = db.recoveryPlans

/-- The attempt of the next row changes no plan. -/
theorem nextRow_plans {created added : Database} {reserved attempt : RecoveryPlan}
    {rows : List RecoveryOptionsWorkflow.BatchRow} {context : RecoveryContext}
    (h : RecoveryOptionsWorkflow.nextRow created reserved rows context = .ok (added, attempt)) :
    Plans created added [] ∧ added.incidents = created.incidents ∧
      created.nextId ≤ added.nextId ∧ ∀ other ∈ added.recoveryPlans,
        other ∈ created.recoveryPlans ∨ other.id = attempt.id := by
  cases hprevious : rows.getLast? with
  | none =>
    rw [RecoveryOptionsWorkflow.nextRow, hprevious] at h
    cases h
    exact ⟨.refl _, rfl, Nat.le_refl _, fun other ho ↦ .inl ho⟩
  | some previous =>
    obtain ⟨-, rfl⟩ := nextRow_ok hprevious h
    refine ⟨{ Plans.refl created with orders := rfl }, rfl, Nat.le_succ _, fun other ho ↦ ?_⟩
    rcases List.mem_append.mp ho with ho | ho
    · exact .inl ho
    · exact .inr (congrArg _ (List.mem_singleton.mp ho))

/-- The facts of a context in its option summary. -/
theorem remembers_publishOption (batchId candidateId : UUID) (context : RecoveryContext)
    (attempt : RecoveryPlan) : Remembers fingerprint (RecoveryOptionsWorkflow.publishOption
      fingerprint batchId context candidateId attempt) context := by
  intro summary hs
  cases hs
  exact ⟨rfl, rfl, rfl⟩

/-- Every pass of the loop makes at most one candidate and publishes it. -/
theorem BatchPlans.step {services : Services} {batchId : UUID} {reserved : RecoveryPlan}
    {batch batch' : RecoveryOptionsWorkflow.Batch} {added : List DeliveryPlan}
    (h : BatchPlans fingerprint db run batch added) {option : RecoveryContext × SolverResult}
    (hread : materializeRecoveryContext db run.incidentId option.1.scope option.1.currentTime =
      .ok option.1)
    (hp : RecoveryOptionsWorkflow.persistOption services fingerprint batchId reserved batch
      option = .ok batch') : ∃ more, BatchPlans fingerprint db run batch' (added ++ more) := by
  rcases RecoveryOptionsWorkflow.persistOption_ok hp with
    rfl | ⟨created, candidate, extended, attempt, metrics, hc, hn, rfl⟩
  · exact ⟨[], by rwa [List.append_nil]⟩
  obtain ⟨hplans, hincidents, hnext, hrows⟩ := nextRow_plans hn
  obtain ⟨hcreated, hdb⟩ := createCandidate_ok hc
  have hmade : Made db run.incidentId option.1 option.2 candidate :=
    ⟨hread, batch.db, hcreated, h.nextId, h.plans.orders, h.incidents⟩
  have hmem : candidate ∈ added ++ [candidate] :=
    List.mem_append_right _ (List.mem_singleton.mpr rfl)
  refine ⟨[candidate], ?_, ?_, ?_, ?_, ?_, ?_⟩
  · have hall := h.plans.trans (((Plans.createCandidate hc).trans hplans).trans
      (.updateRecoveryPlan _ attempt.id (RecoveryOptionsWorkflow.publishOption fingerprint batchId
        option.1 candidate.id)))
    exact hall
  · have hsame : created.incidents = batch.db.incidents := by rw [hdb]
    exact hincidents.trans (hsame.trans h.incidents)
  · have hle : batch.db.nextId ≤ created.nextId := by
      rw [hdb]
      exact Nat.le_trans (Nat.le_succ _) (Nat.le_add_right _ _)
    exact Nat.le_trans h.nextId (Nat.le_trans hle hnext)
  · intro other ho
    rcases List.mem_append.mp ho with ho | ho
    · exact h.made other ho
    · rw [List.mem_singleton.mp ho]
      exact ⟨_, _, hmade⟩
  · intro other ho
    obtain ⟨old, hold, ⟨-, rfl⟩ | ⟨hne, rfl⟩⟩ := mem_updateWhere.mp ho
    · exact .inr ⟨candidate, hmem, rfl, _, _, hmade, remembers_publishOption _ _ _ _⟩
    · have hsame : created.recoveryPlans = batch.db.recoveryPlans := by rw [hdb]
      rcases hrows other hold with hold | he
      · rw [hsame] at hold
        refine (h.published other hold).imp_right fun ⟨c, hcm, hpub⟩ ↦ ?_
        exact ⟨c, List.mem_append_left _ hcm, hpub⟩
      · exact absurd he (beq_eq_false_iff_ne.mp hne)
  · exact fun hnil ↦ absurd hnil (by simp)

/-- The last transaction of the options workflow publishes its candidates. -/
theorem generate_plans (hf : ∀ attempt ∈ db.recoveryPlans, attempt.id = run.attemptId →
    attempt.inFlight = true) {services : Services} {maxCandidates : Nat}
    {contexts : List RecoveryContext}
    (hg : RecoveryOptionsWorkflow.generate services fingerprint db run maxCandidates contexts =
      .ok db') : ∃ added, RunPlans fingerprint db db' run added := by
  obtain ⟨solved, hs, hg⟩ := bind_eq_ok.mp hg
  obtain ⟨-, hfresh, reserved, batch, -, hfold, rfl⟩ := RecoveryOptionsWorkflow.finish_ok hg
  have hstart : ∃ added, BatchPlans fingerprint db run
      { db := { db with nextId := db.nextId + 1 }, rows := [], signatures := [] } added :=
    ⟨[], { Plans.refl db with orders := rfl }, rfl, Nat.le_succ _, fun _ hc ↦ (by cases hc),
      fun attempt ha ↦ .inl ha, fun _ ↦ rfl⟩
  have hloop : ∃ added, BatchPlans fingerprint db run batch added := by
    refine foldlM_invariant (I := fun batch ↦ ∃ added, BatchPlans fingerprint db run batch added)
      (fun batch option ho batch' hb hp ↦ ?_) hstart hfold
    obtain ⟨added, hb⟩ := hb
    obtain ⟨more, hmore⟩ := hb.step (hfresh _ (RecoveryOptionsWorkflow.solveContexts_mem hs ho)) hp
    exact ⟨_, hmore⟩
  obtain ⟨added, hb⟩ := hloop
  refine ⟨added, ?_, hb.made, ?_⟩
  · by_cases hrows : batch.rows = []
    · rw [closeBatch_nil hrows]
      have hall := (hb.plans.trans (.updateIncident _ run.incidentId .assessing)).trans
        (.updateRecoveryPlan _ run.attemptId (RecoveryWorkflow.recorded .infeasible none))
      rw [List.append_nil, List.append_nil] at hall
      exact hall
    · rw [closeBatch_cons hrows]
      have hall := (hb.plans.trans (.filterRows _ ((RecoveryOptionsWorkflow.rowsBeyond
        maxCandidates batch.rows).map (·.attemptId)))).trans
          (.updateIncident _ run.incidentId .review)
      rw [List.append_nil, List.append_nil] at hall
      exact hall
  · intro attempt ha hp
    by_cases hrows : batch.rows = []
    · rw [closeBatch_nil hrows] at ha
      have hsame := hb.untouched hrows
      obtain ⟨old, hold, ⟨hc, rfl⟩ | ⟨-, rfl⟩⟩ := mem_updateWhere.mp ha
      · have hold' : old ∈ db.recoveryPlans := by rwa [← hsame]
        have hs := (inFlight_iff.mp (hf old hold' (eq_of_beq hc))).1
        have hps : old.status = .pendingReview := isPending_iff.mp hp
        rw [hs] at hps
        cases hps
      · exact hb.published attempt hold
    · rw [closeBatch_cons hrows] at ha
      obtain ⟨old, hold, ⟨-, rfl⟩ | ⟨-, rfl⟩⟩ := mem_updateWhere.mp ha
      · cases hp
      · exact hb.published attempt hold

/-- What every step of a run does to plans and attempts. -/
theorem step_plans (hl : (ledgerOf db).Sound) (h : Held (ledgerOf db) run)
    (services : WorkflowServices) (now : Instant) :
    ∃ added, RunPlans fingerprint db (run.step services fingerprint db now).1 run added := by
  have hrow : working run.point = true → ∀ attempt ∈ db.recoveryPlans,
      attempt.id = run.attemptId → attempt.inFlight = true :=
    fun hw attempt ha hid ↦ (h.row hl hw ha hid).2
  have hstay : RunPlans fingerprint db db run [] := .quiet (.refl db) fun _ ha _ ↦ ha
  have honward : ∀ {α : Type} (outcome : Except AppError α) (failed : AppError → RunPoint)
      (next : α → RunPoint), RunPlans fingerprint db (run.onward db outcome failed
        fun a ↦ (db, { run with point := next a })).1 run [] := by
    intro α outcome failed next
    cases outcome <;> exact hstay
  rw [Run.step]
  split
  · exact ⟨[], honward _ _ _⟩
  · exact ⟨[], honward _ _ _⟩
  · next context hp =>
    have hrecord : ∀ solverStatus validationStatus, RunPlans fingerprint db
        (RecoveryWorkflow.record db run.attemptId solverStatus validationStatus) run [] :=
      record_plans (hrow (by rw [hp]; rfl))
    rw [RecoveryWorkflow.attempt]
    split
    · exact ⟨[], hrecord _ _⟩
    · exact ⟨[], hrecord _ _⟩
    · exact ⟨[], hrecord _ _⟩
    · exact ⟨[], hstay⟩
    · split
      · next hfin => exact finish_plans hfin
      · exact ⟨[], hstay⟩
  · rw [RecoveryWorkflow.widen]
    split
    · exact ⟨[], hstay⟩
    · split
      · next he => exact ⟨[], expand_plans he⟩
      · exact ⟨[], hstay⟩
  · exact ⟨[], honward _ _ _⟩
  · exact ⟨[], honward _ _ _⟩
  · next contexts maxCandidates hp hw =>
    cases hg : RecoveryOptionsWorkflow.generate services.toServices fingerprint db run
        maxCandidates contexts with
    | ok finished => exact generate_plans (hrow (by rw [hp]; rfl)) hg
    | error error => exact ⟨[], hstay⟩
  · exact ⟨[], hstay⟩
  · next error hp =>
    refine ⟨[], .quiet (.updateRecoveryPlan _ _ _) fun attempt ha hpend ↦ ?_⟩
    obtain ⟨old, hold, ⟨hc, rfl⟩ | ⟨-, rfl⟩⟩ := mem_updateWhere.mp ha
    · have hs := (inFlight_iff.mp (hrow (by rw [hp]; rfl) old hold (eq_of_beq hc))).1
      have hpold : old.isPending = true := by
        revert hpend
        split <;> exact id
      rw [isPending_iff.mp hpold] at hs
      cases hs
    · exact hold
  · exact ⟨[], hstay⟩
  · exact ⟨[], hstay⟩

end PenroseRoute.Lifecycle
