import PenroseRoute.Lifecycle.Frames
import PenroseRoute.Recovery.CandidateAgrees

/-!
# Where the routes of a plan come from

A step of a run leaves the routes of all plans as they are and adds candidates, each of them
persisted from a context that is read again, a result that is accepted for it, and the roads
that were built for the two.
-/

namespace PenroseRoute.Lifecycle

open PenroseRoute.Db PenroseRoute.Lib PenroseRoute.Recovery PenroseRoute.Optimization

/-- The contexts that the next step of a run solves, with the results that it may persist. -/
def solutions (services : WorkflowServices) (run : Run) : List (RecoveryContext × SolverResult) :=
  match run.point, run.workflow with
  | .attempting context, _ =>
    match RecoveryWorkflow.solveAttempt services context with
    | .solved result _ => [(context, result)]
    | _ => []
  | .choosing contexts, .options maxCandidates =>
    (RecoveryOptionsWorkflow.solveContexts services.toServices maxCandidates contexts).toOption.getD
      []
  | _, _ => []

/-- How a step of a run has persisted the routes of a candidate; options are persisted without
roads. -/
structure Persisted (db : Database) (services : WorkflowServices) (run : Run)
    (context : RecoveryContext) (result : SolverResult) (roads : RoadRoutes)
    (routes : List VehicleRoute) : Prop where
  read : materializeRecoveryContext db run.incidentId context.scope context.currentTime =
    .ok context
  solution : (context, result) ∈ solutions services run
  accepted : ∃ matrix input, buildRecoverySolverInput context matrix = .ok input ∧
    Accepted input result
  built : roads = none ∨ run.point = .attempting context ∧
    ∃ outcome, RecoveryWorkflow.orchestrate services context = .ok outcome ∧
      outcome.solverResult = result ∧ outcome.solverResult.status = .feasible ∧
      outcome.validationIssues = [] ∧
      buildCandidateRoadRoutes services.toServices context result = .ok roads
  persisted : ∃ nextId, persistCandidateRoutes context result roads nextId = .ok routes
  checks : ∀ route ∈ routes, route.checks = true
  vehicles : (routes.map (·.vehicleId)).Nodup

/-- Routes that a step of a run has persisted. -/
def IsPersisted (db : Database) (services : WorkflowServices) (run : Run)
    (routes : List VehicleRoute) : Prop :=
  ∃ context result roads, Persisted db services run context result roads routes

variable {db db' : Database} {services : WorkflowServices} {run : Run}
  {context : RecoveryContext} {result : SolverResult} {roads : RoadRoutes}

/-! ### Accepted results -/

/-- A result in which all orders have to be assigned is complete. -/
theorem requireAllRecoveryOrdersAssigned_complete
    (h : (requireAllRecoveryOrdersAssigned result).status = .feasible) :
    (requireAllRecoveryOrdersAssigned result).unassignedOrders = [] := by
  unfold requireAllRecoveryOrdersAssigned at h ⊢
  split at h
  · next hne => exact absurd h hne
  · split at h
    · next hcomplete =>
      rw [if_neg (by assumption), if_pos hcomplete]
      exact hcomplete
    · cases h

/-- What is solved and validated without an issue is accepted for the context. -/
theorem executeRecovery_accepted {services : Services} {outcome : OrchestrationResult}
    (h : executeRecovery services context = .ok outcome)
    (hstatus : outcome.solverResult.status = .feasible) (hissues : outcome.validationIssues = []) :
    ∃ matrix input, buildRecoverySolverInput context matrix = .ok input ∧
      Accepted input outcome.solverResult := by
  obtain ⟨matrix, -, h⟩ := bind_eq_ok.mp h
  obtain ⟨input, hinput, h⟩ := bind_eq_ok.mp h
  split at h
  · cases h
    cases hstatus
  · injection h with h
    subst h
    exact ⟨matrix, input, hinput, hstatus, requireAllRecoveryOrdersAssigned_complete hstatus,
      hissues⟩

/-- A run solves as `execute_recovery` does, with or without the agent. -/
theorem orchestrate_execute {outcome : OrchestrationResult}
    (h : RecoveryWorkflow.orchestrate services context = .ok outcome) :
    executeRecovery services.toServices context = .ok outcome := by
  unfold RecoveryWorkflow.orchestrate at h
  split at h
  · exact h
  · obtain ⟨-, h⟩ := unit_bind_eq_ok.mp h
    exact h

/-- A solved attempt has a result that is accepted and the roads that were built for it. -/
theorem solveAttempt_solved
    (h : RecoveryWorkflow.solveAttempt services context = .solved result roads) :
    ∃ outcome, RecoveryWorkflow.orchestrate services context = .ok outcome ∧
      outcome.solverResult = result ∧ outcome.solverResult.status = .feasible ∧
      outcome.validationIssues = [] ∧
      buildCandidateRoadRoutes services.toServices context result = .ok roads := by
  unfold RecoveryWorkflow.solveAttempt at h
  split at h
  · cases h
  · next outcome houtcome =>
    split at h
    · cases h
    · cases h
    · next hstatus =>
      split at h
      · cases h
      · next hissues =>
        split at h
        · cases h
        · cases h
        · next hroads =>
          cases h
          exact ⟨outcome, houtcome, rfl, hstatus, not_ne_iff.mp hissues, hroads⟩

/-- The alternatives of the loop are accepted. -/
theorem exploreAlternatives_accepted {services : Services} {source : SolverInput}
    {maxCandidates calls : Nat} {queue seen : List (List UUID)} {results all : List SolverResult}
    (h : exploreAlternatives services source maxCandidates calls queue seen results = .ok all)
    (hresults : ∀ result ∈ results, Accepted source result) :
    ∀ result ∈ all, Accepted source result := by
  induction calls generalizing queue seen results with
  | zero =>
    rw [exploreAlternatives] at h
    cases h
    exact hresults
  | succ calls ih =>
    rw [exploreAlternatives] at h
    split at h
    · cases h
      exact hresults
    · split at h
      · cases h
        exact hresults
      · dsimp only at h
        split at h
        · cases h
        · split at h
          · exact ih h hresults
          · next hunassigned =>
            rw [not_or, not_ne_iff, not_ne_iff] at hunassigned
            split at h
            · cases h
            · next hvalid =>
              rw [not_or, not_ne_iff, not_ne_iff] at hvalid
              refine ih h ?_
              split
              · exact hresults
              · intro result hr
                rcases List.mem_append.mp hr with hr | hr
                · exact hresults result hr
                · rw [List.mem_singleton.mp hr]
                  exact ⟨hunassigned.1, hunassigned.2, hvalid.2⟩

/-- The alternatives of a context are accepted for it. -/
theorem solveContexts_accepted {services : Services} {maxCandidates : Nat}
    {contexts : List RecoveryContext} {solved : List (RecoveryContext × SolverResult)}
    (h : RecoveryOptionsWorkflow.solveContexts services maxCandidates contexts = .ok solved)
    {option : RecoveryContext × SolverResult} (ho : option ∈ solved) :
    ∃ matrix input, buildRecoverySolverInput option.1 matrix = .ok input ∧
      Accepted input option.2 := by
  obtain ⟨rows, hr, h⟩ := bind_eq_ok.mp h
  cases h
  obtain ⟨row, hrow, ho⟩ := List.mem_flatten.mp ho
  obtain ⟨context, hc, hsolve⟩ := exists_of_forall₂_right (mapM_eq_ok_iff.mp hr) hrow
  obtain ⟨matrix, -, hsolve⟩ := bind_eq_ok.mp hsolve
  obtain ⟨source, hsource, hsolve⟩ := bind_eq_ok.mp hsolve
  obtain ⟨results, hresults, hsolve⟩ := bind_eq_ok.mp hsolve
  cases hsolve
  obtain ⟨result, hresult, rfl⟩ := List.mem_map.mp ho
  exact ⟨matrix, source, hsource,
    exploreAlternatives_accepted hresults (fun _ hm ↦ by cases hm) result hresult⟩

/-! ### Transactions -/

/-- The plans after a transaction have routes of plans before it or of the added ones. -/
theorem Plans.routes {added : List DeliveryPlan} (h : Plans db db' added) {plan : DeliveryPlan}
    (hp : plan ∈ db'.plans) : (∃ old ∈ db.plans, plan.routes = old.routes) ∨
      ∃ candidate ∈ added, plan.routes = candidate.routes := by
  have hmem : plan.bare ∈ (db.plans ++ added).map (·.bare) := by
    rw [← h.plans]
    exact List.mem_map_of_mem hp
  obtain ⟨old, hold, hsame⟩ := List.mem_map.mp hmem
  have hroutes : plan.routes = old.routes := (congrArg DeliveryPlan.routes hsame.symm :)
  rcases List.mem_append.mp hold with hold | hnew
  · exact .inl ⟨old, hold, hroutes⟩
  · exact .inr ⟨old, hnew, hroutes⟩

/-- The routes of a created candidate. -/
theorem createCandidate_persisted {candidate : DeliveryPlan}
    (h : createCandidate db context result roads = .ok (db', candidate)) :
    (∃ nextId, persistCandidateRoutes context result roads nextId = .ok candidate.routes) ∧
      (∀ route ∈ candidate.routes, route.checks = true) ∧
      (candidate.routes.map (·.vehicleId)).Nodup := by
  have hconstraints := (createCandidate_ok h).1.constraints
  obtain ⟨routes, hroutes, h⟩ := bind_eq_ok.mp h
  obtain ⟨_, -, h⟩ := bind_eq_ok.mp h
  obtain ⟨-, h⟩ := unit_bind_eq_ok.mp h
  cases h
  obtain ⟨hchecks, hvehicles, -⟩ := (Created.constraints_iff _ _).mp hconstraints
  exact ⟨⟨_, hroutes⟩, hchecks, hvehicles⟩

/-- The last transaction of a single attempt adds its candidate. -/
theorem finish_persisted
    (hfin : RecoveryWorkflow.finish services db run context result roads = .ok db')
    (hpoint : run.point = .attempting context)
    (hsolved : RecoveryWorkflow.solveAttempt services context = .solved result roads) :
    ∃ candidate, Plans db db' [candidate] ∧
      Persisted db services run context result roads candidate.routes := by
  obtain ⟨-, hfin⟩ := unit_bind_eq_ok.mp hfin
  obtain ⟨currentContext, hm, hfin⟩ := bind_eq_ok.mp hfin
  obtain ⟨hsame, hfin⟩ := unit_bind_eq_ok.mp hfin
  obtain ⟨locked, -, hfin⟩ := bind_eq_ok.mp hfin
  obtain ⟨⟨created, candidate⟩, hc, hfin⟩ := bind_eq_ok.mp hfin
  obtain ⟨-, hfin⟩ := unit_bind_eq_ok.mp hfin
  obtain ⟨incident, -, hfin⟩ := bind_eq_ok.mp hfin
  cases hfin
  rw [raiseFirst_cons_eq_ok, bne_eq_false_iff_eq] at hsame
  rw [hsame.1] at hm
  obtain ⟨outcome, horchestrate, rfl, hstatus, hissues, hroads⟩ := solveAttempt_solved hsolved
  obtain ⟨hpersisted, hchecks, hvehicles⟩ := createCandidate_persisted hc
  have hsolution : (context, outcome.solverResult) ∈ solutions services run := by
    rw [solutions, hpoint]
    dsimp only
    rw [hsolved]
    exact List.mem_singleton_self _
  exact ⟨candidate, ((Plans.createCandidate hc).trans (.updateRecoveryPlan _ _ _)).trans
      (.updateIncident _ _ _), hm, hsolution,
    executeRecovery_accepted (orchestrate_execute horchestrate) hstatus hissues,
    .inr ⟨hpoint, outcome, horchestrate, rfl, hstatus, hissues, hroads⟩, hpersisted, hchecks,
    hvehicles⟩

/-- The plans that a transaction has added are persisted candidates. -/
def AddsPersisted (db : Database) (services : WorkflowServices) (run : Run) (db' : Database) :
    Prop :=
  ∃ added, Plans db db' added ∧ ∀ candidate ∈ added, IsPersisted db services run candidate.routes

/-- Without new plans there is none to persist. -/
theorem AddsPersisted.of_plans (h : Plans db db' []) : AddsPersisted db services run db' :=
  ⟨[], h, fun _ hc ↦ by cases hc⟩

/-- A later transaction without new plans changes nothing of them. -/
theorem AddsPersisted.trans {db'' : Database} (h : AddsPersisted db services run db')
    (h' : Plans db' db'' []) : AddsPersisted db services run db'' := by
  obtain ⟨added, hplans, hadded⟩ := h
  have hall := hplans.trans h'
  rw [List.append_nil] at hall
  exact ⟨added, hall, hadded⟩

/-- A pass of the loop over the alternatives adds at most its candidate. -/
theorem persistOption_persisted {fingerprint : RecoveryContext → Nat} {batchId : UUID}
    {reserved : RecoveryPlan} {batch batch' : RecoveryOptionsWorkflow.Batch}
    {option : RecoveryContext × SolverResult} (hbatch : AddsPersisted db services run batch.db)
    (hread : materializeRecoveryContext db run.incidentId option.1.scope option.1.currentTime =
      .ok option.1)
    (hsolution : option ∈ solutions services run)
    (haccepted : ∃ matrix input, buildRecoverySolverInput option.1 matrix = .ok input ∧
      Accepted input option.2)
    (hp : RecoveryOptionsWorkflow.persistOption services.toServices fingerprint batchId reserved
      batch option = .ok batch') : AddsPersisted db services run batch'.db := by
  rcases RecoveryOptionsWorkflow.persistOption_ok hp with
    rfl | ⟨created, candidate, extended, attempt, metrics, hc, hn, rfl⟩
  · exact hbatch
  obtain ⟨added, hplans, hadded⟩ := hbatch
  obtain ⟨hpersisted, hchecks, hvehicles⟩ := createCandidate_persisted hc
  have hcreated : AddsPersisted db services run created := by
    refine ⟨added ++ [candidate], hplans.trans (.createCandidate hc), fun other ho ↦ ?_⟩
    rcases List.mem_append.mp ho with ho | ho
    · exact hadded other ho
    · rw [List.mem_singleton.mp ho]
      exact ⟨option.1, option.2, none, hread, hsolution, haccepted, .inl rfl, hpersisted, hchecks,
        hvehicles⟩
  exact (hcreated.trans (nextRow_plans hn).1).trans (.updateRecoveryPlan _ _ _)

/-- The last transaction of the options workflow adds its candidates. -/
theorem generate_persisted {fingerprint : RecoveryContext → Nat} {maxCandidates : CandidateLimit}
    {contexts : List RecoveryContext} (hpoint : run.point = .choosing contexts)
    (hworkflow : run.workflow = .options maxCandidates)
    (hg : RecoveryOptionsWorkflow.generate services.toServices fingerprint db run maxCandidates
      contexts = .ok db') : AddsPersisted db services run db' := by
  obtain ⟨solved, hs, hg⟩ := bind_eq_ok.mp hg
  obtain ⟨-, hfresh, reserved, batch, -, hfold, rfl⟩ := RecoveryOptionsWorkflow.finish_ok hg
  have hbatch : AddsPersisted db services run batch.db := by
    refine foldlM_invariant (I := fun batch ↦ AddsPersisted db services run batch.db)
      (fun batch option ho batch' hb hp ↦ ?_)
      (AddsPersisted.of_plans { Plans.refl db with orders := rfl }) hfold
    have hsolution : option ∈ solutions services run := by
      rw [solutions, hpoint, hworkflow]
      dsimp only
      rw [hs]
      exact ho
    exact persistOption_persisted hb (hfresh _ (RecoveryOptionsWorkflow.solveContexts_mem hs ho))
      hsolution (solveContexts_accepted hs ho) hp
  by_cases hrows : batch.rows = []
  · rw [closeBatch_nil hrows]
    exact (hbatch.trans (.updateIncident _ run.incidentId .assessing)).trans
      (.updateRecoveryPlan _ run.attemptId (RecoveryWorkflow.recorded .infeasible none))
  · rw [closeBatch_cons hrows]
    exact (hbatch.trans (.filterRows _ ((RecoveryOptionsWorkflow.rowsBeyond maxCandidates
      batch.rows).map (·.attemptId)))).trans (.updateIncident _ run.incidentId .review)

/-- The plans that a step of a run adds are persisted candidates. -/
theorem step_persisted (services : WorkflowServices) (fingerprint : RecoveryContext → Nat)
    (db : Database) (now : Instant) (run : Run) :
    AddsPersisted db services run (run.step services fingerprint db now).1 := by
  have hstay : AddsPersisted db services run db := .of_plans (.refl db)
  have honward : ∀ {α : Type} (outcome : Except AppError α) (failed : AppError → RunPoint)
      (next : α → RunPoint), AddsPersisted db services run (run.onward db outcome failed
        fun a ↦ (db, { run with point := next a })).1 := by
    intro α outcome failed next
    cases outcome <;> exact hstay
  rw [Run.step]
  split
  · exact honward _ _ _
  · exact honward _ _ _
  · next context hp =>
    have hrecord : ∀ solverStatus validationStatus, AddsPersisted db services run
        (RecoveryWorkflow.record db run.attemptId solverStatus validationStatus) :=
      fun _ _ ↦ .of_plans (.updateRecoveryPlan _ _ _)
    rw [RecoveryWorkflow.attempt]
    split
    · exact hrecord _ _
    · exact hrecord _ _
    · exact hrecord _ _
    · exact hstay
    · next result roads hsolved =>
      split
      · next hfin =>
        obtain ⟨candidate, hplans, hpersisted⟩ := finish_persisted hfin hp hsolved
        refine ⟨[candidate], hplans, fun other ho ↦ ?_⟩
        rw [List.mem_singleton.mp ho]
        exact ⟨context, result, roads, hpersisted⟩
      · exact hstay
  · rw [RecoveryWorkflow.widen]
    split
    · exact hstay
    · split
      · next hexpand =>
        have hplans : RunPlans fingerprint _ _ _ [] := expand_plans hexpand
        exact .of_plans hplans.plans
      · exact hstay
  · exact honward _ _ _
  · exact honward _ _ _
  · next contexts maxCandidates hpoint hworkflow =>
    cases hg : RecoveryOptionsWorkflow.generate services.toServices fingerprint db run
        maxCandidates contexts with
    | ok finished => exact generate_persisted hpoint hworkflow hg
    | error error => exact hstay
  · exact hstay
  · exact .of_plans (.updateRecoveryPlan _ _ _)
  · exact hstay
  · exact hstay

end PenroseRoute.Lifecycle
