import PenroseRoute.System.Attempts
import PenroseRoute.System.Stranding

/-!
# Attempts in flight

An attempt in flight blocks every other recovery of its incident. Its run works on it, unless the
run has ended where nothing is recorded: when `resume` refuses the attempt, and when the single
workflow raises behind a feasible solve.
-/

namespace PenroseRoute.Recovery

open PenroseRoute.Db PenroseRoute.Lib

/-- The next transaction of a run raises and records nothing, `deterministic_workflow.py:133` and
`deterministic_workflow.py:292`. -/
def Run.abandons (services : WorkflowServices) (db : Database) (now : Instant) (run : Run) : Bool :=
  match run.point with
  | .resuming => !(RecoveryWorkflow.checkResumed db run.attemptId now).isOk
  | .attempting context =>
    match RecoveryWorkflow.solveAttempt services context with
    | .escaped _ => true
    | .solved result roads =>
      !(RecoveryWorkflow.finish services db run context result roads).isOk
    | .failed _ => false
    | .infeasible => false
    | .invalid _ => false
  | _ => false

end PenroseRoute.Recovery

namespace PenroseRoute.System

open PenroseRoute.Db PenroseRoute.Lib PenroseRoute.Recovery PenroseRoute.Lifecycle
open PenroseRoute.Optimization

variable {settings : Settings} {s : SysState} {action : Action} {db db' : Database} {run : Run}
  {attempt : RecoveryPlan}

/-- A step of the system in which a run abandons its attempt. -/
def Abandons (s : SysState) : Action → Prop
  | .continueRun index services now =>
    ∃ run, s.runs[index]? = some run ∧ run.abandons services s.db now = true
  | _ => False

/-- Some run works on an attempt. -/
def WorkedOn (s : SysState) (attempt : RecoveryPlan) : Prop :=
  ∃ run ∈ s.runs, working run.point = true ∧ run.attemptId = attempt.id

/-- Every attempt in flight is worked on. -/
def AllWorkedOn (s : SysState) : Prop :=
  ∀ attempt ∈ s.db.recoveryPlans, attempt.inFlight = true → WorkedOn s attempt

/-! ### A step of a run -/

/-- What is in flight after a step of a run: attempts that the run did not work on, and its own. -/
structure StillInFlight (db : Database) (run : Run) (abandons : Bool) (next : Database × Run) :
    Prop where
  cases : ∀ attempt ∈ next.1.recoveryPlans, attempt.inFlight = true →
    (attempt ∈ db.recoveryPlans ∧ (attempt.id = run.attemptId → working run.point = false)) ∨
      (attempt.id = next.2.attemptId ∧ (working next.2.point = true ∨ abandons = true))

private theorem stillInFlight_point (point : RunPoint) {abandons : Bool}
    (h : working run.point = false ∨ working point = true ∨ abandons = true) :
    StillInFlight db run abandons (db, { run with point := point }) := by
  refine ⟨fun attempt ha _ ↦ ?_⟩
  by_cases hid : attempt.id = run.attemptId
  · rcases h with hended | hnext
    · exact .inl ⟨ha, fun _ ↦ hended⟩
    · exact .inr ⟨hid, hnext⟩
  · exact .inl ⟨ha, fun he ↦ absurd he hid⟩

private theorem stillInFlight_settled (hl : (ledgerOf db).Sound) (h : Held (ledgerOf db) run)
    (hw : working run.point = true) {abandons : Bool} {next : Run}
    (hothers : db'.recoveryPlans.filter (·.incidentId != run.incidentId) =
      db.recoveryPlans.filter (·.incidentId != run.incidentId))
    (hsettled : ∀ attempt ∈ db'.recoveryPlans, attempt.incidentId = run.incidentId →
      attempt.inFlight = false) : StillInFlight db run abandons (db', next) := by
  refine ⟨fun attempt ha hf ↦ ?_⟩
  have hne : attempt.incidentId ≠ run.incidentId := by
    intro hi
    rw [hsettled attempt ha hi] at hf
    cases hf
  have hmem : attempt ∈ db'.recoveryPlans.filter (·.incidentId != run.incidentId) :=
    List.mem_filter.mpr ⟨ha, bne_iff_ne.mpr hne⟩
  rw [hothers] at hmem
  have hold := (List.mem_filter.mp hmem).1
  exact .inl ⟨hold, fun hid ↦ absurd (h.row hl hw hold hid).1.incidentId hne⟩

private theorem stillInFlight_recorded {abandons : Bool} {next : Run}
    {f : RecoveryPlan → RecoveryPlan}
    (hrecorded : ∀ attempt ∈ (db.updateRecoveryPlan run.attemptId f).recoveryPlans,
      attempt.id = run.attemptId → attempt.inFlight = false)
    (hid : ∀ attempt, (f attempt).id = attempt.id) :
    StillInFlight db run abandons (db.updateRecoveryPlan run.attemptId f, next) := by
  refine ⟨fun attempt ha hf ↦ ?_⟩
  have hne : attempt.id ≠ run.attemptId := by
    intro he
    rw [hrecorded attempt ha he] at hf
    cases hf
  obtain ⟨old, hold, ⟨hc, rfl⟩ | ⟨-, rfl⟩⟩ := mem_updateWhere.mp ha
  · exact absurd ((hid old).trans (eq_of_beq hc)) hne
  · exact .inl ⟨hold, fun he ↦ absurd he hne⟩

private theorem stillInFlight_reserved {abandons : Bool} {next : Run} {reserved : RecoveryPlan}
    (hended : working run.point = false) (hid : next.attemptId = reserved.id)
    (hw : working next.point = true)
    (hadd : db'.recoveryPlans = db.recoveryPlans ++ [reserved]) :
    StillInFlight db run abandons (db', next) := by
  refine ⟨fun attempt ha _ ↦ ?_⟩
  rw [hadd] at ha
  rcases List.mem_append.mp ha with hold | hnew
  · exact .inl ⟨hold, fun _ ↦ hended⟩
  · rw [List.mem_singleton.mp hnew]
    exact .inr ⟨hid.symm, .inl hw⟩

private theorem stillInFlight_onward {α : Type} {outcome : Except AppError α}
    {failed : AppError → RunPoint} {next : α → Database × Run} {abandons : Bool}
    (hok : ∀ a, outcome = .ok a → StillInFlight db run abandons (next a))
    (herror : ∀ error, outcome = .error error → working (failed error) = true ∨ abandons = true) :
    StillInFlight db run abandons (run.onward db outcome failed next) := by
  cases outcome with
  | ok a => exact hok a rfl
  | error error => exact stillInFlight_point _ (.inr (herror error rfl))

private theorem attempt_stillInFlight (hl : (ledgerOf db).Sound) (h : Held (ledgerOf db) run)
    {context : RecoveryContext} (hp : run.point = .attempting context)
    (services : WorkflowServices) (now : Instant) :
    StillInFlight db run (run.abandons services db now)
      (RecoveryWorkflow.attempt services db run context) := by
  have hw : working run.point = true := by rw [hp]; rfl
  have hrecorded : ∀ solverStatus validationStatus (next : Run),
      StillInFlight db run (run.abandons services db now)
        (RecoveryWorkflow.record db run.attemptId solverStatus validationStatus, next) :=
    fun solverStatus validationStatus next ↦
      stillInFlight_recorded (fun _ ha hid ↦ record_not_inFlight ha hid) fun _ ↦ rfl
  rw [RecoveryWorkflow.attempt]
  split
  · exact hrecorded _ _ _
  · exact hrecorded _ _ _
  · exact hrecorded _ _ _
  · next error hs =>
    refine stillInFlight_point _ (.inr (.inr ?_))
    rw [Run.abandons, hp]
    simp only [hs]
  · next result roads hs =>
    split
    · next finished hfin =>
      obtain ⟨hm, hothers, pending, hpm, hof, hpp, -⟩ := finish_moves hl h hw hfin
      refine stillInFlight_settled hl h hw hothers fun attempt ha hi ↦ ?_
      rw [Bool.eq_false_iff]
      intro hf
      have hnot := (hm.sound hl).reviewed.not_pending_of_inFlight ha hpm hf
        (hof.incidentId.trans hi.symm)
      rw [hpp] at hnot
      cases hnot
    · next error hfin =>
      refine stillInFlight_point _ (.inr (.inr ?_))
      rw [Run.abandons, hp]
      simp only [hs, hfin]
      rfl

private theorem widen_stillInFlight {context : RecoveryContext}
    (hp : run.point = .expanding context) {abandons : Bool} :
    StillInFlight db run abandons (RecoveryWorkflow.widen db run context) := by
  have hended : working run.point = false := by rw [hp]; rfl
  rw [RecoveryWorkflow.widen]
  split
  · exact stillInFlight_point _ (.inl hended)
  · split
    · next he =>
      obtain ⟨-, he⟩ := unit_bind_eq_ok.mp he
      obtain ⟨wider, -, he⟩ := bind_eq_ok.mp he
      obtain ⟨reserved, hadd, he⟩ := bind_eq_ok.mp he
      cases he
      obtain ⟨-, rfl⟩ := addRecoveryPlan_ok hadd
      exact stillInFlight_reserved hended rfl rfl rfl
    · exact stillInFlight_point _ (.inl hended)

/-- What is in flight after any step of a run. -/
theorem step_stillInFlight (hl : (ledgerOf db).Sound) (h : Held (ledgerOf db) run)
    (services : WorkflowServices) (fingerprint : RecoveryContext → Nat) (now : Instant) :
    StillInFlight db run (run.abandons services db now)
      (run.step services fingerprint db now) := by
  have hstay : working run.point = false → StillInFlight db run (run.abandons services db now)
      (db, run) := fun hended ↦ stillInFlight_point run.point (.inl hended)
  have habandons : ∀ error, run.point = .resuming →
      RecoveryWorkflow.checkResumed db run.attemptId now = .error error →
        run.abandons services db now = true := by
    intro error hp he
    rw [Run.abandons, hp]
    simp only [he]
    rfl
  rw [Run.step]
  split
  · next hp _ =>
    exact stillInFlight_onward (fun _ _ ↦ stillInFlight_point _ (.inr (.inl rfl)))
      fun error he ↦ .inr (habandons error hp he)
  · next hp _ =>
    exact stillInFlight_onward (fun _ _ ↦ stillInFlight_point _ (.inr (.inl rfl)))
      fun error he ↦ .inr (habandons error hp he)
  · next context hp => exact attempt_stillInFlight hl h hp services now
  · next context hp => exact widen_stillInFlight hp
  · exact stillInFlight_onward (fun _ _ ↦ stillInFlight_point _ (.inr (.inl rfl)))
      fun _ _ ↦ .inl rfl
  · exact stillInFlight_onward (fun _ _ ↦ stillInFlight_point _ (.inr (.inl rfl)))
      fun _ _ ↦ .inl rfl
  · next contexts maxCandidates hp _ =>
    have hw : working run.point = true := by rw [hp]; rfl
    refine stillInFlight_onward (fun finished hg ↦ ?_) fun _ _ ↦ .inl rfl
    have hclosed := generate_closed hl h hw hg
    exact stillInFlight_settled hl h hw hclosed.others hclosed.settled
  · next hp _ => exact stillInFlight_point run.point (.inr (.inl (by rw [hp]; rfl)))
  · next error hp =>
    have hw : working run.point = true := by rw [hp]; rfl
    refine stillInFlight_recorded (fun _ ha hid ↦ recordFailure_not_inFlight hl h hw ha hid) ?_
    intro attempt
    split <;> rfl
  · next hp => exact hstay (by rw [hp]; rfl)
  · next error hp => exact hstay (by rw [hp]; rfl)

/-! ### A step of the system -/

private theorem inFlight_of_starts (hl : (ledgerOf db).Sound)
    (h : Starts (ledgerOf db) (ledgerOf db') run) (hnext : db'.nextId ≤ db.nextId + 1)
    (ha : attempt ∈ db'.recoveryPlans) (hf : attempt.inFlight = true) :
    attempt ∈ db.recoveryPlans ∨ attempt.id = run.attemptId := by
  refine (h.moves.inFlight_mem hl.numbered hl.reviewed ha hf).imp_right fun hnew ↦ ?_
  have hfresh := (h.moves.sound hl).numbered.attemptsFresh (keyOf attempt)
    (List.mem_map.mpr ⟨attempt, ha, rfl⟩)
  exact (Nat.le_antisymm (Nat.lt_succ_iff.mp (Nat.lt_of_lt_of_le hfresh hnext)) hnew).trans
    (Nat.le_antisymm (Nat.lt_succ_iff.mp (Nat.lt_of_lt_of_le h.held.fresh hnext)) h.new).symm

private theorem inFlight_of_moves (hl : (ledgerOf db).Sound)
    (m : Moves none (ledgerOf db) (ledgerOf db')) (hnext : db'.nextId = db.nextId)
    (ha : attempt ∈ db'.recoveryPlans) (hf : attempt.inFlight = true) :
    attempt ∈ db.recoveryPlans := by
  refine (m.inFlight_mem hl.numbered hl.reviewed ha hf).resolve_right fun hnew ↦ ?_
  have hfresh := (m.sound hl).numbered.attemptsFresh (keyOf attempt)
    (List.mem_map.mpr ⟨attempt, ha, rfl⟩)
  exact absurd hnew (Nat.not_le.mpr (Nat.lt_of_lt_of_eq hfresh hnext))

private theorem decide_nextId {services : Services} {fingerprint : RecoveryContext → Nat}
    {recoveryId : UUID} {decision : DispatcherDecision} {reason : String} {now : Instant}
    (h : Decisions.decide services fingerprint db recoveryId decision reason now = .ok db') :
    db'.nextId = db.nextId := by
  obtain ⟨reviewable, -, ⟨-, -, -, -, rfl⟩ | ⟨-, rfl⟩⟩ := Decisions.decide_ok h
  · rw [Decisions.applyApproval]
    split <;> rfl
  · rfl

-- What is in flight after a transaction was so before, or a run has just reserved it, or the
-- run that goes on has it in flight.
private theorem inFlight_apply (h : LifecycleOk s) (settings : Settings)
    (ha : attempt ∈ (s.apply settings action).db.recoveryPlans) (hf : attempt.inFlight = true) :
    (attempt ∈ s.db.recoveryPlans ∧ (s.apply settings action).runs = s.runs) ∨
    (∃ run, working run.point = true ∧ (s.apply settings action).runs = s.runs ++ [run] ∧
      (attempt ∈ s.db.recoveryPlans ∨ run.attemptId = attempt.id)) ∨
    (∃ index run services now, action = .continueRun index services now ∧
      s.runs[index]? = some run ∧ (s.apply settings action).runs =
        s.runs.set index (run.step services settings.fingerprint s.db now).2 ∧
      attempt ∈ (run.step services settings.fingerprint s.db now).1.recoveryPlans) := by
  have hsame : ∀ {α : Type} {outcome : Except AppError α} {f : α → SysState},
      attempt ∈ (s.commit outcome f).db.recoveryPlans →
        (∀ a, outcome = .ok a → (f a).runs = s.runs ∧
          (attempt ∈ (f a).db.recoveryPlans → attempt ∈ s.db.recoveryPlans)) →
            attempt ∈ s.db.recoveryPlans ∧ (s.commit outcome f).runs = s.runs := by
    intro α outcome f ha hok
    cases outcome with
    | ok a => exact ⟨(hok a rfl).2 ha, (hok a rfl).1⟩
    | error error => exact ⟨ha, rfl⟩
  have hledger : ∀ {db : Database}, ledgerOf db = ledgerOf s.db →
      attempt ∈ db.recoveryPlans → attempt ∈ s.db.recoveryPlans := by
    intro db he hmem
    have hattempts : db.recoveryPlans = s.db.recoveryPlans := (congrArg Ledger.attempts he :)
    rwa [← hattempts]
  have hstart : ∀ {outcome : Except AppError (Database × Run)},
      attempt ∈ (s.commit outcome fun r ↦
        { s with db := r.1, runs := s.runs ++ [r.2] }).db.recoveryPlans →
      (∀ db run, outcome = .ok (db, run) → Starts (ledgerOf s.db) (ledgerOf db) run ∧
        db.nextId ≤ s.db.nextId + 1 ∧ working run.point = true) →
      (attempt ∈ s.db.recoveryPlans ∧ (s.commit outcome fun r ↦
        { s with db := r.1, runs := s.runs ++ [r.2] }).runs = s.runs) ∨
      ∃ run, working run.point = true ∧ (s.commit outcome fun r ↦
        { s with db := r.1, runs := s.runs ++ [r.2] }).runs = s.runs ++ [run] ∧
          (attempt ∈ s.db.recoveryPlans ∨ run.attemptId = attempt.id) := by
    intro outcome hmem hok
    cases outcome with
    | ok r =>
      obtain ⟨db, run⟩ := r
      obtain ⟨hstarts, hnext, hw⟩ := hok db run rfl
      exact .inr ⟨run, hw, rfl, (inFlight_of_starts h.sound hstarts hnext hmem hf).imp_right .symm⟩
    | error error => exact .inl ⟨hmem, rfl⟩
  cases action with
  | arrive stopId occurredAt =>
    exact .inl (hsame ha fun _ hr ↦ ⟨rfl, hledger (ledgerOf_transition hr)⟩)
  | startService stopId occurredAt =>
    exact .inl (hsame ha fun _ hr ↦ ⟨rfl, hledger (ledgerOf_transition hr)⟩)
  | complete stopId occurredAt =>
    refine .inl (hsame ha fun r hr ↦ ?_)
    obtain ⟨hdb, hruns, -, -⟩ := s.noteCompletion_eq stopId { s with db := r.1 }
    refine ⟨hruns, hledger ?_⟩
    rw [hdb]
    exact ledgerOf_transition hr
  | advanceExecution orderId target =>
    exact .inl (hsame ha fun _ hr ↦ ⟨rfl, hledger (ledgerOf_advanceExecution hr)⟩)
  | refreshAlerts riskOf => exact .inl ⟨ha, rfl⟩
  | reportUnavailable businessDate vehicleId eventTime location =>
    refine .inl (hsame ha fun r hr ↦ ⟨rfl, fun hmem ↦ ?_⟩)
    obtain ⟨db, incidentId⟩ := r
    obtain ⟨context, locationId, -, -, -, -, he⟩ :=
      Incidents.VehicleIncidentWorkflow.reportUnavailable_ok hr
    rw [he] at hmem
    exact hmem
  | assessDelay businessDate merchantId updatedReadyAt eventTime explicitIncident =>
    refine .inl (hsame ha fun r hr ↦ ⟨rfl, fun hmem ↦ ?_⟩)
    obtain ⟨db, incidentId⟩ := r
    rcases Incidents.MerchantDelayWorkflow.assessDelay_ok hr with
      he | ⟨context, incident, -, -, -, -, -, he | he⟩
    all_goals
      rw [he] at hmem
      exact hmem
  | startRecovery incidentId now =>
    refine (hstart ha fun db run hr ↦ ⟨start_moves h.sound hr, ?_⟩).imp_right .inl
    obtain ⟨incident, -, hr⟩ := bind_eq_ok.mp hr
    obtain ⟨-, hr⟩ := unit_bind_eq_ok.mp hr
    obtain ⟨context, -, hr⟩ := bind_eq_ok.mp hr
    obtain ⟨reserved, hadd, hr⟩ := bind_eq_ok.mp hr
    cases hr
    obtain ⟨-, rfl⟩ := addRecoveryPlan_ok hadd
    exact ⟨Nat.le_refl _, rfl⟩
  | startOptions incidentId maxCandidates regenerate now =>
    refine (hstart ha fun db run hr ↦ ⟨startOptions_moves h.sound hr, ?_⟩).imp_right .inl
    obtain ⟨incident, -, hr⟩ := bind_eq_ok.mp hr
    obtain ⟨-, hr⟩ := unit_bind_eq_ok.mp hr
    obtain ⟨context, -, hr⟩ := bind_eq_ok.mp hr
    obtain ⟨reserved, hadd, hr⟩ := bind_eq_ok.mp hr
    cases hr
    obtain ⟨-, rfl⟩ := addRecoveryPlan_ok hadd
    exact ⟨Nat.le_refl _, rfl⟩
  | continueRun index services now =>
    rw [SysState.apply] at ha ⊢
    split at ha
    · exact .inl ⟨ha, rfl⟩
    · next run hrun =>
      exact .inr (.inr ⟨index, run, services, now, rfl, hrun, rfl, ha⟩)
  | decide services recoveryId decision reason now =>
    exact .inl (hsame ha fun _ hr ↦ ⟨rfl, fun hmem ↦
      inFlight_of_moves h.sound (decide_moves h.sound hr) (decide_nextId hr) hmem hf⟩)
  | modify recoveryId reason =>
    refine (hstart ha fun db run hr ↦ ⟨modify_moves h.sound hr, ?_⟩).imp_right .inl
    obtain ⟨reviewable, scope, last, hl, -, -, -, hadd, -, -, -, hrp, -⟩ := Decisions.modify_ok hr
    obtain ⟨-, rfl⟩ := addRecoveryPlan_ok hadd
    refine ⟨?_, by rw [hrp]; rfl⟩
    have hnext : (Decisions.applyModification s.db reviewable).nextId = s.db.nextId :=
      (congrArg Keys.nextId (keys_applyModification s.db reviewable) :)
    exact Nat.le_of_eq (congrArg (· + 1) hnext)

private theorem mem_set_of_ne {runs : List Run} {index : Nat} {run next other : Run}
    (hrun : runs[index]? = some run) (ho : other ∈ runs) (hne : other ≠ run) :
    other ∈ runs.set index next := by
  obtain ⟨i, hi⟩ := List.mem_iff_getElem?.mp ho
  refine List.mem_of_getElem? (i := i) ?_
  rw [List.getElem?_set_ne]
  · exact hi
  · rintro rfl
    rw [hrun, Option.some.injEq] at hi
    exact hne hi.symm

/-- Where no run abandons its attempt, every attempt in flight stays worked on. -/
theorem AllWorkedOn.apply (h : AllWorkedOn s) (hl : LifecycleOk s) (settings : Settings)
    (hno : ¬ Abandons s action) : AllWorkedOn (s.apply settings action) := by
  intro attempt ha hf
  rcases inFlight_apply hl settings ha hf with ⟨hold, hruns⟩ | ⟨run, hw, hruns, hcases⟩ |
    ⟨index, run, services, now, rfl, hrun, hruns, hmem⟩
  · obtain ⟨run, hr, hworks⟩ := h attempt hold hf
    exact ⟨run, by rwa [hruns], hworks⟩
  · rcases hcases with hold | hid
    · obtain ⟨other, ho, hworks⟩ := h attempt hold hf
      exact ⟨other, by rw [hruns]; exact List.mem_append_left _ ho, hworks⟩
    · refine ⟨run, ?_, hw, hid⟩
      rw [hruns]
      exact List.mem_append_right _ (List.mem_singleton.mpr rfl)
  · have hheld := hl.held run (List.mem_of_getElem? hrun)
    have hstep := step_stillInFlight hl.sound hheld services settings.fingerprint now
    rcases hstep.cases attempt hmem hf with ⟨hold, hnot⟩ | ⟨hid, hw | habandons⟩
    · obtain ⟨other, ho, hworks, hoid⟩ := h attempt hold hf
      have hne : other.attemptId ≠ run.attemptId := by
        intro he
        have hsame : other = run :=
          eq_of_key_eq hl.distinct ho (List.mem_of_getElem? hrun) he
        rw [hsame, hnot (hoid.symm.trans he)] at hworks
        cases hworks
      refine ⟨other, ?_, hworks, hoid⟩
      rw [hruns]
      exact mem_set_of_ne hrun ho fun he ↦ hne (by rw [he])
    · refine ⟨_, ?_, hw, hid.symm⟩
      rw [hruns]
      exact List.mem_set (List.getElem?_eq_some_iff.mp hrun).1 _
    · exact absurd ⟨run, hrun, habandons⟩ hno

private theorem step_of_abandons {services : WorkflowServices} {now : Instant}
    (h : run.abandons services db now = true) (fingerprint : RecoveryContext → Nat) :
    working run.point = true ∧ ∃ error,
      run.step services fingerprint db now = (db, { run with point := .raised error }) := by
  rw [Run.abandons] at h
  split at h
  · next hp =>
    refine ⟨by rw [hp]; rfl, ?_⟩
    cases hc : RecoveryWorkflow.checkResumed db run.attemptId now with
    | ok context =>
      rw [hc] at h
      cases h
    | error error =>
      refine ⟨error, ?_⟩
      rw [Run.step]
      split <;> simp_all [Run.onward]
  · next context hp =>
    refine ⟨by rw [hp]; rfl, ?_⟩
    have hstep : run.step services fingerprint db now =
        RecoveryWorkflow.attempt services db run context := by
      rw [Run.step]
      split <;> simp_all
    rw [hstep, RecoveryWorkflow.attempt]
    split at h
    · next error hs => exact ⟨error, by simp only [hs]⟩
    · next result roads hs =>
      cases hfin : RecoveryWorkflow.finish services db run context result roads with
      | ok finished =>
        rw [hfin] at h
        cases h
      | error error => exact ⟨error, by simp only [hs, hfin]⟩
    · cases h
    · cases h
    · cases h
  · cases h

private theorem not_allWorkedOn_of_abandons (hl : LifecycleOk s) (settings : Settings)
    (h : Abandons s action) : ¬ AllWorkedOn (s.apply settings action) := by
  cases action with
  | continueRun index services now =>
    obtain ⟨run, hrun, ha⟩ := h
    obtain ⟨hw, error, hstep⟩ := step_of_abandons ha settings.fingerprint
    have hmem := List.mem_of_getElem? hrun
    obtain ⟨attempt, hattempt, hof, hf⟩ := (hl.held run hmem).inFlight hw
    intro hall
    rw [SysState.apply, hrun] at hall
    simp only [hstep] at hall
    obtain ⟨other, ho, hworks, hid⟩ := hall attempt hattempt hf
    rcases mem_set_key hl.distinct hrun ho with rfl | ⟨-, hne⟩
    · cases hworks
    · exact hne (hid.trans hof.id)
  | _ => exact absurd h id

/-- In every run of the system: all attempts in flight are worked on in all states of the run if
and only if none of its steps abandons one. -/
theorem all_worked_on_iff (h : s.Initial) (settings : Settings) (actions : List Action) :
    (∀ n ≤ actions.length, AllWorkedOn ((actions.take n).foldl (SysState.apply settings) s)) ↔
      ∀ n action, actions[n]? = some action →
        ¬ Abandons ((actions.take n).foldl (SysState.apply settings) s) action := by
  have hok : ∀ n, LifecycleOk ((actions.take n).foldl (SysState.apply settings) s) := fun n ↦
    have hr : ReachableState settings ((actions.take n).foldl (SysState.apply settings) s) :=
      Reachable.run (.init h) _ fun _ _ _ ↦ trivial
    hr.lifecycle
  have hnext : ∀ n action, actions[n]? = some action →
      (actions.take (n + 1)).foldl (SysState.apply settings) s =
        ((actions.take n).foldl (SysState.apply settings) s).apply settings action := by
    intro n action ha
    rw [List.take_add_one, ha, Option.toList_some, List.foldl_append, List.foldl_cons,
      List.foldl_nil]
  constructor
  · intro hall n action ha habandons
    have hlt : n < actions.length := (List.getElem?_eq_some_iff.mp ha).1
    refine not_allWorkedOn_of_abandons (hok n) settings habandons ?_
    rw [← hnext n action ha]
    exact hall (n + 1) hlt
  · intro hno n
    induction n with
    | zero =>
      intro _ attempt ha
      rw [List.take_zero, List.foldl_nil, h.recoveryPlans] at ha
      cases ha
    | succ n ih =>
      intro hle
      have ha : actions[n]? = some actions[n] := List.getElem?_eq_getElem hle
      rw [hnext n _ ha]
      exact (ih (Nat.le_of_succ_le hle)).apply (hok n) settings (hno n _ ha)

/-- The delay scenario begins in an initial state. -/
theorem delayStart_initial : delayStart.Initial :=
  ⟨rfl, rfl, rfl, rfl, rfl, rfl, rfl, by decide, by decide, by decide⟩

/-- Vehicle 20 arrives at a pickup while the recovery of its delay is being solved. -/
def arriveWhileSolving : List Action :=
  [.assessDelay 738000 7 900000000 0 true, .startRecovery 100 120000000, .arrive 53 60000000,
    .continueRun 0 delayServices 120000000]

/-- The context of the recovery has changed, which is not recorded on its attempt. -/
theorem all_worked_on_iff_changed : ¬ ∀ n ≤ arriveWhileSolving.length, AllWorkedOn
    ((arriveWhileSolving.take n).foldl (SysState.apply scenarioSettings) delayStart) := by
  intro hall
  have hno := (all_worked_on_iff delayStart_initial scenarioSettings arriveWhileSolving).mp hall
    3 (.continueRun 0 delayServices 120000000) rfl
  have hrun : ((((arriveWhileSolving.take 3).foldl (SysState.apply scenarioSettings)
      delayStart).runs[0]?).any fun run ↦ run.abandons delayServices
        ((arriveWhileSolving.take 3).foldl (SysState.apply scenarioSettings) delayStart).db
          120000000) = true := by decide +kernel
  obtain ⟨run, hr, ha⟩ := (Option.any_eq_true _ _).mp hrun
  exact hno ⟨run, hr, ha⟩

/-! ### An abandoned attempt -/

/-- An attempt in flight that no run works on. -/
structure Abandoned (s : SysState) (attempt : RecoveryPlan) : Prop where
  mem : attempt ∈ s.db.recoveryPlans
  inFlight : attempt.inFlight = true
  unworked : ¬ WorkedOn s attempt

-- A run that does not work on its attempt and does not expand it does nothing, and one that
-- expands it is not the run of an attempt in flight.
private theorem not_own_of_abandoned (hl : LifecycleOk s) (h : Abandoned s attempt)
    (hrun : run ∈ s.runs) (hid : run.attemptId = attempt.id) (services : WorkflowServices)
    (fingerprint : RecoveryContext → Nat) (now : Instant) :
    run.step services fingerprint s.db now = (s.db, run) := by
  have hended : working run.point = false :=
    Bool.eq_false_iff.mpr fun hw ↦ h.unworked ⟨run, hrun, hw, hid⟩
  rw [Run.step]
  split
  · next hp _ => rw [hp] at hended; cases hended
  · next hp _ => rw [hp] at hended; cases hended
  · next hp => rw [hp] at hended; cases hended
  · next context hp =>
    obtain ⟨own, hown, hof, -, hsolved, -⟩ := (hl.held run hrun).expanding context hp
    have hsame := Ledger.attempt_eq hl.sound.numbered hown h.mem (hof.id.trans hid)
    rw [hsame, (inFlight_iff.mp h.inFlight).2] at hsolved
    cases hsolved
  · next hp => rw [hp] at hended; cases hended
  · next hp => rw [hp] at hended; cases hended
  · next hp _ => rw [hp] at hended; cases hended
  · rfl
  · next hp => rw [hp] at hended; cases hended
  · rfl
  · rfl

-- A transaction that goes on with no run writes no attempt of a run, and the runs that it starts
-- have new attempts.
private theorem moves_apply (h : LifecycleOk s) (settings : Settings)
    (hno : ∀ index services now, action ≠ .continueRun index services now) :
    Moves none (ledgerOf s.db) (ledgerOf (s.apply settings action).db) ∧
      ∀ run ∈ (s.apply settings action).runs, run ∈ s.runs ∨ s.db.nextId ≤ run.attemptId := by
  let Quiet : SysState → Prop := fun s' ↦ Moves none (ledgerOf s.db) (ledgerOf s'.db) ∧
    ∀ run ∈ s'.runs, run ∈ s.runs ∨ s.db.nextId ≤ run.attemptId
  have hrefl : Quiet s := ⟨.refl _, fun _ hr ↦ .inl hr⟩
  have hsame : ∀ {s' : SysState}, ledgerOf s'.db = ledgerOf s.db → s'.runs = s.runs → Quiet s' := by
    intro s' he hruns
    refine ⟨?_, fun run hr ↦ .inl (hruns ▸ hr)⟩
    rw [he]
    exact .refl _
  have hstarts : ∀ {db : Database} {run : Run}, Starts (ledgerOf s.db) (ledgerOf db) run →
      Quiet { s with db := db, runs := s.runs ++ [run] } := by
    intro db run hs
    refine ⟨hs.moves, fun other ho ↦ (List.mem_append.mp ho).imp_right fun hnew ↦ ?_⟩
    rw [List.mem_singleton.mp hnew]
    exact hs.new
  change Quiet (s.apply settings action)
  cases action with
  | arrive stopId occurredAt =>
    exact SysState.commit_ind hrefl fun _ hr ↦ hsame (ledgerOf_transition hr) rfl
  | startService stopId occurredAt =>
    exact SysState.commit_ind hrefl fun _ hr ↦ hsame (ledgerOf_transition hr) rfl
  | complete stopId occurredAt =>
    refine SysState.commit_ind hrefl fun r hr ↦ ?_
    obtain ⟨hdb, hruns, -, -⟩ := s.noteCompletion_eq stopId { s with db := r.1 }
    refine hsame ?_ hruns
    rw [hdb]
    exact ledgerOf_transition hr
  | advanceExecution orderId target =>
    exact SysState.commit_ind hrefl fun _ hr ↦ hsame (ledgerOf_advanceExecution hr) rfl
  | refreshAlerts riskOf => exact hsame rfl rfl
  | reportUnavailable businessDate vehicleId eventTime location =>
    exact SysState.commit_ind hrefl fun _ hr ↦ ⟨reportUnavailable_moves hr, fun _ ho ↦ .inl ho⟩
  | assessDelay businessDate merchantId updatedReadyAt eventTime explicitIncident =>
    exact SysState.commit_ind hrefl fun _ hr ↦ ⟨assessDelay_moves hr, fun _ ho ↦ .inl ho⟩
  | startRecovery incidentId now =>
    exact SysState.commit_ind hrefl fun _ hr ↦ hstarts (start_moves h.sound hr)
  | startOptions incidentId maxCandidates regenerate now =>
    exact SysState.commit_ind hrefl fun _ hr ↦ hstarts (startOptions_moves h.sound hr)
  | continueRun index services now => exact absurd rfl (hno index services now)
  | decide services recoveryId decision reason now =>
    exact SysState.commit_ind hrefl fun _ hr ↦ ⟨decide_moves h.sound hr, fun _ ho ↦ .inl ho⟩
  | modify recoveryId reason =>
    exact SysState.commit_ind hrefl fun _ hr ↦ hstarts (modify_moves h.sound hr)

/-- An abandoned attempt stays abandoned. -/
theorem Abandoned.apply (h : Abandoned s attempt) (hl : LifecycleOk s) (settings : Settings)
    (action : Action) : Abandoned (s.apply settings action) attempt := by
  obtain ⟨hdraft, -⟩ := inFlight_iff.mp h.inFlight
  have hfresh : attempt.id < s.db.nextId :=
    hl.sound.numbered.attemptsFresh (keyOf attempt) (List.mem_map.mpr ⟨attempt, h.mem, rfl⟩)
  have hquiet : (∀ index services now, action ≠ .continueRun index services now) →
      Abandoned (s.apply settings action) attempt := by
    intro hno
    obtain ⟨hmoves, hruns⟩ := moves_apply hl settings hno
    refine ⟨hmoves.draft_mem hl.sound.numbered h.mem hdraft fun hn ↦ (by cases hn), h.inFlight, ?_⟩
    rintro ⟨run, hr, hw, hid⟩
    rcases hruns run hr with hold | hnew
    · exact h.unworked ⟨run, hold, hw, hid⟩
    · rw [hid] at hnew
      exact absurd hfresh (Nat.not_lt.mpr hnew)
  cases action with
  | continueRun index services now =>
    rw [SysState.apply]
    split
    · exact h
    · next run hrun =>
      have hmem := List.mem_of_getElem? hrun
      by_cases hid : run.attemptId = attempt.id
      · have hstep := not_own_of_abandoned hl h hmem hid services settings.fingerprint now
        simp only [hstep]
        refine ⟨h.mem, h.inFlight, ?_⟩
        rintro ⟨other, ho, hworks⟩
        rcases mem_set_key hl.distinct hrun ho with rfl | ⟨hold, -⟩
        · exact h.unworked ⟨other, hmem, hworks⟩
        · exact h.unworked ⟨other, hold, hworks⟩
      · have hstep := step_stepped hl.sound (hl.held run hmem) services settings.fingerprint now
        refine ⟨hstep.moves.draft_mem hl.sound.numbered h.mem hdraft ?_, h.inFlight, ?_⟩
        · rw [ne_eq, Option.some.injEq]
          exact hid
        · rintro ⟨other, ho, hw, hoid⟩
          rcases mem_set_key hl.distinct hrun ho with rfl | ⟨hold, -⟩
          · rcases hstep.attempt with he | hnew
            · exact hid (he.symm.trans hoid)
            · rw [hoid] at hnew
              exact absurd hfresh (Nat.not_lt.mpr hnew)
          · exact h.unworked ⟨other, hold, hw, hoid⟩
  | _ => exact hquiet fun _ _ _ he ↦ (by cases he)

private theorem blocked_of_abandoned (h : Abandoned s attempt) (hl : LifecycleOk s) :
    (∃ incident, s.db.incident? attempt.incidentId = some incident) ∧
      attempt ∈ s.db.attempts attempt.incidentId ∧
      ∀ other ∈ s.db.recoveryPlans, other.incidentId = attempt.incidentId →
        other.isPending = false := by
  refine ⟨?_, ?_, fun other ho hi ↦
    hl.sound.reviewed.not_pending_of_inFlight h.mem ho h.inFlight hi⟩
  · have howner := hl.sound.numbered.owner (keyOf attempt) (List.mem_map.mpr ⟨attempt, h.mem, rfl⟩)
    obtain ⟨header, hheader, he⟩ := List.mem_map.mp howner
    obtain ⟨incident, hi, rfl⟩ := List.mem_map.mp hheader
    have hid : incident.id = attempt.incidentId := (congrArg Prod.fst he :)
    refine Option.isSome_iff_exists.mp (List.find?_isSome.mpr ⟨incident, hi, ?_⟩)
    exact beq_iff_eq.mpr hid
  · rw [hl.sound.attempts_eq]
    exact List.mem_filter.mpr ⟨h.mem, beq_self_eq_true _⟩

/-- An attempt that is abandoned in a state of a run blocks its incident in all later states: it
stays in flight, no workflow starts on the incident, not even to regenerate its options, and
there is nothing to decide. -/
theorem abandoned_blocks (hs : ReachableState settings s) (h : Abandoned s attempt)
    (actions : List Action) :
    let s' := actions.foldl (SysState.apply settings) s
    attempt ∈ s'.db.recoveryPlans ∧ ¬ WorkedOn s' attempt ∧
      (∀ now, RecoveryWorkflow.start s'.db attempt.incidentId now =
        .error (.conflict "RECOVERY_ALREADY_IN_PROGRESS")) ∧
      (∀ maxCandidates regenerate now, RecoveryOptionsWorkflow.start s'.db attempt.incidentId
        maxCandidates regenerate now = .error (.conflict "RECOVERY_ALREADY_IN_PROGRESS")) ∧
      ∀ other ∈ s'.db.recoveryPlans, other.incidentId = attempt.incidentId →
        other.isPending = false := by
  induction actions generalizing s with
  | nil =>
    have hl := hs.lifecycle
    obtain ⟨⟨incident, hi⟩, hown, hnone⟩ := blocked_of_abandoned h hl
    have hany : (s.db.attempts attempt.incidentId).any (·.isPending) = false := by
      rw [List.any_eq_false]
      intro other ho hp
      rw [hl.sound.attempts_eq] at ho
      obtain ⟨hmem, hoi⟩ := List.mem_filter.mp ho
      rw [hnone other hmem (eq_of_beq hoi)] at hp
      cases hp
    have hne : (s.db.attempts attempt.incidentId != []) = true :=
      bne_iff_ne.mpr (List.ne_nil_of_mem hown)
    have hflight : (s.db.attempts attempt.incidentId).any (·.inFlight) = true :=
      List.any_eq_true.mpr ⟨attempt, hown, h.inFlight⟩
    refine ⟨h.mem, h.unworked, fun now ↦ ?_, fun maxCandidates regenerate now ↦ ?_, hnone⟩
    · rw [List.foldl_nil, RecoveryWorkflow.start, hi]
      simp only [hany, hne]
      rfl
    · rw [List.foldl_nil, RecoveryOptionsWorkflow.start, hi]
      simp only [hflight]
      rfl
  | cons action actions ih =>
    exact ih (.step action hs trivial) (h.apply hs.lifecycle settings action)

/-- The state in which the attempt of the delay is abandoned. -/
def abandonedState : SysState :=
  arriveWhileSolving.foldl (SysState.apply scenarioSettings) delayStart

/-- After the arrival and the service the delay still cannot be recovered. -/
theorem abandoned_blocks_changed : ∃ attempt ∈ abandonedState.db.recoveryPlans,
    RecoveryOptionsWorkflow.start ([Action.startService 53 70000000].foldl
      (SysState.apply scenarioSettings) abandonedState).db attempt.incidentId twoCandidates true
        200000000 = .error (.conflict "RECOVERY_ALREADY_IN_PROGRESS") := by
  have hreachable : ReachableState scenarioSettings abandonedState :=
    Reachable.run (.init delayStart_initial) arriveWhileSolving fun _ _ _ ↦ trivial
  have hany : (abandonedState.db.recoveryPlans.any fun attempt ↦ attempt.inFlight &&
      abandonedState.runs.all fun run ↦
        !(working run.point && run.attemptId == attempt.id)) = true := by decide +kernel
  obtain ⟨attempt, ha, hc⟩ := List.any_eq_true.mp hany
  rw [Bool.and_eq_true, List.all_eq_true] at hc
  have habandoned : Abandoned abandonedState attempt := by
    refine ⟨ha, hc.1, ?_⟩
    rintro ⟨run, hr, hw, hid⟩
    have hnot := hc.2 run hr
    rw [hw, hid, beq_self_eq_true] at hnot
    cases hnot
  exact ⟨attempt, ha, (abandoned_blocks hreachable habandoned
    [Action.startService 53 70000000]).2.2.2.1 twoCandidates true 200000000⟩

end PenroseRoute.System
