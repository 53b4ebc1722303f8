import PenroseRoute.Lifecycle.OptionListing
import PenroseRoute.System.Attempts

/-!
# Batches of options in reachable states

No attempt of a reachable state has the id of a batch that is still to come, so the last
transaction of every run leaves a batch of its own.
-/

namespace PenroseRoute.System

open PenroseRoute.Db PenroseRoute.Lib PenroseRoute.Recovery PenroseRoute.Lifecycle
open PenroseRoute.Optimization RecoveryOptionsWorkflow

variable {settings : Settings} {s : SysState}

/-! ### Ids of batches -/

variable {db db' : Database}

/-- Every batch of an attempt is one that an attempt had before. -/
def KeepsBatches (db db' : Database) : Prop :=
  ∀ attempt ∈ db'.recoveryPlans, ∀ batchId, attempt.options.map (·.batchId) = some batchId →
    ∃ old ∈ db.recoveryPlans, old.options.map (·.batchId) = some batchId

namespace KeepsBatches

/-- The same attempts have the same batches. -/
theorem of_rows (h : db'.recoveryPlans = db.recoveryPlans) : KeepsBatches db db' := by
  intro attempt ha batchId hb
  rw [h] at ha
  exact ⟨attempt, ha, hb⟩

/-- What keeps the batches twice keeps them. -/
theorem trans {db'' : Database} (h : KeepsBatches db db') (h' : KeepsBatches db' db'') :
    KeepsBatches db db'' := by
  intro attempt ha batchId hb
  obtain ⟨old, hold, hob⟩ := h' attempt ha batchId hb
  exact h old hold batchId hob

/-- Attempts that are rewritten keep their batch or lose it. -/
theorem update {cond : RecoveryPlan → Bool} {f : RecoveryPlan → RecoveryPlan}
    (h : db'.recoveryPlans = updateWhere db.recoveryPlans cond f)
    (hf : ∀ attempt, (f attempt).options = none ∨
      (f attempt).options.map (·.batchId) = attempt.options.map (·.batchId)) :
    KeepsBatches db db' := by
  intro attempt ha batchId hb
  rw [h] at ha
  obtain ⟨old, hold, ⟨-, rfl⟩ | ⟨-, rfl⟩⟩ := mem_updateWhere.mp ha
  · rcases hf old with hn | he
    · rw [hn] at hb
      cases hb
    · rw [he] at hb
      exact ⟨old, hold, hb⟩
  · exact ⟨attempt, hold, hb⟩

/-- A new attempt without options. -/
theorem add {attempt : RecoveryPlan} (hnone : attempt.options = none)
    (h : RecoveryWorkflow.addRecoveryPlan db attempt = .ok db') : KeepsBatches db db' := by
  obtain ⟨-, rfl⟩ := addRecoveryPlan_ok h
  intro other ho batchId hb
  rcases List.mem_append.mp ho with ho | ho
  · exact ⟨other, ho, hb⟩
  · rw [List.mem_singleton.mp ho, hnone] at hb
    cases hb

/-- Closing attempts keeps the batches. -/
theorem closeAttempts (db : Database) (closing : RecoveryPlan → Bool) :
    KeepsBatches db (RecoveryOptionsWorkflow.closeAttempts db closing) :=
  update rfl fun _ ↦ .inr rfl

/-- Recording a result keeps the batches. -/
theorem record (db : Database) (id : UUID) (solverStatus : SolverStatus)
    (validationStatus : Option ValidationStatus) :
    KeepsBatches db (RecoveryWorkflow.record db id solverStatus validationStatus) :=
  update rfl fun _ ↦ .inl rfl

/-- Starting a recovery keeps the batches. -/
theorem start {incidentId : UUID} {now : Instant} {run : Run}
    (h : RecoveryWorkflow.start db incidentId now = .ok (db', run)) : KeepsBatches db db' := by
  obtain ⟨incident, -, h⟩ := bind_eq_ok.mp h
  obtain ⟨-, h⟩ := unit_bind_eq_ok.mp h
  obtain ⟨context, -, h⟩ := bind_eq_ok.mp h
  obtain ⟨reserved, hr, h⟩ := bind_eq_ok.mp h
  cases h
  exact (add rfl hr).trans (of_rows rfl)

/-- Starting options keeps the batches. -/
theorem startOptions {incidentId : UUID} {maxCandidates : CandidateLimit} {regenerate : Bool}
    {now : Instant} {run : Run} (h : RecoveryOptionsWorkflow.start db incidentId maxCandidates
      regenerate now = .ok (db', run)) : KeepsBatches db db' := by
  obtain ⟨incident, -, h⟩ := bind_eq_ok.mp h
  obtain ⟨-, h⟩ := unit_bind_eq_ok.mp h
  obtain ⟨context, -, h⟩ := bind_eq_ok.mp h
  obtain ⟨reserved, hr, h⟩ := bind_eq_ok.mp h
  cases h
  exact ((closeAttempts db _).trans (add rfl hr)).trans (of_rows rfl)

/-- A decision keeps the batches. -/
theorem decide {services : Services} {fingerprint : RecoveryContext → Nat} {recoveryId : UUID}
    {decision : DispatcherDecision} {reason : String} {now : Instant}
    (h : Decisions.decide services fingerprint db recoveryId decision reason now = .ok db') :
    KeepsBatches db db' := by
  intro attempt ha batchId hb
  have hstamp : stamp attempt ∈ db.recoveryPlans.map stamp := by
    rw [← decide_stamps h]
    exact List.mem_map_of_mem ha
  obtain ⟨old, hold, he⟩ := List.mem_map.mp hstamp
  have hoptions : old.options = attempt.options := congrArg Prod.snd he
  exact ⟨old, hold, by rw [hoptions]; exact hb⟩

/-- A modification keeps the batches. -/
theorem modify {fingerprint : RecoveryContext → Nat} {recoveryId : UUID} {reason : String}
    {run : Run} (h : Decisions.modify fingerprint db recoveryId reason = .ok (db', run)) :
    KeepsBatches db db' := by
  obtain ⟨reviewable, scope, last, -, -, -, -, hadd, -⟩ := Decisions.modify_ok h
  have hmodified : KeepsBatches db (Decisions.applyModification db reviewable) := by
    have hset : KeepsBatches db ((db.updatePlan reviewable.candidate.id fun plan ↦
        { plan with status := .cancelled }).updateRecoveryPlan reviewable.recovery.id
          (Decisions.setDecision .modify)) := update rfl fun _ ↦ .inr rfl
    rw [Decisions.applyModification]
    split
    · exact (hset.trans (closeAttempts _ _)).trans (of_rows rfl)
    · exact hset.trans (of_rows rfl)
  exact hmodified.trans (add rfl hadd)

/-- The candidate of a run keeps the batches. -/
theorem finish {services : WorkflowServices} {run : Run} {context : RecoveryContext}
    {result : SolverResult} {roads : RoadRoutes}
    (h : RecoveryWorkflow.finish services db run context result roads = .ok db') :
    KeepsBatches db db' := by
  obtain ⟨-, h⟩ := unit_bind_eq_ok.mp h
  obtain ⟨currentContext, -, h⟩ := bind_eq_ok.mp h
  obtain ⟨-, h⟩ := unit_bind_eq_ok.mp h
  obtain ⟨locked, -, h⟩ := bind_eq_ok.mp h
  obtain ⟨⟨created, candidate⟩, hc, h⟩ := bind_eq_ok.mp h
  obtain ⟨-, h⟩ := unit_bind_eq_ok.mp h
  obtain ⟨incident, -, h⟩ := bind_eq_ok.mp h
  cases h
  obtain ⟨-, rfl⟩ := createCandidate_ok hc
  exact update rfl fun _ ↦ .inl rfl

/-- Expanding the scope keeps the batches. -/
theorem expand {run next : Run} {context : RecoveryContext} {scope : ReplanningScope}
    (h : RecoveryWorkflow.expand db run context scope = .ok (db', next)) :
    KeepsBatches db db' := by
  obtain ⟨-, h⟩ := unit_bind_eq_ok.mp h
  obtain ⟨wider, -, h⟩ := bind_eq_ok.mp h
  obtain ⟨reserved, hr, h⟩ := bind_eq_ok.mp h
  cases h
  exact add rfl hr

/-- Recording a failure keeps the batches. -/
theorem recordFailure (db : Database) (id : UUID) :
    KeepsBatches db (RecoveryOptionsWorkflow.recordFailure db id) := by
  refine update rfl fun attempt ↦ ?_
  split
  · exact .inl rfl
  · exact .inr rfl

/-- Closing a batch keeps the others. -/
theorem closeBatch (run : Run) (maxCandidates : Nat) (batch : Batch) :
    KeepsBatches batch.db (RecoveryOptionsWorkflow.closeBatch run maxCandidates batch) := by
  by_cases hrows : batch.rows = []
  · rw [closeBatch_nil hrows]
    exact (of_rows rfl).trans (record _ _ _ _)
  · rw [closeBatch_cons hrows]
    refine (update (f := filterRow) rfl fun attempt ↦ .inr ?_).trans (of_rows rfl)
    exact Option.map_map _ _ _

end KeepsBatches

variable {run : Run} {fingerprint : RecoveryContext → Nat}

/-- Every pass of the loop uses the id of its batch. -/
theorem persistOption_batches {services : Services} {batchId : UUID} {reserved : RecoveryPlan}
    {batch batch' : Batch} {option : RecoveryContext × SolverResult}
    (hp : persistOption services fingerprint batchId reserved batch option = .ok batch')
    {attempt : RecoveryPlan} (ha : attempt ∈ batch'.db.recoveryPlans) :
    attempt ∈ batch.db.recoveryPlans ∨ attempt.options.map (·.batchId) = some batchId := by
  rcases persistOption_ok hp with
    rfl | ⟨created, candidate, added, published, metrics, hc, hn, rfl⟩
  · exact .inl ha
  obtain ⟨-, -, -, hrows⟩ := nextRow_plans hn
  obtain ⟨-, hdb⟩ := createCandidate_ok hc
  have hsame : created.recoveryPlans = batch.db.recoveryPlans := by rw [hdb]
  obtain ⟨old, hold, ⟨-, rfl⟩ | ⟨hne, rfl⟩⟩ := mem_updateWhere.mp ha
  · exact .inr rfl
  · rcases hrows attempt hold with hold | hid
    · rw [hsame] at hold
      exact .inl hold
    · exact absurd hid (beq_eq_false_iff_ne.mp hne)

/-- The last transaction of the options workflow uses the id of its batch. -/
theorem generate_batches (hl : (ledgerOf db).Sound) (h : Held (ledgerOf db) run)
    (hw : working run.point = true) {services : Services} {maxCandidates : Nat}
    {contexts : List RecoveryContext}
    (hg : generate services fingerprint db run maxCandidates contexts = .ok db')
    {attempt : RecoveryPlan} (ha : attempt ∈ db'.recoveryPlans) {batchId : UUID}
    (hb : attempt.options.map (·.batchId) = some batchId) :
    (∃ old ∈ db.recoveryPlans, old.options.map (·.batchId) = some batchId) ∨
      batchId = db.nextId := by
  obtain ⟨-, reserved, batch, solved, -, -, -, hfold, rfl⟩ := generate_batch hl h hw hg
  have hloop : ∀ row ∈ batch.db.recoveryPlans, row ∈ db.recoveryPlans ∨
      row.options.map (·.batchId) = some db.nextId := by
    refine foldlM_invariant (I := fun batch ↦ ∀ row ∈ batch.db.recoveryPlans,
      row ∈ db.recoveryPlans ∨ row.options.map (·.batchId) = some db.nextId)
      ?_ (fun row hrow ↦ .inl hrow) hfold
    intro before option _ after hbefore hp row hrow
    exact (persistOption_batches hp hrow).elim (hbefore row) .inr
  obtain ⟨row, hrow, hrb⟩ := KeepsBatches.closeBatch run maxCandidates batch attempt ha batchId hb
  rcases hloop row hrow with hold | hnew
  · exact .inl ⟨row, hold, hrb⟩
  · rw [hrb, Option.some.injEq] at hnew
    exact .inr hnew

/-- A step of a run keeps the batches, or opens one under the next id. -/
theorem step_batches (hl : (ledgerOf db).Sound) (h : Held (ledgerOf db) run)
    (services : WorkflowServices) (now : Instant) :
    KeepsBatches db (run.step services fingerprint db now).1 ∨
      (db.nextId < (run.step services fingerprint db now).1.nextId ∧
        ∀ attempt ∈ (run.step services fingerprint db now).1.recoveryPlans, ∀ batchId,
          attempt.options.map (·.batchId) = some batchId →
          (∃ old ∈ db.recoveryPlans, old.options.map (·.batchId) = some batchId) ∨
            batchId = db.nextId) := by
  have hstay : KeepsBatches db db := .of_rows rfl
  have honward : ∀ {α : Type} (outcome : Except AppError α) (failed : AppError → RunPoint)
      (next : α → RunPoint), KeepsBatches db (run.onward db outcome failed
        fun a ↦ (db, { run with point := next a })).1 := by
    intro α outcome failed next
    cases outcome <;> exact hstay
  rw [Run.step]
  split
  · exact .inl (honward _ _ _)
  · exact .inl (honward _ _ _)
  · rw [RecoveryWorkflow.attempt]
    split
    · exact .inl (.record _ _ _ _)
    · exact .inl (.record _ _ _ _)
    · exact .inl (.record _ _ _ _)
    · exact .inl hstay
    · split
      · next hfin => exact .inl (.finish hfin)
      · exact .inl hstay
  · rw [RecoveryWorkflow.widen]
    split
    · exact .inl hstay
    · split
      · next he => exact .inl (.expand he)
      · exact .inl hstay
  · exact .inl (honward _ _ _)
  · exact .inl (honward _ _ _)
  · next contexts maxCandidates hp hw =>
    have hworking : working run.point = true := by rw [hp]; rfl
    cases hg : generate services.toServices fingerprint db run maxCandidates contexts with
    | ok finished =>
      exact .inr ⟨(generate_closed hl h hworking hg).opened,
        fun _ ha _ hb ↦ generate_batches hl h hworking hg ha hb⟩
    | error error => exact .inl hstay
  · exact .inl hstay
  · exact .inl (.recordFailure _ _)
  · exact .inl hstay
  · exact .inl hstay

/-! ### Reachable states -/

/-- Where batches are kept, no id of one is still to come. -/
theorem batched_of_keeps (h : Batched db) (hk : KeepsBatches db db')
    (hle : db.nextId ≤ db'.nextId) :
    Batched db' := by
  intro attempt ha batchId hb
  obtain ⟨old, hold, hob⟩ := hk attempt ha batchId hb
  exact Nat.lt_of_lt_of_le (h old hold batchId hob) hle

/-- Every transaction keeps batches behind the next id. -/
theorem LifecycleOk.batched (h : LifecycleOk s) (hb : Batched s.db) (settings : Settings)
    (action : Action) : Batched (s.apply settings action).db := by
  have hsame : ∀ {db : Database}, ledgerOf db = ledgerOf s.db → Batched db := by
    intro db he
    have hattempts : db.recoveryPlans = s.db.recoveryPlans := congrArg Ledger.attempts he
    exact batched_of_keeps hb (.of_rows hattempts) (Nat.le_of_eq (congrArg Ledger.nextId he).symm)
  have hmoved : ∀ {db : Database}, KeepsBatches s.db db → Moves none (ledgerOf s.db) (ledgerOf db) →
      Batched db := fun hk m ↦ batched_of_keeps hb hk m.nextId_le
  have hcommit : ∀ {α : Type} {outcome : Except AppError α} {f : α → SysState},
      (∀ a, outcome = .ok a → Batched (f a).db) → Batched (s.commit outcome f).db :=
    fun hok ↦ SysState.commit_ind (P := fun s ↦ Batched s.db) hb hok
  cases action with
  | arrive stopId occurredAt => exact hcommit fun _ hr ↦ hsame (ledgerOf_transition hr)
  | startService stopId occurredAt => exact hcommit fun _ hr ↦ hsame (ledgerOf_transition hr)
  | complete stopId occurredAt =>
    refine hcommit fun r hr ↦ hsame ?_
    rw [(s.noteCompletion_eq stopId { s with db := r.1 }).1]
    exact ledgerOf_transition hr
  | advanceExecution orderId target => exact hcommit fun _ hr ↦ hsame (ledgerOf_advanceExecution hr)
  | refreshAlerts riskOf => exact hsame rfl
  | reportUnavailable businessDate vehicleId eventTime location =>
    refine hcommit ?_
    rintro ⟨db, incidentId⟩ hr
    refine hmoved ?_ (reportUnavailable_moves hr)
    obtain ⟨context, locationId, -, -, -, -, he⟩ :=
      Incidents.VehicleIncidentWorkflow.reportUnavailable_ok hr
    rw [he]
    exact .of_rows rfl
  | assessDelay businessDate merchantId updatedReadyAt eventTime explicitIncident =>
    refine hcommit ?_
    rintro ⟨db, incidentId⟩ hr
    refine hmoved ?_ (assessDelay_moves hr)
    rcases Incidents.MerchantDelayWorkflow.assessDelay_ok hr with
      he | ⟨context, incident, -, -, -, -, -, he | he⟩
    all_goals
      rw [he]
      exact .of_rows rfl
  | startRecovery incidentId now =>
    exact hcommit fun _ hr ↦ hmoved (.start hr) (start_moves h.sound hr).moves
  | startOptions incidentId maxCandidates regenerate now =>
    exact hcommit fun _ hr ↦ hmoved (.startOptions hr) (startOptions_moves h.sound hr).moves
  | continueRun index services now =>
    rw [SysState.apply]
    split
    · exact hb
    · next run hrun =>
      have hheld := h.held run (List.mem_of_getElem? hrun)
      have hle := (step_stepped h.sound hheld services settings.fingerprint now).moves.nextId_le
      have hstep := @step_batches s.db run settings.fingerprint h.sound hheld services now
      rcases hstep with hk | ⟨hlt, hnew⟩
      · exact batched_of_keeps hb hk hle
      · intro attempt ha batchId hbatch
        rcases hnew attempt ha batchId hbatch with ⟨old, hold, hob⟩ | rfl
        · exact Nat.lt_trans (hb old hold batchId hob) hlt
        · exact hlt
  | decide services recoveryId decision reason now =>
    exact hcommit fun _ hr ↦ hmoved (.decide hr) (decide_moves h.sound hr)
  | modify recoveryId reason =>
    exact hcommit fun _ hr ↦ hmoved (.modify hr) (modify_moves h.sound hr).moves

/-- No attempt of a reachable state has an id of a batch that is still to come. -/
theorem ReachableUnder.batched {allowed : SysState → Action → Prop}
    (h : ReachableUnder settings allowed s) : Batched s.db := by
  have hboth : LifecycleOk s ∧ Batched s.db := by
    refine Reachable.invariant (I := fun s ↦ LifecycleOk s ∧ Batched s.db) ?_ ?_ h
    · intro s hs
      refine ⟨.initial hs, fun attempt ha ↦ ?_⟩
      rw [hs.recoveryPlans] at ha
      cases ha
    · exact fun s action hs _ ↦ ⟨hs.1.apply settings action, hs.1.batched hs.2 settings action⟩
  exact hboth.2

/-! ### Published batches -/

/-- The rows of the shown options after some decisions. -/
theorem shown_row {before db after : Database} {run : Run} {maxCandidates : Nat}
    {contexts : List RecoveryContext} {options : List PublishedOption}
    {columns : List RankedOption}
    (h : OptionBatch before db run maxCandidates contexts options columns)
    (hl : (ledgerOf after).Sound)
    (hstamps : after.recoveryPlans.map stamp = db.recoveryPlans.map stamp)
    {column : RankedOption} (hc : column ∈ columns.take maxCandidates) :
    ∃ option ∈ options.take maxCandidates, option.attempt.id = column.attemptId ∧
      ∃ row ∈ after.recoveryPlans, after.recoveryPlan? column.attemptId = some row ∧
        keyOf row = keyOf option.attempt := by
  have hid : column.attemptId ∈ (options.take maxCandidates).map (·.attempt.id) := by
    rw [List.map_take, ← h.map_attemptId, ← List.map_take]
    exact List.mem_map_of_mem hc
  obtain ⟨option, ho, hoid⟩ := List.mem_map.mp hid
  have hstamp : stamp option.attempt ∈ after.recoveryPlans.map stamp := by
    rw [hstamps]
    exact List.mem_map_of_mem (h.stored option (List.mem_of_mem_take ho)).1
  obtain ⟨row, hrow, he⟩ := List.mem_map.mp hstamp
  have hkey : keyOf row = keyOf option.attempt := congrArg Prod.fst he
  have hrid : row.id = column.attemptId := (congrArg AttemptKey.id hkey).trans hoid
  have hfound := hl.recoveryPlan? hrow
  rw [hrid] at hfound
  exact ⟨option, ho, hoid, row, hrow, hfound, hkey⟩

/-- The last transaction of the options workflow ranks and publishes a batch, and the listing
shows it while decisions are taken: whatever is rejected, the first option in the ranking that
is left is recommended, and nothing once an attempt of the incident has been approved. -/
theorem options_published (h : ReachableState settings s) {run : Run} (hrun : run ∈ s.runs)
    {contexts : List RecoveryContext} (hpoint : run.point = .choosing contexts)
    {maxCandidates : Nat} {services : Services} {solved : List (RecoveryContext × SolverResult)}
    (hsolved : ∀ option ∈ solved, option.1 ∈ contexts) {db : Database}
    {columns : List RankedOption}
    (hp : publishBatch services settings.fingerprint s.db run maxCandidates contexts solved =
      .ok (db, columns)) :
    finish services settings.fingerprint s.db run maxCandidates contexts solved = .ok db ∧
    (∃ options, OptionBatch s.db db run maxCandidates contexts options columns) ∧
    ∀ column : UUID → Option RankedOption, (∀ c ∈ columns, column c.attemptId = some c) →
    ∀ log after, DecisionRun settings.fingerprint db log after →
      ∃ list, listOptions after column run.incidentId = .ok list ∧
        list.candidates = (columns.take maxCandidates).map (entry after) ∧
        list.recommendedRecoveryPlanId =
          (list.candidates.find? (·.reviewable)).map (·.recoveryPlanId) ∧
        ((∀ decided ∈ log, decided.2 = .reject) → ∀ candidate ∈ list.candidates,
          (candidate.reviewable = true ↔ candidate.recoveryPlanId ∉ log.map (·.1))) ∧
        ((∃ attempt ∈ db.recoveryPlans, attempt.incidentId = run.incidentId ∧
            (attempt.id, .approve) ∈ log) →
          list.recommendedRecoveryPlanId = none) := by
  have hheld := h.lifecycle.held run hrun
  obtain ⟨hl, ⟨base, hbase, hcurrent, hbased⟩, options, hbatch⟩ := publishBatch_batch
    h.lifecycle.sound hheld (by rw [hpoint]; rfl) h.batched hsolved hp
  refine ⟨(publishBatch_ok hp).1, ⟨options, hbatch⟩, fun column hcolumn log after hlog ↦ ?_⟩
  obtain ⟨hafter, hstamps⟩ := hlog.sound hl
  have hshown := (hbatch.shown_take hl).of_stamps hl hafter hstamps
  have hrange : (List.range' 1 columns.length).Pairwise (· < ·) := List.pairwise_lt_range'
  have hsorted : ((columns.take maxCandidates).map (·.priority)).Pairwise (· < ·) := by
    rw [List.map_take, hbatch.priorities]
    exact hrange.sublist (List.take_sublist _ _)
  obtain ⟨list, hlist, hcandidates, hrecommended⟩ := listOptions_shown hafter hshown
    (fun c hc ↦ hcolumn c (List.mem_of_mem_take hc)) hsorted
  refine ⟨list, hlist, hcandidates, hrecommended, fun hreject ↦ ?_, ?_⟩
  · intro candidate hcandidate
    rw [hcandidates] at hcandidate
    obtain ⟨c, hc, rfl⟩ := List.mem_map.mp hcandidate
    obtain ⟨option, ho, hoid, row, hrow, hfound, hkey⟩ := shown_row hbatch hafter hstamps hc
    obtain ⟨hsame, hpending⟩ := hlog.rejected hl hreject
    obtain ⟨old, hold, holdid, hiff⟩ := hpending row hrow
    have hstored := hbatch.stored option (List.mem_of_mem_take ho)
    have hrid : row.id = option.attempt.id := congrArg AttemptKey.id hkey
    have hone := Ledger.attempt_eq hl.numbered hold hstored.1 (holdid.trans hrid)
    have hwas : old.isPending = true := by
      rw [hone]
      exact isPending_iff.mpr (hbatch.offered option ho).1
    have hplan : ∃ plan ∈ after.plans, plan.id = row.baseDeliveryPlanId ∧
        plan.status = .current := by
      have hrb : row.baseDeliveryPlanId = option.attempt.baseDeliveryPlanId :=
        congrArg AttemptKey.baseDeliveryPlanId hkey
      refine ⟨base, (hsame base hcurrent).mpr hbase, ?_, hcurrent⟩
      rw [hrb, hbased option.attempt hstored.1 hstored.2.2.2]
    rw [entry, hfound, Option.any_some, isReviewable_iff hafter hrow, and_iff_left hplan, hiff,
      and_iff_right hwas, hrid, hoid]
  · rintro ⟨attempt, ha, hai, happroved⟩
    have hsuperseded := hlog.approved hl ha happroved
    rw [hrecommended, Option.map_eq_none_iff, List.find?_eq_none]
    intro candidate hcandidate hreviewable
    rw [hcandidates] at hcandidate
    obtain ⟨c, hc, rfl⟩ := List.mem_map.mp hcandidate
    obtain ⟨option, ho, -, row, hrow, hfound, hkey⟩ := shown_row hbatch hafter hstamps hc
    have hstored := hbatch.stored option (List.mem_of_mem_take ho)
    rw [entry, hfound, Option.any_some, isReviewable_iff hafter hrow] at hreviewable
    obtain ⟨-, plan, hplan, hpid, hps⟩ := hreviewable
    have hrb : row.baseDeliveryPlanId = option.attempt.baseDeliveryPlanId :=
      congrArg AttemptKey.baseDeliveryPlanId hkey
    rw [hbased attempt ha hai, ← hbased option.attempt hstored.1 hstored.2.2.2,
      ← hrb] at hsuperseded
    cases hsuperseded.status_eq hafter.numbered ⟨headerOf plan, headerOf_mem hplan, hpid, hps⟩

/-! ### Three alternatives and a limit of two -/

-- The scenario before its batch is made.
private def optionsChosen : SysState :=
  (scenarioReview.take 4).foldl (SysState.apply scenarioSettings) scenarioStart

private def optionsRun : Run := optionsChosen.runs.head (by decide +kernel)

private def optionsContexts : List RecoveryContext :=
  match optionsRun.point with
  | .choosing contexts => contexts
  | _ => []

-- The two deliveries of `handoverResult` the other way round, which takes longer.
private def laterResult : SolverResult := { handoverResult with
  routes := [{
    vehicleId := 10
    stops := [servedStop 31 4 .handover 0 60 60 1,
      servedStop 32 3 .delivery 1 180 60 (-1),
      servedStop 31 2 .delivery 2 420 60 (-1)]
    distanceMeters := 420
    durationSeconds := 480 }] }

-- Order 32 is delivered before the handover, which takes longest.
private def lastResult : SolverResult := { handoverResult with
  routes := [{
    vehicleId := 10
    stops := [servedStop 32 3 .delivery 0 60 60 (-1),
      servedStop 31 4 .handover 1 240 60 1,
      servedStop 31 2 .delivery 2 540 60 (-1)]
    distanceMeters := 420
    durationSeconds := 600 }] }

-- All results in both of the wider scopes, the slower ones first.
private def optionsSolved : List (RecoveryContext × SolverResult) :=
  (optionsContexts.drop 1).flatMap fun context ↦
    [(context, lastResult), (context, laterResult), (context, handoverResult)]

private def optionsPublished : Database × List RankedOption :=
  (publishBatch scenarioServices.toServices scenarioSettings.fingerprint optionsChosen.db
    optionsRun 2 optionsContexts optionsSolved).toOption.get (by decide +kernel)

private def optionsRejected : Database :=
  (Decisions.decide scenarioServices.toServices scenarioSettings.fingerprint optionsPublished.1 128
    .reject "late" 0).toOption.get (by decide +kernel)

private def optionsColumn (id : UUID) : Option RankedOption :=
  optionsPublished.2.find? (·.attemptId == id)

/-- Six alternatives are three business plans. The third one is ranked first, the first one is last
and goes back to DRAFT, and after the rejection of the best one the other one is reviewable. -/
theorem options_published_scenario :
    optionsPublished.2.map (fun column ↦ (column.attemptId, column.priority)) =
        [(128, 1), (119, 2), (101, 3)] ∧
      (optionsPublished.1.attempts optionsRun.incidentId).map (fun attempt ↦
        (attempt.id, attempt.status, attempt.options.map (·.filteredByLimit))) =
          [(101, .draft, some true), (119, .pendingReview, some false),
            (128, .pendingReview, some false)] ∧
      ∃ list, listOptions optionsRejected optionsColumn optionsRun.incidentId = .ok list ∧
        list.candidates.map (·.recoveryPlanId) = [128, 119] ∧
        ∀ candidate ∈ list.candidates,
          (candidate.reviewable = true ↔ candidate.recoveryPlanId ∉ [128]) := by
  have hpublished : publishBatch scenarioServices.toServices scenarioSettings.fingerprint
      optionsChosen.db optionsRun 2 optionsContexts optionsSolved =
        .ok (optionsPublished.1, optionsPublished.2) := by
    rw [Prod.mk.eta]
    exact eq_ok_get _
  have hpoint : optionsRun.point = .choosing optionsContexts := by decide +kernel
  have hsolved : ∀ option ∈ optionsSolved, option.1 ∈ optionsContexts := by decide +kernel
  have hreachable : ReachableState scenarioSettings optionsChosen := scenario_reachable _
  have hrun : optionsRun ∈ optionsChosen.runs := List.head_mem _
  obtain ⟨-, -, hlisting⟩ := options_published hreachable hrun hpoint hsolved hpublished
  obtain ⟨list, hlist, hcandidates, -, hrejected, -⟩ := hlisting optionsColumn (by decide +kernel)
    [(128, .reject)] optionsRejected (.snoc .nil (eq_ok_get (by decide +kernel)))
  have hreviewable := hrejected (by decide)
  refine ⟨by decide +kernel, by decide +kernel, list, hlist, ?_, hreviewable⟩
  rw [hcandidates, List.map_map]
  decide +kernel

end PenroseRoute.System
