import PenroseRoute.Lifecycle.Frames
import PenroseRoute.Lifecycle.Pending
import PenroseRoute.System.State

/-!
# The lifecycle over whole runs

The ledger of a reachable state is sound, every run has its own attempt, and no batch has more
pending attempts than its limit.
-/

namespace PenroseRoute.Lifecycle

open PenroseRoute.Db PenroseRoute.Lib PenroseRoute.Recovery PenroseRoute.Optimization

/-! ### Steps of a run -/

variable {db : Database} {run : Run}

/-- A step that can fail goes on or to the point for its error. -/
theorem onward_stepped {α : Type} {outcome : Except AppError α} {failed : AppError → RunPoint}
    {next : α → Database × Run}
    (hok : ∀ a, outcome = .ok a → Stepped (ledgerOf db) (ledgerOf (next a).1) run (next a).2)
    (herror : ∀ error, Held (ledgerOf db) { run with point := failed error }) :
    Stepped (ledgerOf db) (ledgerOf (run.onward db outcome failed next).1) run
      (run.onward db outcome failed next).2 := by
  cases outcome with
  | ok a => exact hok a rfl
  | error error => exact .point (herror error)

/-- A run that stops without a write. -/
theorem Held.raised {l : Ledger} (h : Held l run) (error : AppError) :
    Held l { run with point := .raised error } :=
  .ended h.fresh rfl fun _ he ↦ (by cases he)

/-- The step of a single attempt. -/
theorem attempt_stepped (hl : (ledgerOf db).Sound) (h : Held (ledgerOf db) run)
    (hw : working run.point = true) (services : WorkflowServices) (context : RecoveryContext) :
    Stepped (ledgerOf db) (ledgerOf (RecoveryWorkflow.attempt services db run context).1) run
      (RecoveryWorkflow.attempt services db run context).2 := by
  have hended : ∀ solverStatus validationStatus point, working point = false →
      (∀ context, point ≠ .expanding context) → Stepped (ledgerOf db)
        (ledgerOf (RecoveryWorkflow.record db run.attemptId solverStatus validationStatus)) run
          { run with point := point } := fun solverStatus validationStatus point hp he ↦
    .ended h (record_moves hl h hw solverStatus validationStatus)
      (record_others hl h hw solverStatus validationStatus) hp he
  rw [RecoveryWorkflow.attempt]
  split
  · exact hended _ _ _ rfl fun _ he ↦ (by cases he)
  · split
    · exact ⟨record_moves hl h hw _ _, record_held hl h hw _ _ _, .inl rfl, rfl,
        record_others hl h hw _ _⟩
    · exact hended _ _ _ rfl fun _ he ↦ (by cases he)
  · exact hended _ _ _ rfl fun _ he ↦ (by cases he)
  · exact .point (h.raised _)
  · split
    · next hfin =>
      obtain ⟨hm, ho, -⟩ := finish_moves hl h hw hfin
      exact .ended h hm ho rfl fun _ he ↦ (by cases he)
    · exact .point (h.raised _)

/-- The step to a wider scope. -/
theorem widen_stepped (hl : (ledgerOf db).Sound) (h : Held (ledgerOf db) run)
    {context : RecoveryContext} (hp : run.point = .expanding context) :
    Stepped (ledgerOf db) (ledgerOf (RecoveryWorkflow.widen db run context).1) run
      (RecoveryWorkflow.widen db run context).2 := by
  rw [RecoveryWorkflow.widen]
  split
  · exact .point (.ended h.fresh rfl fun _ he ↦ (by cases he))
  · split
    · next he => exact expand_stepped hl h hp he
    · exact .point (h.raised _)

/-- Every step of a run is a series of moves of its attempt. -/
theorem step_stepped (hl : (ledgerOf db).Sound) (h : Held (ledgerOf db) run)
    (services : WorkflowServices) (fingerprint : RecoveryContext → Nat) (now : Instant) :
    Stepped (ledgerOf db) (ledgerOf (run.step services fingerprint db now).1) run
      (run.step services fingerprint db now).2 := by
  have hstay : Stepped (ledgerOf db) (ledgerOf db) run run := ⟨.refl _, h, .inl rfl, rfl, rfl⟩
  rw [Run.step]
  split
  · next hp _ =>
    refine onward_stepped (fun context _ ↦ .point (h.move (by rw [hp]; rfl) ?_)) h.raised
    exact fun _ he ↦ (by cases he)
  · next hp _ =>
    refine onward_stepped (fun context _ ↦ .point (h.move (by rw [hp]; rfl) ?_)) h.raised
    exact fun _ he ↦ (by cases he)
  · next context hp => exact attempt_stepped hl h (by rw [hp]; rfl) services context
  · next context hp => exact widen_stepped hl h hp
  · next context hp =>
    have hmove : ∀ point, (∀ context, point ≠ .expanding context) →
        Held (ledgerOf db) { run with point := point } :=
      fun point he ↦ h.move (by rw [hp]; rfl) he
    exact onward_stepped (fun buffered _ ↦ .point (hmove _ fun _ he ↦ (by cases he)))
      fun error ↦ hmove _ fun _ he ↦ (by cases he)
  · next context hp =>
    have hmove : ∀ point, (∀ context, point ≠ .expanding context) →
        Held (ledgerOf db) { run with point := point } :=
      fun point he ↦ h.move (by rw [hp]; rfl) he
    exact onward_stepped (fun contexts _ ↦ .point (hmove _ fun _ he ↦ (by cases he)))
      fun error ↦ hmove _ fun _ he ↦ (by cases he)
  · next contexts maxCandidates hp _ =>
    have hw : working run.point = true := by rw [hp]; rfl
    refine onward_stepped ?_ fun error ↦ h.move hw fun _ he ↦ (by cases he)
    intro finished hg
    have hclosed := generate_closed hl h hw hg
    exact .ended h hclosed.moves hclosed.others rfl fun _ he ↦ (by cases he)
  · exact hstay
  · next error hp =>
    have hw : working run.point = true := by rw [hp]; rfl
    exact .ended h (recordFailure_moves hl h hw) (recordFailure_others hl h hw) rfl
      fun _ he ↦ (by cases he)
  · exact hstay
  · exact hstay

end PenroseRoute.Lifecycle

namespace PenroseRoute.System

open PenroseRoute.Db PenroseRoute.Lib PenroseRoute.Recovery PenroseRoute.Lifecycle

variable {s : SysState} {run : Run}

/-! ### The limits of batches -/

/-- A step that opens no batch adds no plan, or publishes a candidate without options. -/
structure Unopened (s : SysState) (run : Run) (next : Database × Run) : Prop where
  opened : s.openedBatch run next.2 = []
  pending : (ledgerOf next.1).plans.length ≤ (ledgerOf s.db).plans.length ∨
    ∃ attempt ∈ (ledgerOf next.1).attempts, attempt.incidentId = run.incidentId ∧
      attempt.isPending = true ∧ attempt.options = none

/-- A run that does not choose opens no batch. -/
theorem openedBatch_eq_nil (hp : ∀ contexts, run.point ≠ .choosing contexts) (next : Run) :
    s.openedBatch run next = [] := by
  rw [SysState.openedBatch]
  split
  · next contexts _ hc _ _ => exact absurd hc (hp contexts)
  · rfl

/-- A step that does not choose opens no batch. -/
theorem unopened_of_same {next : Database × Run} (hp : ∀ contexts, run.point ≠ .choosing contexts)
    (hplans : (ledgerOf next.1).plans = (ledgerOf s.db).plans) : Unopened s run next :=
  ⟨openedBatch_eq_nil hp next.2, .inl (Nat.le_of_eq (congrArg List.length hplans))⟩

/-- A step that chooses nothing opens no candidate. -/
theorem unopened_onward {α : Type} {outcome : Except AppError α} {failed : AppError → RunPoint}
    {next : α → RunPoint} (hp : ∀ contexts, run.point ≠ .choosing contexts) :
    Unopened s run (run.onward s.db outcome failed fun a ↦
      (s.db, { run with point := next a })) := by
  cases outcome <;> exact unopened_of_same hp rfl

/-- A single attempt opens no batch. -/
theorem unopened_attempt (hl : (ledgerOf s.db).Sound) (h : Held (ledgerOf s.db) run)
    {context : RecoveryContext} (hp : run.point = .attempting context)
    (services : WorkflowServices) :
    Unopened s run (RecoveryWorkflow.attempt services s.db run context) := by
  have hnot : ∀ contexts, run.point ≠ .choosing contexts := fun _ hc ↦ by rw [hp] at hc; cases hc
  refine ⟨openedBatch_eq_nil hnot _, ?_⟩
  rw [RecoveryWorkflow.attempt]
  split
  · exact .inl (Nat.le_refl _)
  · exact .inl (Nat.le_refl _)
  · exact .inl (Nat.le_refl _)
  · exact .inl (Nat.le_refl _)
  · split
    · next hfin =>
      obtain ⟨-, -, attempt, ha, hof, hpending, hnone⟩ :=
        finish_moves hl h (by rw [hp]; rfl) hfin
      exact .inr ⟨attempt, ha, hof.incidentId, hpending, hnone⟩
    · exact .inl (Nat.le_refl _)

/-- A wider scope opens no batch. -/
theorem unopened_widen {context : RecoveryContext} (hp : run.point = .expanding context) :
    Unopened s run (RecoveryWorkflow.widen s.db run context) := by
  have hnot : ∀ contexts, run.point ≠ .choosing contexts := fun _ hc ↦ by rw [hp] at hc; cases hc
  refine unopened_of_same hnot ?_
  rw [RecoveryWorkflow.widen]
  split
  · rfl
  · split
    · next scope _ expanded he =>
      obtain ⟨-, he⟩ := unit_bind_eq_ok.mp he
      obtain ⟨wider, -, he⟩ := bind_eq_ok.mp he
      obtain ⟨reserved, hr, he⟩ := bind_eq_ok.mp he
      cases he
      obtain ⟨-, rfl⟩ := addRecoveryPlan_ok hr
      rfl
    · rfl

/-- The next step of a run opens no batch or closes the one it opens within its limit. -/
theorem step_opened (hl : (ledgerOf s.db).Sound) (h : Held (ledgerOf s.db) run)
    (services : WorkflowServices) (fingerprint : RecoveryContext → Nat) (now : Instant) :
    Unopened s run (run.step services fingerprint s.db now) ∨ ∃ maxCandidates,
      s.openedBatch run (run.step services fingerprint s.db now).2 =
        [(s.db.nextId, maxCandidates)] ∧
      BatchClosed (ledgerOf s.db) (ledgerOf (run.step services fingerprint s.db now).1) run
        s.db.nextId maxCandidates := by
  rw [Run.step]
  split
  · next hp _ => exact .inl (unopened_onward fun _ hc ↦ by rw [hp] at hc; cases hc)
  · next hp _ => exact .inl (unopened_onward fun _ hc ↦ by rw [hp] at hc; cases hc)
  · next context hp => exact .inl (unopened_attempt hl h hp services)
  · next context hp => exact .inl (unopened_widen hp)
  · next context hp => exact .inl (unopened_onward fun _ hc ↦ by rw [hp] at hc; cases hc)
  · next context hp => exact .inl (unopened_onward fun _ hc ↦ by rw [hp] at hc; cases hc)
  · next contexts maxCandidates hp hw =>
    cases hg : RecoveryOptionsWorkflow.generate services.toServices fingerprint s.db run
        maxCandidates contexts with
    | ok finished =>
      refine .inr ⟨maxCandidates, ?_, generate_closed hl h (by rw [hp]; rfl) hg⟩
      rw [Run.onward, SysState.openedBatch, hp, hw]
    | error error =>
      refine .inl ⟨?_, .inl (Nat.le_refl _)⟩
      rw [Run.onward, SysState.openedBatch, hp, hw]
  · next contexts hp hw =>
    refine .inl ⟨?_, .inl (Nat.le_refl _)⟩
    rw [SysState.openedBatch, hp, hw]
  · next error hp =>
    exact .inl (unopened_of_same (fun _ hc ↦ by rw [hp] at hc; cases hc) rfl)
  · next hp => exact .inl (unopened_of_same (fun _ hc ↦ by rw [hp] at hc; cases hc) rfl)
  · next error hp => exact .inl (unopened_of_same (fun _ hc ↦ by rw [hp] at hc; cases hc) rfl)

/-! ### The invariant -/

/-- What holds of the lifecycle in every reachable state: the ledger is sound, every run has an
attempt of its own, and no batch has more pending attempts than its limit. -/
structure LifecycleOk (s : SysState) : Prop where
  sound : (ledgerOf s.db).Sound
  held : ∀ run ∈ s.runs, Held (ledgerOf s.db) run
  distinct : (s.runs.map (·.attemptId)).Nodup
  limitsFresh : ∀ entry ∈ s.limits, entry.1 < s.db.nextId
  limitsOnce : (s.limits.map (·.1)).Nodup
  limited : ∀ attempt ∈ s.db.recoveryPlans, attempt.isPending = true → ∀ batchId,
    attempt.options.map (·.batchId) = some batchId → ∃ maxCandidates,
      (batchId, maxCandidates) ∈ s.limits ∧
        (ledgerOf s.db).pendingCount attempt.incidentId ≤ maxCandidates

namespace LifecycleOk

/-- Where nothing gets pending, the limits hold on. -/
theorem limited_of_calm (h : LifecycleOk s) {db : Database} (hc : Calm (ledgerOf s.db)
    (ledgerOf db)) {attempt : RecoveryPlan} (ha : attempt ∈ db.recoveryPlans)
    (hp : attempt.isPending = true) {batchId : UUID}
    (hb : attempt.options.map (·.batchId) = some batchId) : ∃ maxCandidates,
      (batchId, maxCandidates) ∈ s.limits ∧
        (ledgerOf db).pendingCount attempt.incidentId ≤ maxCandidates := by
  obtain ⟨m, hm, hle⟩ := h.limited attempt (hc.pending attempt ha hp) hp batchId hb
  exact ⟨m, hm, Nat.le_trans (hc.count attempt.incidentId) hle⟩

/-- A transaction of no run that adds no plan. -/
theorem move (h : LifecycleOk s) {s' : SysState} (m : Moves none (ledgerOf s.db) (ledgerOf s'.db))
    (hplans : s'.db.plans.length = s.db.plans.length) (hruns : s'.runs = s.runs)
    (hlimits : s'.limits = s.limits) : LifecycleOk s' where
  sound := m.sound h.sound
  held run hr := by
    rw [hruns] at hr
    exact (h.held run hr).keep m h.sound.numbered fun hn ↦ (by cases hn)
  distinct := by
    rw [hruns]
    exact h.distinct
  limitsFresh entry he := by
    rw [hlimits] at he
    exact Nat.lt_of_lt_of_le (h.limitsFresh entry he) m.nextId_le
  limitsOnce := by
    rw [hlimits]
    exact h.limitsOnce
  limited attempt ha hp batchId hb := by
    rw [hlimits]
    refine h.limited_of_calm (m.calm ?_) ha hp hb
    rw [ledgerOf, ledgerOf, List.length_map, List.length_map, hplans]

/-- A transaction that starts a run. -/
theorem start (h : LifecycleOk s) {db : Database} {run : Run}
    (hs : Starts (ledgerOf s.db) (ledgerOf db) run)
    (hplans : db.plans.length = s.db.plans.length) :
    LifecycleOk { s with db := db, runs := s.runs ++ [run] } := by
  have hmoved : LifecycleOk { s with db := db } := h.move hs.moves hplans rfl rfl
  refine { hmoved with held := ?_, distinct := ?_ }
  · intro other ho
    rcases List.mem_append.mp ho with ho | ho
    · exact hmoved.held other ho
    · rw [List.mem_singleton.mp ho]
      exact hs.held
  · rw [List.map_append, List.nodup_append]
    refine ⟨h.distinct, List.nodup_singleton _, ?_⟩
    intro a ha b hb
    obtain ⟨other, ho, rfl⟩ := List.mem_map.mp ha
    rw [List.mem_singleton.mp hb]
    exact Nat.ne_of_lt (Nat.lt_of_lt_of_le (h.held other ho).fresh hs.new)

/-- The next transaction of a run. -/
theorem continueRun (h : LifecycleOk s) {index : Nat} {run : Run} (hrun : s.runs[index]? = some run)
    (services : WorkflowServices) (fingerprint : RecoveryContext → Nat) (now : Instant) :
    LifecycleOk { s with
      db := (run.step services fingerprint s.db now).1
      runs := s.runs.set index (run.step services fingerprint s.db now).2
      limits := s.limits ++ s.openedBatch run (run.step services fingerprint s.db now).2 } := by
  have hheld := h.held run (List.mem_of_getElem? hrun)
  have hstep := step_stepped h.sound hheld services fingerprint now
  have hopen := step_opened h.sound hheld services fingerprint now
  generalize run.step services fingerprint s.db now = next at hstep hopen
  have hle := hstep.moves.nextId_le
  refine ⟨hstep.moves.sound h.sound, ?_, ?_, ?_, ?_, ?_⟩
  · intro other ho
    rcases mem_set_key h.distinct hrun ho with rfl | ⟨hmem, hne⟩
    · exact hstep.held
    · refine (h.held other hmem).keep hstep.moves h.sound.numbered fun he ↦ hne ?_
      rw [Option.some.injEq] at he
      exact he.symm
  · refine nodup_set_key h.distinct hrun (hstep.attempt.imp_right fun hnew hmem ↦ ?_)
    obtain ⟨other, ho, he⟩ := List.mem_map.mp hmem
    have hfresh : other.attemptId < s.db.nextId := (h.held other ho).fresh
    rw [he] at hfresh
    exact absurd hnew (Nat.not_le.mpr hfresh)
  · intro entry he
    rcases List.mem_append.mp he with he | he
    · exact Nat.lt_of_lt_of_le (h.limitsFresh entry he) hle
    · rcases hopen with hun | ⟨m, ho, hclosed⟩
      · rw [hun.opened] at he
        cases he
      · rw [ho, List.mem_singleton] at he
        rw [he]
        exact hclosed.opened
  · rcases hopen with hun | ⟨m, ho, hclosed⟩
    · rw [hun.opened, List.append_nil]
      exact h.limitsOnce
    · rw [ho, List.map_append, List.nodup_append]
      refine ⟨h.limitsOnce, List.nodup_singleton _, ?_⟩
      intro a ha b hb
      obtain ⟨entry, he, rfl⟩ := List.mem_map.mp ha
      rw [List.mem_singleton.mp hb]
      exact Nat.ne_of_lt (h.limitsFresh entry he)
  · intro attempt ha hp batchId hb
    by_cases hne : attempt.incidentId ≠ run.incidentId
    · obtain ⟨hmem, hcount⟩ := hstep.other_pending ha hne
      obtain ⟨m, hm, hle⟩ := h.limited attempt hmem hp batchId hb
      refine ⟨m, List.mem_append_left _ hm, ?_⟩
      rw [hcount]
      exact hle
    · rw [not_not] at hne
      rcases hopen with ⟨ho, hplans | ⟨single, hs, hi, hsp, hnone⟩⟩ | ⟨m, ho, hclosed⟩
      · rw [ho, List.append_nil]
        exact h.limited_of_calm (hstep.moves.calm hplans) ha hp hb
      · have hsound := hstep.moves.sound h.sound
        have halone := pending_alone hsound hs ha hsp hp (hne.trans hi.symm) (by rw [hnone]; rfl)
        rw [halone, hnone] at hb
        cases hb
      · have he := hclosed.batch attempt ha hne hp
        rw [hb, Option.some.injEq] at he
        rw [he, hne, ho]
        exact ⟨m, List.mem_append_right _ (List.mem_singleton.mpr rfl), hclosed.limit⟩

/-- A transaction that the ledger does not see. -/
theorem same (h : LifecycleOk s) {s' : SysState} (hledger : ledgerOf s'.db = ledgerOf s.db)
    (hruns : s'.runs = s.runs) (hlimits : s'.limits = s.limits) : LifecycleOk s' := by
  refine h.move ?_ ?_ hruns hlimits
  · rw [hledger]
    exact .refl _
  · have hplans := congrArg (fun l : Ledger ↦ l.plans.length) hledger
    simpa [ledgerOf] using hplans

/-- Every transaction keeps the lifecycle. -/
theorem apply (h : LifecycleOk s) (settings : Settings) (action : Action) :
    LifecycleOk (s.apply settings action) := by
  cases action with
  | arrive stopId occurredAt =>
    exact SysState.commit_ind h fun _ hr ↦ h.same (ledgerOf_transition hr) rfl rfl
  | startService stopId occurredAt =>
    exact SysState.commit_ind h fun _ hr ↦ h.same (ledgerOf_transition hr) rfl rfl
  | complete stopId occurredAt =>
    refine SysState.commit_ind h fun r hr ↦ ?_
    obtain ⟨hdb, hruns, hlimits, -⟩ := s.noteCompletion_eq stopId { s with db := r.1 }
    refine h.same ?_ hruns hlimits
    rw [hdb]
    exact ledgerOf_transition hr
  | advanceExecution orderId target =>
    exact SysState.commit_ind h fun _ hr ↦ h.same (ledgerOf_advanceExecution hr) rfl rfl
  | refreshAlerts riskOf => exact h.same rfl rfl rfl
  | reportUnavailable businessDate vehicleId eventTime location =>
    refine SysState.commit_ind h ?_
    rintro ⟨db, incidentId⟩ hr
    refine h.move (reportUnavailable_moves hr) ?_ rfl rfl
    obtain ⟨context, locationId, -, -, -, -, he⟩ :=
      Incidents.VehicleIncidentWorkflow.reportUnavailable_ok hr
    rw [he]
    rfl
  | assessDelay businessDate merchantId updatedReadyAt eventTime explicitIncident =>
    refine SysState.commit_ind h ?_
    rintro ⟨db, incidentId⟩ hr
    refine h.move (assessDelay_moves hr) ?_ rfl rfl
    rcases Incidents.MerchantDelayWorkflow.assessDelay_ok hr with
      he | ⟨context, incident, -, -, -, -, -, he | he⟩
    · rw [he]
    · rw [he]
    · rw [he]
      exact length_updateWhere _ _ _
  | startRecovery incidentId now =>
    exact SysState.commit_ind h fun _ hr ↦
      h.start (start_moves h.sound hr) (start_plans hr).length_eq
  | startOptions incidentId maxCandidates regenerate now =>
    exact SysState.commit_ind h fun _ hr ↦
      h.start (startOptions_moves h.sound hr) (startOptions_plans hr).length_eq
  | continueRun index services now =>
    rw [SysState.apply]
    split
    · exact h
    · next run hrun => exact h.continueRun hrun services settings.fingerprint now
  | decide services recoveryId decision reason now =>
    exact SysState.commit_ind h fun _ hr ↦
      h.move (decide_moves h.sound hr) (decide_plans hr).length_eq rfl rfl
  | modify recoveryId reason =>
    exact SysState.commit_ind h fun _ hr ↦
      h.start (modify_moves h.sound hr) (modify_plans hr).length_eq

end LifecycleOk

end PenroseRoute.System
