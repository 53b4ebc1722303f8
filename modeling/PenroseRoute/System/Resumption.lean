import PenroseRoute.System.Attempts

/-!
# Attempts that are resumed

The system with calls of `resume` that no `modify` makes, on any attempt at any time, and with
processes that end before their run does. The attempts of every incident stay in order as long as
no call of `resume` starts on an attempt that another call still works on: `modify`, the one caller
of `resume`, calls it on the attempt that it has just committed.
-/

namespace PenroseRoute.Recovery

/-- A call that has returned or raised. -/
def Run.ended (run : Run) : Bool :=
  match run.point with
  | .returned => true
  | .raised _ => true
  | _ => false

end PenroseRoute.Recovery

namespace PenroseRoute.System

open PenroseRoute.Db PenroseRoute.Lib PenroseRoute.Recovery PenroseRoute.Lifecycle

variable {settings : Settings} {s : SysState}

/-! ### Commands -/

/-- What can come next: a transaction of the system, `resume` on its own, or the end of the process
that a run is in. -/
inductive Command where
  | transact (action : Action)
  | resume (workflow : WorkflowClass) (recoveryPlanId : UUID) (now : Instant)
  | abandon (index : Nat)

namespace SysState

/-- Calls on an attempt that have ended are forgotten when another one starts on it. -/
def startResumed (s : SysState) (recoveryPlanId : UUID) (run : Run) : SysState :=
  { s with runs :=
      s.runs.filter (fun other ↦ !(other.attemptId == recoveryPlanId && other.ended)) ++ [run] }

/-- One command. -/
def perform (settings : Settings) (s : SysState) : Command → SysState
  | .transact action => s.apply settings action
  | .resume workflow recoveryPlanId now =>
    s.commit (RecoveryWorkflow.resume s.db workflow recoveryPlanId now)
      (s.startResumed recoveryPlanId)
  | .abandon index =>
    match s.runs[index]? with
    | none => s
    | some run =>
      { s with runs := s.runs.set index { run with point := .raised (.uncaught "SystemExit") } }

/-- A `resume` that succeeds starts on an attempt that no other call works on. -/
def ResumesAlone (s : SysState) : Command → Prop
  | .transact _ => True
  | .resume workflow recoveryPlanId now =>
    (RecoveryWorkflow.resume s.db workflow recoveryPlanId now).isOk = true →
      ∀ run ∈ s.runs, run.attemptId = recoveryPlanId → run.ended = true
  | .abandon _ => True

end SysState

open SysState

/-- The states of the runs of commands that are all allowed. -/
abbrev ReachableResumed (settings : Settings) (allowed : SysState → Command → Prop) :
    SysState → Prop :=
  Reachable (perform settings) Initial allowed

/-! ### Resumed attempts -/

/-- A resumed attempt is in flight, and the run is on it. -/
theorem resume_ok {db : Database} {workflow : WorkflowClass} {recoveryPlanId : UUID}
    {now : Instant} {run : Run}
    (h : RecoveryWorkflow.resume db workflow recoveryPlanId now = .ok run) :
    run.attemptId = recoveryPlanId ∧ (∀ context, run.point ≠ .expanding context) ∧
      ∃ attempt ∈ db.recoveryPlans, AttemptOf run attempt ∧ attempt.inFlight = true := by
  obtain ⟨attempt, ha, h⟩ := bind_eq_ok.mp h
  obtain ⟨context, hc, h⟩ := bind_eq_ok.mp h
  obtain ⟨checked, hchecked, hc⟩ := bind_eq_ok.mp hc
  obtain ⟨hguard, -⟩ := unit_bind_eq_ok.mp hc
  rw [orRaise_eq_ok] at ha hchecked
  rw [ha, Option.some.injEq] at hchecked
  subst hchecked
  rw [raiseFirst_cons_eq_ok, Bool.or_eq_false_iff, Bool.not_eq_false'] at hguard
  cases h
  obtain ⟨hmem, hid⟩ := recoveryPlan?_mem ha
  refine ⟨hid, ?_, attempt, hmem, ⟨rfl, rfl, rfl⟩, hguard.1.1⟩
  intro context hp
  cases workflow with
  | single => cases hp
  | options maxCandidates => cases hp

/-- A run on an attempt in flight. -/
theorem held_inFlight (h : (ledgerOf s.db).Sound) {run : Run} {attempt : RecoveryPlan}
    (ha : attempt ∈ s.db.recoveryPlans) (hof : AttemptOf run attempt)
    (hf : attempt.inFlight = true) (he : ∀ context, run.point ≠ .expanding context) :
    Held (ledgerOf s.db) run where
  fresh := by
    rw [← hof.id]
    exact h.numbered.attemptsFresh (keyOf attempt) (List.mem_map.mpr ⟨attempt, ha, rfl⟩)
  inFlight _ := ⟨attempt, ha, hof, hf⟩
  expanding context hp := absurd hp (he context)

namespace LifecycleOk

/-- A call of `resume` on an attempt that no other call works on. -/
theorem resume (h : LifecycleOk s) {workflow : WorkflowClass} {recoveryPlanId : UUID}
    {now : Instant} {run : Run}
    (hr : RecoveryWorkflow.resume s.db workflow recoveryPlanId now = .ok run)
    (halone : ∀ other ∈ s.runs, other.attemptId = recoveryPlanId → other.ended = true) :
    LifecycleOk (s.startResumed recoveryPlanId run) := by
  obtain ⟨hid, hexpanding, attempt, ha, hof, hf⟩ := resume_ok hr
  refine { h with held := ?_, distinct := ?_ }
  · intro other ho
    rcases List.mem_append.mp ho with ho | ho
    · exact h.held other (List.mem_filter.mp ho).1
    · rw [List.mem_singleton.mp ho]
      exact held_inFlight h.sound ha hof hf hexpanding
  · rw [SysState.startResumed, List.map_append, List.nodup_append]
    refine ⟨h.distinct.sublist (List.filter_sublist.map _), List.nodup_singleton _, ?_⟩
    intro a ha b hb
    obtain ⟨other, ho, rfl⟩ := List.mem_map.mp ha
    rw [List.mem_singleton.mp hb]
    intro (heq : other.attemptId = run.attemptId)
    rw [hid] at heq
    obtain ⟨hmem, hkept⟩ := List.mem_filter.mp ho
    rw [heq, beq_self_eq_true, halone other hmem heq] at hkept
    cases hkept

/-- A process that ends keeps the lifecycle. -/
theorem abandon (h : LifecycleOk s) {index : Nat} {run : Run} (hrun : s.runs[index]? = some run)
    (error : AppError) :
    LifecycleOk { s with runs := s.runs.set index { run with point := .raised error } } := by
  refine { h with held := ?_, distinct := ?_ }
  · intro other ho
    rcases mem_set_key h.distinct hrun ho with rfl | ⟨hmem, -⟩
    · exact (h.held run (List.mem_of_getElem? hrun)).raised error
    · exact h.held other hmem
  · exact nodup_set_key h.distinct hrun (.inl rfl)

/-- Every command keeps the lifecycle. -/
theorem perform (h : LifecycleOk s) (settings : Settings) {command : Command}
    (halone : s.ResumesAlone command) : LifecycleOk (s.perform settings command) := by
  cases command with
  | transact action => exact h.apply settings action
  | resume workflow recoveryPlanId now =>
    refine SysState.commit_ind h fun run hr ↦ h.resume hr (halone ?_)
    rw [hr]
    rfl
  | abandon index =>
    rw [SysState.perform]
    split
    · exact h
    · next run hrun => exact h.abandon hrun _

end LifecycleOk

/-- Every command keeps the history of approvals in order. -/
theorem ApprovalsOk.perform (h : ApprovalsOk s) (hl : LifecycleOk s) (settings : Settings)
    (command : Command) : ApprovalsOk (s.perform settings command) := by
  cases command with
  | transact action => exact h.apply hl settings action
  | resume workflow recoveryPlanId now =>
    exact SysState.commit_ind h fun _ _ ↦ ⟨h.approved, h.once⟩
  | abandon index =>
    rw [SysState.perform]
    split
    · exact h
    · exact ⟨h.approved, h.once⟩

/-- In every reachable state of the system the attempts of every incident are in order, as long as
`resume` starts on no attempt that another call works on. -/
theorem incident_lifecycle (h : ReachableResumed settings ResumesAlone s) (incidentId : UUID) :
    IncidentLifecycle s incidentId := by
  have hboth : LifecycleOk s ∧ ApprovalsOk s := by
    refine Reachable.invariant (I := fun s ↦ LifecycleOk s ∧ ApprovalsOk s) ?_ ?_ h
    · exact fun s hs ↦ ⟨.initial hs, .initial hs⟩
    · exact fun s command hs ha ↦
        ⟨hs.1.perform settings ha, hs.2.perform hs.1 settings command⟩
  exact hboth.1.incidentLifecycle hboth.2 incidentId

/-- Transactions of the system are commands. -/
theorem ReachableResumed.transactions {allowed : SysState → Command → Prop}
    (h : ReachableResumed settings allowed s) (actions : List Action)
    (ha : ∀ s action, allowed s (.transact action)) :
    ReachableResumed settings allowed (actions.foldl (apply settings) s) := by
  have hrun : ReachableResumed settings allowed
      ((actions.map Command.transact).foldl (perform settings) s) := by
    refine Reachable.run h _ fun s command hc ↦ ?_
    obtain ⟨action, -, rfl⟩ := List.mem_map.mp hc
    exact ha s action
  rw [List.foldl_map] at hrun
  exact hrun

/-! ### Attempts that are resumed once and twice -/

/-- A batch is modified, and the process of the call ends before it resumes its new attempt. -/
def modifiedThenAbandoned : SysState :=
  perform scenarioSettings
    (perform scenarioSettings (scenarioReview.foldl (apply scenarioSettings) scenarioStart)
      (.transact (.modify 101 "Earlier"))) (.abandon 1)

/-- Another call resumes the attempt, and its candidate is approved. -/
def resumedAlone : SysState :=
  let actions : List Action :=
    [.continueRun 1 scenarioServices 0, .continueRun 1 scenarioServices 0,
      .continueRun 1 scenarioServices 0,
      .decide scenarioServices.toServices 111 .approve "Good" 300000000]
  actions.foldl (apply scenarioSettings) (perform scenarioSettings modifiedThenAbandoned
    (.resume (.options twoCandidates) 111 300000000))

/-- The first attempt is modified and the resumed one is approved. -/
theorem incident_lifecycle_resumed :
    IncidentLifecycle resumedAlone 100 ∧
      (resumedAlone.db.attempts 100).map (fun attempt ↦
        (attempt.attemptNo, attempt.status, attempt.candidateDeliveryPlanId)) =
          [(1, .decided, some 103), (2, .decided, some 113)] ∧
      resumedAlone.approvals.map (·.recoveryPlanId) = [111] := by
  have hstart : ReachableResumed scenarioSettings ResumesAlone
      (scenarioReview.foldl (apply scenarioSettings) scenarioStart) :=
    .transactions (.init scenarioStart_initial) _ fun _ _ ↦ trivial
  have habandoned : ReachableResumed scenarioSettings ResumesAlone modifiedThenAbandoned :=
    .step _ (.step _ hstart trivial) trivial
  have halone : modifiedThenAbandoned.ResumesAlone
      (.resume (.options twoCandidates) 111 300000000) := by
    have hended : ∀ run ∈ modifiedThenAbandoned.runs, run.attemptId = 111 →
        run.ended = true := by decide +kernel
    exact fun _ ↦ hended
  have hreachable : ReachableResumed scenarioSettings ResumesAlone resumedAlone :=
    .transactions (.step _ habandoned halone) _ fun _ _ ↦ trivial
  exact ⟨incident_lifecycle hreachable 100, by decide +kernel, by decide +kernel⟩

/-- The first attempt has been infeasible, and a call of `start` works on the second one. -/
def startedWider : SysState :=
  let actions : List Action :=
    [.reportUnavailable 738000 20 200000000 .recorded, .startRecovery 100 300000000,
      .continueRun 0 scenarioServices 0, .continueRun 0 scenarioServices 0]
  actions.foldl (apply scenarioSettings) scenarioStart

/-- The second attempt is resumed meanwhile; the first call publishes it, and a dispatcher modifies
it before the other call publishes it as well. -/
def resumedTwice : SysState :=
  let actions : List Action :=
    [.continueRun 0 scenarioServices 0, .modify 102 "Earlier", .continueRun 1 scenarioServices 0]
  actions.foldl (apply scenarioSettings)
    (perform scenarioSettings startedWider (.resume .single 102 300000000))

/-- An attempt that two calls work on can be pending while its successor is in flight. -/
theorem resumed_twice :
    ReachableResumed scenarioSettings (fun _ _ ↦ True) resumedTwice ∧
      ¬ IncidentLifecycle resumedTwice 100 := by
  refine ⟨?_, fun h ↦ ?_⟩
  · refine ReachableResumed.transactions (.step _ ?_ trivial) _ fun _ _ ↦ trivial
    exact ReachableResumed.transactions (.init scenarioStart_initial) _ fun _ _ ↦ trivial
  · have hboth : ∃ a ∈ resumedTwice.db.attempts 100, ∃ b ∈ resumedTwice.db.attempts 100,
        a.inFlight = true ∧ b.isPending = true := by decide +kernel
    obtain ⟨a, ha, b, hb, hf, hp⟩ := hboth
    rw [h.inFlightAlone a ha b hb hf] at hp
    cases hp

end PenroseRoute.System
