import PenroseRoute.Recovery.Options

/-!
# The agent mode

Models `execute_agent_attempt` of `backend/app/modules/recovery/orchestration.py` and the graph
that it runs, `backend/app/integrations/agent/graph.py` and `tools.py`. The graph library may raise
before each node and behind the last one, the explanation may be anything, and the calls of
`execute_recovery` may answer differently each time. What is assigned before an exception stays
assigned, so the memory of the objects is kept where an exception is caught.
-/

namespace PenroseRoute.Agent

open PenroseRoute.Db PenroseRoute.Lib PenroseRoute.Optimization PenroseRoute.Recovery
open PenroseRoute.Incidents

/-! ### Contracts -/

/-- A pydantic model refuses its fields. -/
def validationError : AppError := .uncaught "ValidationError"

/-- `VerifiedSummary`, `contracts.py:85`. -/
structure VerifiedSummary where
  assignedOrderCount : Nat
  unassignedOrderIds : List UUID
  changedRouteCount : Nat
  totalDistanceMeters : Nat
  totalDurationSeconds : Nat
  deriving DecidableEq, Repr

/-- `SolverResult`, `contracts.py:68`; its payload is the result that is serialized. -/
structure SolverReport where
  status : SolverStatus
  solutionPayload : Option SolverResult
  diagnosticCodes : List String
  deriving DecidableEq, Repr

/-- `ValidationReport`, `contracts.py:94`, without evidence. -/
structure ValidationReport where
  status : ValidationStatus
  summary : Option VerifiedSummary
  diagnosticCodes : List String
  deriving DecidableEq, Repr

/-- `Observation`, `contracts.py:176`. -/
structure Observation where
  solver : SolverReport
  validation : Option ValidationReport
  deriving DecidableEq, Repr

/-- `consistent_result`, `contracts.py:76`. -/
def SolverReport.check (report : SolverReport) : Except AppError SolverReport := do
  raiseFirst [((report.status == .feasible) != report.solutionPayload.isSome, validationError)]
  return report

/-- `verified_summary_only`, `contracts.py:101`. -/
def ValidationReport.check (report : ValidationReport) : Except AppError ValidationReport := do
  raiseFirst [((report.status == .valid) != report.summary.isSome, validationError)]
  return report

/-- `validation_lifecycle`, `contracts.py:181`. -/
def Observation.check (observation : Observation) : Except AppError Observation := do
  raiseFirst [((observation.solver.status == .feasible) != observation.validation.isSome,
    validationError)]
  return observation

/-- The checks of the `RecoveryContext` that the graph reads, `contracts.py:26`. -/
def checkAgentContext (attemptNo : Nat) (previousId : Option UUID) (context : RecoveryContext) :
    Except AppError Unit :=
  raiseFirst [
    (attemptNo == 0, validationError),
    (context.delaySeconds.any (· < 0), validationError),
    ((attemptNo == 1) != previousId.isNone, validationError),
    (!decide (context.impactSnapshots.map (·.orderId)).Nodup, validationError)]

/-! ### The capability -/

/-- The tools of the graph, in `ControlledTools.trace`. -/
inductive ToolName where
  | getRecoveryContext
  | solveReplanning
  | getSolverResult
  deriving DecidableEq, Repr

/-- What the objects of an attempt remember: the `Capability`, how often it has called
`execute_recovery`, and the `ControlledTools`. -/
structure Memory where
  started : Bool
  outcome : Option OrchestrationResult
  solverCalls : Nat
  observation : Option Observation
  trace : List ToolName
  deriving DecidableEq, Repr

/-- Before the graph runs. -/
def Memory.empty : Memory := ⟨false, none, 0, none, []⟩

/-- Code that may raise; the memory is kept when it does. -/
abbrev AgentM := EStateM AppError Memory

/-- Go on with a result, or raise. -/
def orThrow {α : Type} : Except AppError α → AgentM α
  | .ok a => pure a
  | .error error => throw error

/-- The report on a result, `orchestration.py:126`. -/
def solverReport (result : SolverResult) : SolverReport where
  status := result.status
  solutionPayload := if result.status = .feasible then some result else none
  diagnosticCodes := if result.diagnostic.any (· != "") then ["SOLVER_DIAGNOSTIC"] else []

/-- The orders that are delivered, `orchestration.py:139`. -/
def deliveredOrders (result : SolverResult) : List UUID :=
  (result.routes.flatMap fun route ↦
    (route.stops.filter (·.stopType == .delivery)).map (·.orderId)).dedup

/-- The report on a feasible result, `orchestration.py:135`. -/
def validationReport (outcome : OrchestrationResult) : ValidationReport where
  status := if outcome.validationIssues = [] then .valid else .invalid
  summary :=
    if outcome.validationIssues = [] then
      some {
        assignedOrderCount := (deliveredOrders outcome.solverResult).length
        unassignedOrderIds := outcome.solverResult.unassignedOrders.map (·.orderId)
        changedRouteCount := outcome.solverResult.routes.length
        totalDistanceMeters := outcome.solverResult.totalDistanceMeters
        totalDurationSeconds := outcome.solverResult.totalDurationSeconds }
    else none
  diagnosticCodes := outcome.validationIssues.map (·.code)

/-- What the capability reports of an outcome, `orchestration.py:125`. -/
def observe (outcome : OrchestrationResult) : Except AppError Observation := do
  let solver ← (solverReport outcome.solverResult).check
  if outcome.solverResult.status ≠ .feasible then
    Observation.check { solver := solver, validation := none }
  else
    let validation ← (validationReport outcome).check
    Observation.check { solver := solver, validation := some validation }

/-- `Capability.solve_replanning`, `orchestration.py:119`; `execute n` is the call number `n` of
`execute_recovery`. -/
def solveCapability (execute : Nat → Except AppError OrchestrationResult) : AgentM Observation := do
  let memory ← get
  match memory.outcome with
  | some outcome => orThrow (observe outcome)
  | none =>
    if memory.started then throw (.uncaught "RuntimeError")
    else
      modify fun memory ↦
        { memory with started := true, solverCalls := memory.solverCalls + 1 }
      let outcome ← orThrow (execute memory.solverCalls)
      modify fun memory ↦ { memory with outcome := some outcome }
      orThrow (observe outcome)

/-! ### The graph -/

/-- `ControlledTools.get_recovery_context`, `tools.py:18`. -/
def getRecoveryContext : AgentM Unit :=
  modify fun memory ↦ { memory with trace := memory.trace ++ [.getRecoveryContext] }

/-- `ControlledTools.solve_replanning`, `tools.py:22`. -/
def solveReplanning (execute : Nat → Except AppError OrchestrationResult) : AgentM Unit := do
  let memory ← get
  if memory.trace = [] then throw (.uncaught "RuntimeError")
  else if memory.observation.isSome then return ()
  else
    modify fun memory ↦ { memory with trace := memory.trace ++ [.solveReplanning] }
    let observation ← solveCapability execute
    modify fun memory ↦ { memory with observation := some observation }

/-- `ControlledTools.get_solver_result`, `tools.py:30`. -/
def getSolverResult : AgentM Observation := do
  let memory ← get
  match memory.observation with
  | none => throw (.uncaught "RuntimeError")
  | some observation =>
    modify fun memory ↦ { memory with trace := memory.trace ++ [.getSolverResult] }
    return observation

/-- Where the graph library can raise. -/
inductive GraphPoint where
  | readContext
  | runSolver
  | readResult
  | explain
  | finished
  deriving DecidableEq, Repr

/-- What the attempt takes from outside: the graph library, which may raise at any point, and the
node `explain`. -/
structure GraphServices where
  library : GraphPoint → Option AppError
  explain : Observation → Except AppError String

/-- The library goes on to a point. -/
def GraphServices.goOn (graph : GraphServices) (point : GraphPoint) : AgentM Unit :=
  match graph.library point with
  | none => pure ()
  | some error => throw error

/-- `run_agent`, `graph.py:62`: its four nodes, one after the other. -/
def runAgent (graph : GraphServices) (execute : Nat → Except AppError OrchestrationResult) :
    AgentM String := do
  graph.goOn .readContext
  getRecoveryContext
  graph.goOn .runSolver
  solveReplanning execute
  graph.goOn .readResult
  let observation ← getSolverResult
  graph.goOn .explain
  let explanation ← orThrow (graph.explain observation)
  graph.goOn .finished
  return explanation

/-- `source`, `orchestration.py:160`. -/
inductive AttemptSource where
  | template
  | templateFallback
  deriving DecidableEq, Repr

/-- `AgentAttemptExecution`, `orchestration.py:66`. -/
structure AgentAttemptExecution where
  outcome : Option OrchestrationResult
  explanation : String
  source : AttemptSource
  toolTrace : List ToolName
  deriving DecidableEq, Repr

/-- The handler of `execute_agent_attempt`, `orchestration.py:168`. -/
def recoverAttempt (execute : Nat → Except AppError OrchestrationResult) (fallbackSummary : String)
    (error : AppError) : AgentM AgentAttemptExecution := do
  let memory ← get
  if memory.started && memory.outcome.isNone then throw error
  else
    if memory.outcome.isNone then
      let _ ← solveCapability execute
    let memory ← get
    return ⟨memory.outcome, fallbackSummary, .templateFallback, memory.trace⟩

/-- `execute_agent_attempt` behind the checks of its context, `orchestration.py:75`. -/
def executeAgentAttempt (graph : GraphServices)
    (execute : Nat → Except AppError OrchestrationResult) (fallbackSummary : String) :
    AgentM AgentAttemptExecution :=
  tryCatch (do
      let explanation ← runAgent graph execute
      let memory ← get
      return ⟨memory.outcome, explanation, .template, memory.trace⟩)
    (recoverAttempt execute fallbackSummary)

/-! ### One call of the solver -/

variable {graph : GraphServices} {execute : Nat → Except AppError OrchestrationResult}
  {fallbackSummary : String} {outcome : OrchestrationResult}

private theorem solverReport_check (result : SolverResult) :
    (solverReport result).check = .ok (solverReport result) := by
  have hconsistent : ((solverReport result).status == .feasible) =
      (solverReport result).solutionPayload.isSome := by
    by_cases hs : result.status = .feasible <;> simp [solverReport, hs]
  rw [SolverReport.check, hconsistent, bne_self_eq_false]
  rfl

private theorem validationReport_check (outcome : OrchestrationResult) :
    (validationReport outcome).check = .ok (validationReport outcome) := by
  have hverified : ((validationReport outcome).status == .valid) =
      (validationReport outcome).summary.isSome := by
    by_cases hv : outcome.validationIssues = [] <;> simp [validationReport, hv]
  rw [ValidationReport.check, hverified, bne_self_eq_false]
  rfl

/-- The contracts admit what the capability reports. -/
theorem exists_observation (outcome : OrchestrationResult) :
    ∃ observation, observe outcome = .ok observation := by
  rw [observe, solverReport_check]
  by_cases hs : outcome.solverResult.status = .feasible
  · refine ⟨⟨solverReport outcome.solverResult, some (validationReport outcome)⟩, ?_⟩
    have hstatus : (solverReport outcome.solverResult).status = .feasible := hs
    simp only [bind, Except.bind, hs, ne_eq, not_true_eq_false, if_false, validationReport_check,
      Observation.check, hstatus]
    rfl
  · refine ⟨⟨solverReport outcome.solverResult, none⟩, ?_⟩
    have hstatus : ((solverReport outcome.solverResult).status == .feasible) = false :=
      beq_false_of_ne hs
    simp only [bind, Except.bind, ne_eq, hs, not_false_eq_true, if_true, Observation.check, hstatus]
    rfl

/-- What an attempt comes to when the first call of the solver answers with an outcome. -/
structure Attempted (graph : GraphServices) (fallbackSummary : String)
    (outcome : OrchestrationResult) (execution : AgentAttemptExecution) : Prop where
  solved : execution.outcome = some outcome
  trace : execution.toolTrace <+: [.getRecoveryContext, .solveReplanning, .getSolverResult]
  fallback : execution.source = .templateFallback → execution.explanation = fallbackSummary
  template : execution.source = .template →
    execution.toolTrace = [.getRecoveryContext, .solveReplanning, .getSolverResult] ∧
      ∃ observation, observe outcome = .ok observation ∧
        graph.explain observation = .ok execution.explanation

/-! #### Running code -/

@[simp] private theorem bind_run {α β : Type} (x : AgentM α) (f : α → AgentM β) (memory : Memory) :
    (x >>= f) memory = match x memory with
      | .ok a next => f a next
      | .error error next => .error error next := by
  change EStateM.bind x f memory = _
  rw [EStateM.bind]
  cases x memory <;> rfl

@[simp] private theorem map_run {α β : Type} (f : α → β) (x : AgentM α) (memory : Memory) :
    (f <$> x) memory = match x memory with
      | .ok a next => .ok (f a) next
      | .error error next => .error error next := by
  change EStateM.map f x memory = _
  rw [EStateM.map]
  cases x memory <;> rfl

@[simp] private theorem pure_run {α : Type} (a : α) (memory : Memory) :
    (pure a : AgentM α) memory = .ok a memory := rfl

@[simp] private theorem throw_run {α : Type} (error : AppError) (memory : Memory) :
    (throw error : AgentM α) memory = .error error memory := rfl

@[simp] private theorem get_run (memory : Memory) :
    (get : AgentM Memory) memory = .ok memory memory := rfl

@[simp] private theorem modify_run (f : Memory → Memory) (memory : Memory) :
    (modify f : AgentM Unit) memory = .ok () (f memory) := rfl

@[simp] private theorem orThrow_run {α : Type} (x : Except AppError α) (memory : Memory) :
    orThrow x memory = match x with
      | .ok a => .ok a memory
      | .error error => .error error memory := by
  cases x <;> rfl

@[simp] private theorem goOn_run (point : GraphPoint) (memory : Memory) :
    graph.goOn point memory = match graph.library point with
      | none => .ok () memory
      | some error => .error error memory := by
  rw [GraphServices.goOn]
  cases graph.library point <;> rfl

private theorem solveCapability_error {error : AppError} (he : execute 0 = .error error)
    (trace : List ToolName) : solveCapability execute ⟨false, none, 0, none, trace⟩ =
      .error error ⟨true, none, 1, none, trace⟩ := by
  simp [solveCapability, he]

private theorem solveCapability_ok {observation : Observation} (he : execute 0 = .ok outcome)
    (ho : observe outcome = .ok observation) (trace : List ToolName) :
    solveCapability execute ⟨false, none, 0, none, trace⟩ =
      .ok observation ⟨true, some outcome, 1, none, trace⟩ := by
  simp [solveCapability, he, ho]

private theorem recoverAttempt_before (error : AppError) (trace : List ToolName)
    (htrace : trace <+: [.getRecoveryContext]) :
    (∀ solverError, execute 0 = .error solverError → ∃ memory,
      recoverAttempt execute fallbackSummary error ⟨false, none, 0, none, trace⟩ =
        .error solverError memory ∧ memory.solverCalls = 1) ∧
    ∀ outcome, execute 0 = .ok outcome → ∃ execution memory,
      recoverAttempt execute fallbackSummary error ⟨false, none, 0, none, trace⟩ =
        .ok execution memory ∧ memory.solverCalls = 1 ∧
          Attempted graph fallbackSummary outcome execution := by
  constructor
  · intro solverError he
    exact ⟨⟨true, none, 1, none, trace⟩, by simp [recoverAttempt, solveCapability_error he], rfl⟩
  · intro outcome he
    obtain ⟨observation, ho⟩ := exists_observation outcome
    refine ⟨⟨some outcome, fallbackSummary, .templateFallback, trace⟩,
      ⟨true, some outcome, 1, none, trace⟩, by simp [recoverAttempt, solveCapability_ok he ho],
      rfl, rfl, ?_, fun _ ↦ rfl, fun hs ↦ (by cases hs)⟩
    exact htrace.trans ⟨[.solveReplanning, .getSolverResult], rfl⟩

private theorem recoverAttempt_behind (error : AppError) (outcome : OrchestrationResult)
    (observation : Option Observation) (trace : List ToolName)
    (htrace : trace <+: [.getRecoveryContext, .solveReplanning, .getSolverResult]) :
    ∃ execution memory, recoverAttempt execute fallbackSummary error
        ⟨true, some outcome, 1, observation, trace⟩ = .ok execution memory ∧
      memory.solverCalls = 1 ∧ Attempted graph fallbackSummary outcome execution :=
  ⟨⟨some outcome, fallbackSummary, .templateFallback, trace⟩,
    ⟨true, some outcome, 1, observation, trace⟩, by simp [recoverAttempt], rfl, rfl, htrace,
    fun _ ↦ rfl, fun hs ↦ (by cases hs)⟩

/-- Whatever the graph library and the explanation do, an attempt of the agent mode calls
`execute_recovery` exactly once: it raises what that call raises, and else it has its outcome. -/
theorem executeAgentAttempt_once (graph : GraphServices)
    (execute : Nat → Except AppError OrchestrationResult) (fallbackSummary : String) :
    (∀ error, execute 0 = .error error → ∃ memory,
      executeAgentAttempt graph execute fallbackSummary .empty = .error error memory ∧
        memory.solverCalls = 1) ∧
    ∀ outcome, execute 0 = .ok outcome → ∃ execution memory,
      executeAgentAttempt graph execute fallbackSummary .empty = .ok execution memory ∧
        memory.solverCalls = 1 ∧ Attempted graph fallbackSummary outcome execution := by
  have hraised : ∀ {error memory}, runAgent graph execute .empty = .error error memory →
      executeAgentAttempt graph execute fallbackSummary .empty =
        recoverAttempt execute fallbackSummary error memory := by
    intro error memory hrun
    change EStateM.tryCatch _ _ Memory.empty = _
    rw [EStateM.tryCatch, bind_run, hrun]
    rfl
  cases hread : graph.library .readContext with
  | some error =>
    have hrun : runAgent graph execute .empty = .error error .empty := by
      simp [runAgent, hread]
    rw [hraised hrun]
    exact recoverAttempt_before error [] (List.nil_prefix)
  | none =>
  cases hsolve : graph.library .runSolver with
  | some error =>
    have hrun : runAgent graph execute .empty =
        .error error ⟨false, none, 0, none, [.getRecoveryContext]⟩ := by
      simp [runAgent, hread, hsolve, getRecoveryContext, Memory.empty]
    rw [hraised hrun]
    exact recoverAttempt_before error _ (List.prefix_refl _)
  | none =>
  constructor
  · intro error he
    have hrun : runAgent graph execute .empty = .error error
        ⟨true, none, 1, none, [.getRecoveryContext, .solveReplanning]⟩ := by
      simp [runAgent, hread, hsolve, getRecoveryContext, solveReplanning, Memory.empty,
        solveCapability_error he]
    rw [hraised hrun]
    exact ⟨⟨true, none, 1, none, [.getRecoveryContext, .solveReplanning]⟩,
      by simp [recoverAttempt], rfl⟩
  · intro outcome he
    obtain ⟨observation, ho⟩ := exists_observation outcome
    have hfirst := solveCapability_ok he ho [.getRecoveryContext, .solveReplanning]
    have hbehind : ∀ error trace,
        trace <+: [.getRecoveryContext, .solveReplanning, .getSolverResult] →
        runAgent graph execute .empty =
          .error error ⟨true, some outcome, 1, some observation, trace⟩ →
        ∃ execution memory, executeAgentAttempt graph execute fallbackSummary .empty =
            .ok execution memory ∧
          memory.solverCalls = 1 ∧ Attempted graph fallbackSummary outcome execution := by
      intro error trace htrace hrun
      rw [hraised hrun]
      exact recoverAttempt_behind error outcome _ trace htrace
    cases hresult : graph.library .readResult with
    | some error =>
      refine hbehind error [.getRecoveryContext, .solveReplanning] ⟨[.getSolverResult], rfl⟩ ?_
      simp [runAgent, hread, hsolve, hresult, getRecoveryContext, solveReplanning, Memory.empty,
        hfirst]
    | none =>
    cases hexplain : graph.library .explain with
    | some error =>
      refine hbehind error _ (List.prefix_refl _) ?_
      simp [runAgent, hread, hsolve, hresult, hexplain, getRecoveryContext, solveReplanning,
        getSolverResult, Memory.empty, hfirst]
    | none =>
    cases htext : graph.explain observation with
    | error error =>
      refine hbehind error _ (List.prefix_refl _) ?_
      simp [runAgent, hread, hsolve, hresult, hexplain, htext, getRecoveryContext,
        solveReplanning, getSolverResult, Memory.empty, hfirst]
    | ok explanation =>
    cases hfinished : graph.library .finished with
    | some error =>
      refine hbehind error _ (List.prefix_refl _) ?_
      simp [runAgent, hread, hsolve, hresult, hexplain, htext, hfinished, getRecoveryContext,
        solveReplanning, getSolverResult, Memory.empty, hfirst]
    | none =>
      have hrun : runAgent graph execute .empty = .ok explanation
          ⟨true, some outcome, 1, some observation,
            [.getRecoveryContext, .solveReplanning, .getSolverResult]⟩ := by
        simp [runAgent, hread, hsolve, hresult, hexplain, htext, hfinished, getRecoveryContext,
          solveReplanning, getSolverResult, Memory.empty, hfirst]
      refine ⟨⟨some outcome, explanation, .template,
        [.getRecoveryContext, .solveReplanning, .getSolverResult]⟩,
        ⟨true, some outcome, 1, some observation,
          [.getRecoveryContext, .solveReplanning, .getSolverResult]⟩, ?_, rfl, rfl,
        List.prefix_refl _, fun hs ↦ (by cases hs), fun _ ↦ ⟨rfl, observation, ho, htext⟩⟩
      change EStateM.tryCatch _ _ Memory.empty = _
      rw [EStateM.tryCatch, bind_run, hrun]
      rfl

/-! ### The workflow in agent mode -/

/-- The `try` block of `_execute_attempts` in agent mode, `deterministic_workflow.py:172`. -/
def agentOutcome (graph : GraphServices) (services : Services) (attemptNo : Nat)
    (previousId : Option UUID) (fallbackSummary : String) (context : RecoveryContext) :
    Except AppError OrchestrationResult := do
  checkAgentContext attemptNo previousId context
  match executeAgentAttempt graph (fun _ ↦ executeRecovery services context) fallbackSummary
      .empty with
  | .ok execution _ => orRaise execution.outcome (.uncaught "AttributeError")
  | .error error _ => .error error

/-- The workflow that checks a context and then solves as the deterministic one does has exactly
the outcomes of the graph. -/
theorem orchestrate_agent (graph : GraphServices) (services : WorkflowServices) (attemptNo : Nat)
    (previousId : Option UUID) (fallbackSummary : String) (context : RecoveryContext)
    (evidence : DeliveryPlan → DeliveryPlan → Except AppError Unit) :
    RecoveryWorkflow.orchestrate { services with
      agent := some ⟨checkAgentContext attemptNo previousId, evidence⟩ } context =
        agentOutcome graph services.toServices attemptNo previousId fallbackSummary context := by
  obtain ⟨herror, hok⟩ := executeAgentAttempt_once graph
    (fun _ ↦ executeRecovery services.toServices context) fallbackSummary
  have hsolved : executeRecovery services.toServices context =
      match executeAgentAttempt graph (fun _ ↦ executeRecovery services.toServices context)
        fallbackSummary .empty with
      | .ok execution _ => orRaise execution.outcome (.uncaught "AttributeError")
      | .error error _ => .error error := by
    cases he : executeRecovery services.toServices context with
    | error error =>
      obtain ⟨memory, hrun, -⟩ := herror error he
      rw [he] at hrun
      rw [hrun]
    | ok outcome =>
      obtain ⟨execution, memory, hrun, -, hattempted⟩ := hok outcome he
      rw [he] at hrun
      rw [hrun]
      simp only [hattempted.solved, orRaise]
  rw [agentOutcome, ← hsolved]
  rfl

end PenroseRoute.Agent
