import PenroseRoute.Lifecycle.Persisted
import PenroseRoute.Recovery.ScopeGrowth

/-!
# Scope expansion

The loop of `_execute_attempts`, `deterministic_workflow.py:161`, whatever its environment
brings: before every transaction the database, the services and the time may be any others. The
loop ends, tries wider and wider scopes, and persists at most one candidate.
-/

namespace PenroseRoute.Lifecycle

open PenroseRoute.Db PenroseRoute.Lib PenroseRoute.Recovery PenroseRoute.Optimization
open PenroseRoute.Incidents

/-! ### Runs under an oracle -/

/-- What one transaction of a run finds. -/
structure Turn where
  services : WorkflowServices
  fingerprint : RecoveryContext → Nat
  db : Database
  now : Instant

/-- The next transaction of a run. -/
def Turn.step (turn : Turn) (run : Run) : Database × Run :=
  run.step turn.services turn.fingerprint turn.db turn.now

/-- A call of `_execute_attempts` after as many transactions. -/
def executeAttempts (turns : Nat → Turn) (run : Run) : Nat → Run
  | 0 => run
  | n + 1 => ((turns n).step (executeAttempts turns run n)).2

/-- The call has returned or raised. -/
def isOver : RunPoint → Bool
  | .returned => true
  | .raised _ => true
  | _ => false

/-- The solver leaves orders of the context over: it says INFEASIBLE, or its FEASIBLE result does
not assign all of them, or it is not asked as a vehicle with orders aboard is missing. -/
def LeavesOrders (services : WorkflowServices) (context : RecoveryContext) : Prop :=
  (∀ agent ∈ services.agent, agent.prepare context = .ok ()) ∧
    ∃ matrix input, services.buildDistanceTimeMatrix context.locations = .ok matrix ∧
      buildRecoverySolverInput context matrix = .ok input ∧
      (missesVehicle input = true ∨ (services.solve input).status = .infeasible ∨
        (services.solve input).status = .feasible ∧ (services.solve input).unassignedOrders ≠ [])

variable {services : WorkflowServices} {fingerprint : RecoveryContext → Nat} {db : Database}
  {now : Instant} {run : Run} {context : RecoveryContext} {turns : Nat → Turn}

/-! ### Steps -/

/-- A result is INFEASIBLE once all orders have to be assigned. -/
theorem requireAllRecoveryOrdersAssigned_infeasible {result : SolverResult} :
    (requireAllRecoveryOrdersAssigned result).status = .infeasible ↔
      result.status = .infeasible ∨ result.status = .feasible ∧ result.unassignedOrders ≠ [] := by
  unfold requireAllRecoveryOrdersAssigned
  cases hs : result.status with
  | feasible =>
    by_cases hu : result.unassignedOrders = [] <;> simp [hs, hu, infeasible]
  | infeasible => simp [hs]
  | error => simp [hs]

/-- A run solves as `execute_recovery` does, once the agent has accepted the context. -/
theorem orchestrate_eq_ok {outcome : OrchestrationResult} :
    RecoveryWorkflow.orchestrate services context = .ok outcome ↔
      (∀ agent ∈ services.agent, agent.prepare context = .ok ()) ∧
        executeRecovery services.toServices context = .ok outcome := by
  unfold RecoveryWorkflow.orchestrate
  cases services.agent with
  | none => simp
  | some agent =>
    dsimp only
    rw [unit_bind_eq_ok]
    simp

/-- `execute_recovery` ends INFEASIBLE exactly when orders are left over. -/
theorem executeRecovery_infeasible {services : Services} :
    (∃ outcome, executeRecovery services context = .ok outcome ∧
        outcome.solverResult.status = .infeasible) ↔
      ∃ matrix input, services.buildDistanceTimeMatrix context.locations = .ok matrix ∧
        buildRecoverySolverInput context matrix = .ok input ∧
        (missesVehicle input = true ∨ (services.solve input).status = .infeasible ∨
          (services.solve input).status = .feasible ∧
            (services.solve input).unassignedOrders ≠ []) := by
  constructor
  · rintro ⟨outcome, h, hstatus⟩
    obtain ⟨matrix, hm, h⟩ := bind_eq_ok.mp h
    obtain ⟨input, hinput, h⟩ := bind_eq_ok.mp h
    refine ⟨matrix, input, hm, hinput, ?_⟩
    by_cases hmiss : missesVehicle input
    · exact .inl hmiss
    · rw [if_neg hmiss] at h
      cases h
      exact .inr (requireAllRecoveryOrdersAssigned_infeasible.mp hstatus)
  · rintro ⟨matrix, input, hm, hinput, hleft⟩
    rw [executeRecovery, hm]
    change ∃ outcome, (buildRecoverySolverInput context matrix >>= _) = _ ∧ _
    rw [hinput]
    change ∃ outcome, (if missesVehicle input then _ else _) = _ ∧ _
    by_cases hmiss : missesVehicle input
    · rw [if_pos hmiss]
      exact ⟨_, rfl, rfl⟩
    · rw [if_neg hmiss]
      exact ⟨_, rfl, requireAllRecoveryOrdersAssigned_infeasible.mpr (hleft.resolve_left hmiss)⟩

/-- An attempt is infeasible exactly when the solver leaves orders over. -/
theorem solveAttempt_infeasible :
    RecoveryWorkflow.solveAttempt services context = .infeasible ↔
      LeavesOrders services context := by
  rw [LeavesOrders, ← executeRecovery_infeasible]
  have houtcome : RecoveryWorkflow.solveAttempt services context = .infeasible ↔
      ∃ outcome, RecoveryWorkflow.orchestrate services context = .ok outcome ∧
        outcome.solverResult.status = .infeasible := by
    unfold RecoveryWorkflow.solveAttempt
    cases RecoveryWorkflow.orchestrate services context with
    | error error => simp
    | ok outcome =>
      simp only [Except.ok.injEq, exists_eq_left']
      split
      · next hs => simp [hs]
      · next hs => simp [hs]
      · next hs =>
        rw [hs]
        split
        · simp
        · split <;> simp
  rw [houtcome]
  constructor
  · rintro ⟨outcome, ho, hs⟩
    obtain ⟨hagent, hexec⟩ := orchestrate_eq_ok.mp ho
    exact ⟨hagent, outcome, hexec, hs⟩
  · rintro ⟨hagent, outcome, hexec, hs⟩
    exact ⟨outcome, orchestrate_eq_ok.mpr ⟨hagent, hexec⟩, hs⟩

/-- An attempt ends the run, unless the solver leaves orders over and there is a wider scope. -/
theorem attempt_point :
    isOver (RecoveryWorkflow.attempt services db run context).2.point = true ∨
      (RecoveryWorkflow.attempt services db run context).2.point = .expanding context ∧
        LeavesOrders services context ∧ (nextReplanningScope context.scope).isSome := by
  unfold RecoveryWorkflow.attempt
  split
  · exact .inl rfl
  · next hinfeasible =>
    dsimp only
    split
    · next hnext => exact .inr ⟨rfl, solveAttempt_infeasible.mp hinfeasible, hnext⟩
    · exact .inl rfl
  · exact .inl rfl
  · exact .inl rfl
  · split <;> exact .inl rfl

/-- Where orders are left over and there is a wider scope, the run expands. -/
theorem attempt_expands (hleft : LeavesOrders services context)
    (hnext : (nextReplanningScope context.scope).isSome) :
    (RecoveryWorkflow.attempt services db run context).2.point = .expanding context := by
  unfold RecoveryWorkflow.attempt
  rw [solveAttempt_infeasible.mpr hleft]
  exact if_pos hnext

/-- An expansion ends the run or makes an attempt at the next scope. -/
theorem widen_point :
    isOver (RecoveryWorkflow.widen db run context).2.point = true ∨
      ∃ wider, (RecoveryWorkflow.widen db run context).2.point = .attempting wider ∧
        nextReplanningScope context.scope = some wider.scope := by
  unfold RecoveryWorkflow.widen
  split
  · exact .inl rfl
  · next scope hscope =>
    split
    · next expanded hexpand =>
      obtain ⟨-, h⟩ := unit_bind_eq_ok.mp hexpand
      obtain ⟨wider, hm, h⟩ := bind_eq_ok.mp h
      obtain ⟨reserved, -, h⟩ := bind_eq_ok.mp h
      cases h
      obtain ⟨incident, plan, -, -, hr⟩ := materializeRecoveryContext_ok hm
      exact .inr ⟨wider, rfl, by rw [hscope, hr.sameScope]⟩
    · exact .inl rfl

/-- A run that is over does nothing. -/
theorem step_over (turn : Turn) (h : isOver run.point = true) :
    turn.step run = (turn.db, run) := by
  unfold Turn.step Run.step
  cases hp : run.point with
  | returned => rfl
  | raised error => rfl
  | _ =>
    rw [hp] at h
    cases h

/-- The step of a run at an attempt. -/
theorem step_attempting (turn : Turn) (h : run.point = .attempting context) :
    turn.step run = RecoveryWorkflow.attempt turn.services turn.db run context := by
  unfold Turn.step Run.step
  rw [h]

/-- The step of a run at an expansion. -/
theorem step_expanding (turn : Turn) (h : run.point = .expanding context) :
    turn.step run = RecoveryWorkflow.widen turn.db run context := by
  unfold Turn.step Run.step
  rw [h]

/-- The step at an attempt ends the run, unless the solver leaves orders over and there is a
wider scope. -/
theorem attempting_next (turn : Turn) (h : run.point = .attempting context) :
    isOver (turn.step run).2.point = true ∨ (turn.step run).2.point = .expanding context ∧
      LeavesOrders turn.services context ∧ (nextReplanningScope context.scope).isSome := by
  rw [step_attempting turn h]
  exact attempt_point

/-- The step at an expansion ends the run or makes an attempt at the next scope. -/
theorem expanding_next (turn : Turn) (h : run.point = .expanding context) :
    isOver (turn.step run).2.point = true ∨ ∃ wider,
      (turn.step run).2.point = .attempting wider ∧
        nextReplanningScope context.scope = some wider.scope := by
  rw [step_expanding turn h]
  exact widen_point

/-! ### Candidates -/

/-- The last transaction appends one candidate. -/
theorem finish_appends {result : SolverResult} {roads : RoadRoutes} {db' : Database}
    (h : RecoveryWorkflow.finish services db run context result roads = .ok db') :
    ∃ candidate, db'.plans = db.plans ++ [candidate] := by
  obtain ⟨-, h⟩ := unit_bind_eq_ok.mp h
  obtain ⟨currentContext, -, h⟩ := bind_eq_ok.mp h
  obtain ⟨-, h⟩ := unit_bind_eq_ok.mp h
  obtain ⟨locked, -, h⟩ := bind_eq_ok.mp h
  obtain ⟨⟨created, candidate⟩, hc, h⟩ := bind_eq_ok.mp h
  obtain ⟨-, h⟩ := unit_bind_eq_ok.mp h
  obtain ⟨incident, -, h⟩ := bind_eq_ok.mp h
  cases h
  obtain ⟨-, rfl⟩ := createCandidate_ok hc
  exact ⟨candidate, rfl⟩

/-- An attempt leaves the plans as they are, or it is solved with all orders assigned and appends
one candidate, and the run is over. -/
theorem attempt_plans :
    (RecoveryWorkflow.attempt services db run context).1.plans = db.plans ∨
      (∃ result roads, RecoveryWorkflow.solveAttempt services context = .solved result roads ∧
        result.status = .feasible ∧ result.unassignedOrders = []) ∧
      (∃ candidate, (RecoveryWorkflow.attempt services db run context).1.plans =
        db.plans ++ [candidate]) ∧
      isOver (RecoveryWorkflow.attempt services db run context).2.point = true := by
  unfold RecoveryWorkflow.attempt
  split
  · exact .inl rfl
  · exact .inl rfl
  · exact .inl rfl
  · exact .inl rfl
  · next result roads hsolved =>
    split
    · next finished hfin =>
      obtain ⟨outcome, horchestrate, rfl, hstatus, hissues, -⟩ := solveAttempt_solved hsolved
      obtain ⟨_, _, -, haccepted⟩ :=
        executeRecovery_accepted (orchestrate_execute horchestrate) hstatus hissues
      exact .inr ⟨⟨_, roads, hsolved, hstatus, haccepted.complete⟩, finish_appends hfin, rfl⟩
    · exact .inl rfl

/-- An expansion leaves the plans as they are. -/
theorem widen_plans : (RecoveryWorkflow.widen db run context).1.plans = db.plans := by
  unfold RecoveryWorkflow.widen
  split
  · rfl
  · split
    · next expanded hexpand =>
      obtain ⟨-, h⟩ := unit_bind_eq_ok.mp hexpand
      obtain ⟨wider, -, h⟩ := bind_eq_ok.mp h
      obtain ⟨reserved, hreserved, h⟩ := bind_eq_ok.mp h
      cases h
      obtain ⟨-, hreserved⟩ := unit_bind_eq_ok.mp hreserved
      cases hreserved
      rfl
    · rfl

/-! ### Whole calls -/

/-- Where a call is after some transactions: at most two of them were spent on each scope. -/
def Spent (n : Nat) : RunPoint → Prop
  | .attempting context => n ≤ 2 * scopeRank context.scope
  | .expanding context =>
    n ≤ 2 * scopeRank context.scope + 1 ∧ (nextReplanningScope context.scope).isSome
  | point => isOver point = true

/-- Where a call is after an attempt at a scope: at none but wider ones. -/
def Beyond (scope : ReplanningScope) : RunPoint → Prop
  | .attempting context => scopeRank scope < scopeRank context.scope
  | .expanding context => scopeRank scope ≤ scopeRank context.scope
  | point => isOver point = true

/-- What is true of all points where a run is over. -/
theorem spent_of_over {n : Nat} {point : RunPoint} (h : isOver point = true) : Spent n point := by
  cases point <;> first | exact h | cases h

/-- A run that is over is beyond every scope. -/
theorem beyond_of_over {scope : ReplanningScope} {point : RunPoint} (h : isOver point = true) :
    Beyond scope point := by
  cases point <;> first | exact h | cases h

/-- A step spends at most one more transaction on the scopes so far. -/
theorem Spent.step {n : Nat} (turn : Turn) (h : Spent n run.point) :
    Spent (n + 1) (turn.step run).2.point := by
  cases hp : run.point with
  | attempting context =>
    rw [hp] at h
    rcases attempting_next turn hp with hover | ⟨hnext, -, hsome⟩
    · exact spent_of_over hover
    · rw [hnext]
      exact ⟨Nat.succ_le_succ h, hsome⟩
  | expanding context =>
    rw [hp] at h
    rcases expanding_next turn hp with hover | ⟨wider, hnext, hscope⟩
    · exact spent_of_over hover
    · rw [hnext]
      have hrank := scopeRank_next hscope
      have hspent := h.1
      change n + 1 ≤ 2 * scopeRank wider.scope
      omega
  | _ =>
    have hover : isOver run.point = true := by
      rw [hp] at h ⊢
      exact h
    rw [step_over turn hover]
    exact spent_of_over hover

/-- A step from beyond a scope stays beyond it. -/
theorem Beyond.step {scope : ReplanningScope} (turn : Turn) (h : Beyond scope run.point) :
    Beyond scope (turn.step run).2.point := by
  cases hp : run.point with
  | attempting context =>
    rw [hp] at h
    rcases attempting_next turn hp with hover | ⟨hnext, -, -⟩
    · exact beyond_of_over hover
    · rw [hnext]
      exact Nat.le_of_lt h
  | expanding context =>
    rw [hp] at h
    rcases expanding_next turn hp with hover | ⟨wider, hnext, hscope⟩
    · exact beyond_of_over hover
    · rw [hnext]
      have hrank := scopeRank_next hscope
      change scopeRank scope < scopeRank wider.scope
      rw [hrank]
      exact Nat.lt_succ_of_le h
  | _ =>
    have hover : isOver run.point = true := by
      rw [hp] at h ⊢
      exact h
    rw [step_over turn hover]
    exact beyond_of_over hover

/-- The transaction of a call changes the plans. -/
def AddsPlan (turns : Nat → Turn) (run : Run) (n : Nat) : Prop :=
  ((turns n).step (executeAttempts turns run n)).1.plans ≠ (turns n).db.plans

/-- The loop of `_execute_attempts`: it ends, widens the scope after an attempt that leaves orders
over and only then, and adds at most one plan, for a result that assigns all orders. -/
structure ExpandsScopes (turns : Nat → Turn) (run : Run) : Prop where
  ends : isOver (executeAttempts turns run 5).point = true
  widening : ∀ i j earlier later, i < j →
    (executeAttempts turns run i).point = .attempting earlier →
    (executeAttempts turns run j).point = .attempting later →
    scopeRank earlier.scope < scopeRank later.scope
  after : ∀ n wider, (executeAttempts turns run (n + 1)).point = .attempting wider →
    ∃ m context, n = m + 1 ∧ (executeAttempts turns run m).point = .attempting context ∧
      LeavesOrders (turns m).services context ∧
      nextReplanningScope context.scope = some wider.scope
  stops : ∀ n context, (executeAttempts turns run n).point = .attempting context →
    ¬ (LeavesOrders (turns n).services context ∧ (nextReplanningScope context.scope).isSome) →
    isOver (executeAttempts turns run (n + 1)).point = true
  adds : ∀ n, AddsPlan turns run n → ∃ context result roads candidate,
    (executeAttempts turns run n).point = .attempting context ∧
    RecoveryWorkflow.solveAttempt (turns n).services context = .solved result roads ∧
    result.status = .feasible ∧ result.unassignedOrders = [] ∧
    ((turns n).step (executeAttempts turns run n)).1.plans = (turns n).db.plans ++ [candidate] ∧
    isOver (executeAttempts turns run (n + 1)).point = true
  once : ∀ i j, AddsPlan turns run i → AddsPlan turns run j → i = j

/-- A call stays over. -/
theorem executeAttempts_over {i j : Nat} (hle : i ≤ j)
    (h : isOver (executeAttempts turns run i).point = true) :
    executeAttempts turns run j = executeAttempts turns run i := by
  induction j, hle using Nat.le_induction with
  | base => rfl
  | succ j _ ih =>
    rw [executeAttempts, step_over _ (by rw [ih]; exact h)]
    exact ih

/-- A call that begins with an attempt has spent its transactions on its scopes. -/
theorem executeAttempts_spent (hp : run.point = .attempting context) (n : Nat) :
    Spent n (executeAttempts turns run n).point := by
  induction n with
  | zero =>
    rw [executeAttempts, hp]
    exact Nat.zero_le _
  | succ n ih => exact ih.step (turns n)

/-- After an attempt a call is beyond its scope. -/
theorem executeAttempts_beyond {i j : Nat} (hlt : i < j)
    (hp : (executeAttempts turns run i).point = .attempting context) :
    Beyond context.scope (executeAttempts turns run j).point := by
  induction j, hlt using Nat.le_induction with
  | base =>
    change Beyond _ ((turns i).step (executeAttempts turns run i)).2.point
    rcases attempting_next (turns i) hp with hover | ⟨hnext, -, -⟩
    · exact beyond_of_over hover
    · rw [hnext]
      exact Nat.le_refl _
  | succ j _ ih => exact ih.step (turns j)

/-- Only an attempt that leaves orders over makes a call expand. -/
theorem executeAttempts_expanding {n : Nat} (hrun : run.point = .attempting context)
    {narrow : RecoveryContext}
    (hp : (executeAttempts turns run n).point = .expanding narrow) :
    ∃ m, n = m + 1 ∧ (executeAttempts turns run m).point = .attempting narrow ∧
      LeavesOrders (turns m).services narrow := by
  cases n with
  | zero =>
    rw [executeAttempts, hrun] at hp
    cases hp
  | succ m =>
    refine ⟨m, rfl, ?_⟩
    have hspent : Spent m (executeAttempts turns run m).point := executeAttempts_spent hrun m
    change ((turns m).step (executeAttempts turns run m)).2.point = _ at hp
    cases hm : (executeAttempts turns run m).point with
    | attempting other =>
      rcases attempting_next (turns m) hm with hover | ⟨hnext, hleft, -⟩
      · rw [hp] at hover
        cases hover
      · rw [hp] at hnext
        cases hnext
        exact ⟨rfl, hleft⟩
    | expanding other =>
      rcases expanding_next (turns m) hm with hover | ⟨wider, hnext, -⟩
      · rw [hp] at hover
        cases hover
      · rw [hp] at hnext
        cases hnext
    | _ =>
      have hover : isOver (executeAttempts turns run m).point = true := by
        rw [hm] at hspent ⊢
        exact hspent
      rw [step_over _ hover, hm] at hp
      cases hp

/-- Where a call stands: at an attempt, at an expansion, or at its end. -/
theorem Spent.cases {n : Nat} {point : RunPoint} (h : Spent n point) :
    (∃ context, point = .attempting context) ∨ (∃ context, point = .expanding context) ∨
      isOver point = true := by
  cases point with
  | attempting context => exact .inl ⟨context, rfl⟩
  | expanding context => exact .inr (.inl ⟨context, rfl⟩)
  | _ => exact .inr (.inr h)

/-- Only an attempt that assigns all orders adds a plan, and it ends the call. -/
theorem executeAttempts_adds {n : Nat} (hrun : run.point = .attempting context)
    (h : AddsPlan turns run n) : ∃ context result roads candidate,
      (executeAttempts turns run n).point = .attempting context ∧
      RecoveryWorkflow.solveAttempt (turns n).services context = .solved result roads ∧
      result.status = .feasible ∧ result.unassignedOrders = [] ∧
      ((turns n).step (executeAttempts turns run n)).1.plans = (turns n).db.plans ++ [candidate] ∧
      isOver (executeAttempts turns run (n + 1)).point = true := by
  have hspent : Spent n (executeAttempts turns run n).point := executeAttempts_spent hrun n
  rw [executeAttempts]
  rcases hspent.cases with ⟨context, hp⟩ | ⟨context, hp⟩ | hover
  · rw [AddsPlan, step_attempting _ hp] at h
    rw [step_attempting _ hp]
    obtain ⟨⟨result, roads, hsolved, hstatus, hall⟩, ⟨candidate, hplans⟩, hover⟩ :=
      attempt_plans.resolve_left h
    exact ⟨context, result, roads, candidate, hp, hsolved, hstatus, hall, hplans, hover⟩
  · rw [AddsPlan, step_expanding _ hp] at h
    exact absurd widen_plans h
  · rw [AddsPlan, step_over _ hover] at h
    exact absurd rfl h

/-- A call adds no plan once it is over. -/
theorem not_addsPlan_of_over {n : Nat} (h : isOver (executeAttempts turns run n).point = true) :
    ¬ AddsPlan turns run n := by
  rw [AddsPlan, step_over _ h]
  exact not_not_intro rfl

/-- An attempt after the first one follows an attempt that left orders over. -/
theorem executeAttempts_after {n : Nat} {wider : RecoveryContext}
    (hrun : run.point = .attempting context)
    (hp : (executeAttempts turns run (n + 1)).point = .attempting wider) :
    ∃ m narrow, n = m + 1 ∧ (executeAttempts turns run m).point = .attempting narrow ∧
      LeavesOrders (turns m).services narrow ∧
      nextReplanningScope narrow.scope = some wider.scope := by
  have hspent : Spent n (executeAttempts turns run n).point := executeAttempts_spent hrun n
  rw [executeAttempts] at hp
  rcases hspent.cases with ⟨other, hn⟩ | ⟨narrow, hn⟩ | hover
  · rcases attempting_next (turns n) hn with hover | ⟨hnext, -, -⟩
    · rw [hp] at hover
      cases hover
    · rw [hp] at hnext
      cases hnext
  · obtain ⟨m, hm, hattempt, hleft⟩ := executeAttempts_expanding hrun hn
    rcases expanding_next (turns n) hn with hover | ⟨next, hnext, hscope⟩
    · rw [hp] at hover
      cases hover
    · rw [hp] at hnext
      cases hnext
      exact ⟨m, narrow, hm, hattempt, hleft, hscope⟩
  · rw [step_over _ hover] at hp
    rw [hp] at hover
    cases hover

/-- A call is over after five transactions. -/
theorem executeAttempts_ends (hrun : run.point = .attempting context) :
    isOver (executeAttempts turns run 5).point = true := by
  have hspent : Spent 5 (executeAttempts turns run 5).point := executeAttempts_spent hrun 5
  cases hp : (executeAttempts turns run 5).point with
  | attempting context =>
    rw [hp] at hspent
    have hrank := scopeRank_le context.scope
    change 5 ≤ 2 * scopeRank context.scope at hspent
    omega
  | expanding context =>
    rw [hp] at hspent
    obtain ⟨wider, hwider⟩ := Option.isSome_iff_exists.mp hspent.2
    have hrank := scopeRank_next hwider
    have hlast := scopeRank_le wider
    have hle := hspent.1
    omega
  | _ =>
    rw [hp] at hspent
    exact hspent

/-- At most one transaction of a call adds a plan. -/
theorem addsPlan_once (hrun : run.point = .attempting context) {i j : Nat}
    (hi : AddsPlan turns run i) (hj : AddsPlan turns run j) : i = j := by
  have hlast : ∀ {i j}, AddsPlan turns run i → AddsPlan turns run j → j ≤ i := by
    intro i j hi hj
    apply Nat.le_of_not_lt
    intro hlt
    obtain ⟨_, _, _, _, _, _, _, _, _, hover⟩ := executeAttempts_adds hrun hi
    apply not_addsPlan_of_over _ hj
    rw [executeAttempts_over hlt hover]
    exact hover
  exact Nat.le_antisymm (hlast hj hi) (hlast hi hj)

/-- `_execute_attempts` widens its scope at most twice, only after an attempt that leaves orders
over, and persists at most one candidate, whatever it finds in each of its transactions; and the
context of a wider scope has the target orders and the vehicles of a narrower one. -/
theorem scope_expansion (hrun : run.point = .attempting context) :
    ExpandsScopes turns run ∧
      ∀ {db : Database} {incidentId : UUID} {operationalTime : Instant}
        {scope wider : ReplanningScope} {narrowed widened : RecoveryContext},
        scopeRank scope ≤ scopeRank wider →
        materializeRecoveryContext db incidentId scope operationalTime = .ok narrowed →
        materializeRecoveryContext db incidentId wider operationalTime = .ok widened →
        (∀ order ∈ narrowed.targetOrders, order ∈ widened.targetOrders) ∧
          ∀ vehicle ∈ narrowed.vehicles, ∃ wide ∈ widened.vehicles, VehicleGrows vehicle wide := by
  refine ⟨⟨executeAttempts_ends hrun, ?_, fun n wider ↦ executeAttempts_after hrun, ?_,
    fun n ↦ executeAttempts_adds hrun, fun i j ↦ addsPlan_once hrun⟩,
    materializeRecoveryContext_mono⟩
  · intro i j earlier later hlt hi hj
    have hbeyond := executeAttempts_beyond hlt hi
    rw [hj] at hbeyond
    exact hbeyond
  · intro n context hp hstop
    rcases attempting_next (turns n) hp with hover | ⟨-, hwiden⟩
    · exact hover
    · exact absurd hwiden hstop

/-! ### Sample calls -/

-- A solver that finds the handover as soon as there is a vehicle.
private def expansionServices : WorkflowServices where
  buildDistanceTimeMatrix _ := .ok handoverMatrix
  solve input := if input.vehicles.isEmpty then infeasible "No vehicle" else handoverResult
  buildRoute := none
  agent := none

-- The first attempt of the breakdown is reserved.
private def expansionStart : Database × Run :=
  (RecoveryWorkflow.start (handoverDatabase 2 1) 60 300000000).toOption.get rfl

-- What a transaction finds in a given database.
private def expansionTurn (db : Database) : Turn := ⟨expansionServices, fun _ ↦ 0, db, 0⟩

-- Each transaction finds what the one before it has left.
private def expansionTurns : Nat → Turn
  | 0 => expansionTurn expansionStart.1
  | n + 1 =>
    let first := (expansionTurn expansionStart.1).step expansionStart.2
    let second := (expansionTurn first.1).step first.2
    expansionTurn (if n = 0 then first.1 else second.1)

-- The contexts of the breakdown.
private def expansionContext (scope : ReplanningScope) : Except AppError RecoveryContext :=
  materializeRecoveryContext (handoverDatabase 2 1) 60 scope 300000000

/-- The scope of the broken vehicle has no vehicle left, and the next one has: the call returns
after its third transaction, with one candidate more. -/
theorem scope_expansion_breakdown :
    ExpandsScopes expansionTurns expansionStart.2 ∧
      (executeAttempts expansionTurns expansionStart.2 3).point = .returned ∧
      AddsPlan expansionTurns expansionStart.2 2 ∧
      ∃ narrowed widened, expansionContext .crossRoute = .ok narrowed ∧
        expansionContext .allRemaining = .ok widened ∧
        (∀ order ∈ narrowed.targetOrders, order ∈ widened.targetOrders) ∧
        ∀ vehicle ∈ narrowed.vehicles, ∃ wide ∈ widened.vehicles, VehicleGrows vehicle wide := by
  obtain ⟨context, hcontext⟩ : ∃ context, expansionStart.2.point = .attempting context :=
    ⟨_, rfl⟩
  obtain ⟨hexpands, hgrows⟩ := @scope_expansion _ _ expansionTurns hcontext
  refine ⟨hexpands, by decide +kernel, ?_, ?_⟩
  · unfold AddsPlan
    decide +kernel
  · exact ⟨(expansionContext .crossRoute).toOption.get (by decide +kernel),
      (expansionContext .allRemaining).toOption.get (by decide +kernel),
      eq_ok_get _, eq_ok_get _, hgrows (by decide) (eq_ok_get _) (eq_ok_get _)⟩

end PenroseRoute.Lifecycle
