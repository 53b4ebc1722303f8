import PenroseRoute.Recovery.CandidateAgrees
import PenroseRoute.System.Lifecycle

/-!
# The attempts of an incident

The lifecycle of the recovery attempts of one incident in every reachable state of the system:
reservations, generations, decisions and modifications of all incidents in any order.
-/

namespace PenroseRoute.System

open PenroseRoute.Db PenroseRoute.Lib PenroseRoute.Recovery PenroseRoute.Lifecycle

variable {settings : Settings} {s : SysState}

/-! ### Reachable states -/

/-- Before any incident there is nothing to go wrong. -/
theorem LifecycleOk.initial (h : s.Initial) : LifecycleOk s := by
  have hattempts : (ledgerOf s.db).attempts = [] := h.recoveryPlans
  have hkeys : (ledgerOf s.db).keys = ⟨s.db.plans.map (·.id), [], [], s.db.nextId⟩ := by
    rw [Ledger.keys, hattempts, ledgerOf, h.incidents, List.map_map]
    rfl
  have hnone : ∀ {P : RecoveryPlan → Prop}, ∀ attempt ∈ (ledgerOf s.db).attempts, P attempt := by
    intro P attempt ha
    rw [hattempts] at ha
    cases ha
  refine ⟨⟨?_, ?_⟩, ?_, ?_, ?_, ?_, ?_⟩
  · rw [hkeys]
    exact ⟨h.planIds, .nil, .nil, List.forall_mem_map.mpr h.plansFresh, fun _ hr ↦ (by cases hr),
      fun _ hr ↦ (by cases hr), fun _ ↦ rfl, fun _ hr ↦ (by cases hr), fun _ hr ↦ (by cases hr)⟩
  · refine ⟨hnone, hnone, hnone, hnone, hnone, hnone, hnone, hnone, ?_, ?_⟩
    · intro p hp q hq hpc hqc hd
      obtain ⟨plan, hplan, rfl⟩ := List.mem_map.mp hp
      obtain ⟨other, hother, rfl⟩ := List.mem_map.mp hq
      rw [h.currentOnce plan hplan other hother hpc hqc hd]
    · intro incident hi
      rw [ledgerOf, h.incidents] at hi
      cases hi
  · intro run hr
    rw [h.runs] at hr
    cases hr
  · rw [h.runs]
    exact .nil
  · intro entry he
    rw [h.limits] at he
    cases he
  · rw [h.limits]
    exact .nil
  · intro attempt ha
    rw [h.recoveryPlans] at ha
    cases ha

/-- The lifecycle is in order in every reachable state. -/
theorem ReachableUnder.lifecycle {allowed : SysState → Action → Prop}
    (h : ReachableUnder settings allowed s) : LifecycleOk s :=
  Reachable.invariant (fun _ hs ↦ .initial hs) (fun _ a hs _ ↦ hs.apply settings a) h

/-- One state follows another by moves of the ledger. -/
def Advances (s s' : SysState) : Prop := ∃ own, Moves own (ledgerOf s.db) (ledgerOf s'.db)

/-- Without a step nothing advances. -/
theorem Advances.refl (s : SysState) : Advances s s := ⟨none, .refl _⟩

/-- The same ledger is no advance. -/
theorem Advances.of_same {s s' : SysState} (h : ledgerOf s'.db = ledgerOf s.db) :
    Advances s s' := by
  rw [Advances, h]
  exact ⟨none, .refl _⟩

/-- Every transaction is a series of moves in the ledger. -/
theorem LifecycleOk.advances (h : LifecycleOk s) (settings : Settings) (action : Action) :
    Advances s (s.apply settings action) := by
  cases action with
  | arrive stopId occurredAt =>
    exact SysState.commit_ind (.refl s) fun _ hr ↦ .of_same (ledgerOf_transition hr)
  | startService stopId occurredAt =>
    exact SysState.commit_ind (.refl s) fun _ hr ↦ .of_same (ledgerOf_transition hr)
  | complete stopId occurredAt =>
    refine SysState.commit_ind (.refl s) fun r hr ↦ .of_same ?_
    rw [(s.noteCompletion_eq stopId { s with db := r.1 }).1]
    exact ledgerOf_transition hr
  | advanceExecution orderId target =>
    exact SysState.commit_ind (.refl s) fun _ hr ↦ .of_same (ledgerOf_advanceExecution hr)
  | refreshAlerts riskOf => exact .of_same rfl
  | reportUnavailable businessDate vehicleId eventTime location =>
    exact SysState.commit_ind (.refl s) fun _ hr ↦ ⟨none, reportUnavailable_moves hr⟩
  | assessDelay businessDate merchantId updatedReadyAt eventTime explicitIncident =>
    exact SysState.commit_ind (.refl s) fun _ hr ↦ ⟨none, assessDelay_moves hr⟩
  | startRecovery incidentId now =>
    exact SysState.commit_ind (.refl s) fun _ hr ↦ ⟨none, (start_moves h.sound hr).moves⟩
  | startOptions incidentId maxCandidates regenerate now =>
    exact SysState.commit_ind (.refl s) fun _ hr ↦ ⟨none, (startOptions_moves h.sound hr).moves⟩
  | continueRun index services now =>
    rw [SysState.apply]
    split
    · exact .refl s
    · next run hrun =>
      have hheld := h.held run (List.mem_of_getElem? hrun)
      exact ⟨_, (step_stepped h.sound hheld services settings.fingerprint now).moves⟩
  | decide services recoveryId decision reason now =>
    exact SysState.commit_ind (.refl s) fun _ hr ↦ ⟨none, decide_moves h.sound hr⟩
  | modify recoveryId reason =>
    exact SysState.commit_ind (.refl s) fun _ hr ↦ ⟨none, (modify_moves h.sound hr).moves⟩

/-! ### Approvals -/

/-- The history of approvals names approved attempts, each of them once. -/
structure ApprovalsOk (s : SysState) : Prop where
  approved : ∀ entry ∈ s.approvals, ∃ attempt ∈ s.db.recoveryPlans,
    attempt.id = entry.recoveryPlanId ∧ Approved attempt
  once : (s.approvals.map (·.recoveryPlanId)).Nodup

/-- An approved attempt is in the database with its approval. -/
theorem applyApproval_approved {db : Database} {recoveryId : UUID}
    {reviewable : Decisions.Reviewable} (hl : Decisions.Locked db recoveryId reviewable) :
    ∃ attempt ∈ (Decisions.applyApproval db reviewable).recoveryPlans,
      attempt.id = recoveryId ∧ Approved attempt := by
  obtain ⟨hmem, -⟩ := locked_mem hl
  have hid := (recoveryPlan?_mem hl.recovery).2
  have hdecided : Decisions.setDecision .approve reviewable.recovery ∈
      updateWhere db.recoveryPlans (·.id == reviewable.recovery.id)
        (Decisions.setDecision .approve) :=
    mem_updateWhere_of_true hmem (beq_self_eq_true _)
  refine ⟨Decisions.setDecision .approve reviewable.recovery, ?_, hid, rfl⟩
  rw [Decisions.applyApproval]
  split
  · refine mem_updateWhere_of_false hdecided (Bool.eq_false_iff.mpr fun hs ↦ ?_)
    exact (isPendingSibling_iff.mp hs).2.1 rfl
  · exact hdecided

namespace ApprovalsOk

/-- Before any incident nothing is approved. -/
theorem initial (h : s.Initial) : ApprovalsOk s where
  approved entry he := by
    rw [h.approvals] at he
    cases he
  once := by
    rw [h.approvals]
    exact .nil

/-- A transaction that approves nothing. -/
theorem advance (h : ApprovalsOk s) (hl : LifecycleOk s) {s' : SysState} (m : Advances s s')
    (ha : s'.approvals = s.approvals) : ApprovalsOk s' := by
  obtain ⟨own, m⟩ := m
  refine ⟨?_, by rw [ha]; exact h.once⟩
  intro entry he
  rw [ha] at he
  obtain ⟨attempt, hmem, hid, happroved⟩ := h.approved entry he
  exact ⟨attempt, m.approved_mem hl.sound.numbered hl.sound.reviewed hmem happroved, hid,
    happroved⟩

/-- The history of an approval names its attempt. -/
theorem noteApproval_id {recoveryId : UUID} {db : Database} {entry : Approval}
    (h : entry ∈ s.noteApproval recoveryId db) : entry.recoveryPlanId = recoveryId := by
  rw [SysState.noteApproval, Option.mem_toList] at h
  obtain ⟨recovery, -, h⟩ := Option.bind_eq_some_iff.mp h
  obtain ⟨base, -, h⟩ := Option.bind_eq_some_iff.mp h
  obtain ⟨activated, -, rfl⟩ := Option.map_eq_some_iff.mp h
  rfl

/-- A decision. -/
theorem decide (h : ApprovalsOk s) (hl : LifecycleOk s) {services : Services}
    {recoveryId : UUID} {decision : DispatcherDecision} {reason : String} {now : Instant}
    {db : Database} (hr : Decisions.decide services settings.fingerprint s.db recoveryId decision
      reason now = .ok db) :
    ApprovalsOk { s with
      db := db
      approvals := s.approvals ++
        if decision = .approve then s.noteApproval recoveryId db else [] } := by
  have hkept : ApprovalsOk { s with db := db } :=
    h.advance hl ⟨none, decide_moves hl.sound hr⟩ rfl
  obtain ⟨reviewable, hlocked, ⟨rfl, -, -, -, hdb⟩ | ⟨rfl, -⟩⟩ := Decisions.decide_ok hr
  · rw [if_pos rfl]
    refine ⟨?_, ?_⟩
    · intro entry he
      rcases List.mem_append.mp he with he | he
      · exact hkept.approved entry he
      · obtain ⟨attempt, ha, hid, happroved⟩ := applyApproval_approved hlocked
        refine ⟨attempt, ?_, hid.trans (noteApproval_id he).symm, happroved⟩
        rw [hdb]
        exact ha
    · have hpending : ∀ entry ∈ s.approvals, entry.recoveryPlanId ≠ recoveryId := by
        intro entry he hid
        obtain ⟨attempt, ha, haid, happroved⟩ := h.approved entry he
        obtain ⟨hmem, -⟩ := locked_mem hlocked
        have hsame := Ledger.attempt_eq hl.sound.numbered ha hmem
          (haid.trans (hid.trans (recoveryPlan?_mem hlocked.recovery).2.symm))
        have hdecided := (hl.sound.reviewed.shaped attempt ha).decided_of_approved happroved
        rw [hsame, isPending_iff.mp hlocked.pending] at hdecided
        cases hdecided
      rw [List.map_append, List.nodup_append]
      refine ⟨h.once, ?_, ?_⟩
      · rw [SysState.noteApproval]
        cases (s.db.recoveryPlan? recoveryId).bind _ with
        | none => exact .nil
        | some entry => exact List.nodup_singleton _
      · intro a ha b hb
        obtain ⟨entry, he, rfl⟩ := List.mem_map.mp ha
        obtain ⟨new, hn, rfl⟩ := List.mem_map.mp hb
        rw [noteApproval_id hn]
        exact hpending entry he
  · rw [if_neg (by decide), List.append_nil]
    exact hkept

/-- Every transaction keeps the history of approvals in order. -/
theorem apply (h : ApprovalsOk s) (hl : LifecycleOk s) (settings : Settings) (action : Action) :
    ApprovalsOk (s.apply settings action) := by
  have hadvances := hl.advances settings action
  have hnone : (s.apply settings action).approvals = s.approvals →
      ApprovalsOk (s.apply settings action) := h.advance hl hadvances
  have hcommit : ∀ {α : Type} (outcome : Except AppError α) (f : α → SysState),
      (∀ a, (f a).approvals = s.approvals) → (s.commit outcome f).approvals = s.approvals := by
    intro α outcome f hf
    cases outcome with
    | ok a => exact hf a
    | error error => rfl
  cases action with
  | complete stopId occurredAt =>
    exact hnone (hcommit _ _ fun r ↦ (s.noteCompletion_eq stopId { s with db := r.1 }).2.2.2)
  | decide services recoveryId decision reason now =>
    exact SysState.commit_ind h fun db hr ↦ h.decide hl hr
  | continueRun index services now =>
    refine hnone ?_
    rw [SysState.apply]
    split <;> rfl
  | refreshAlerts riskOf => exact hnone rfl
  | arrive | startService | advanceExecution | reportUnavailable | assessDelay | startRecovery
  | startOptions | modify => exact hnone (hcommit _ _ fun _ ↦ rfl)

end ApprovalsOk

/-- The history of approvals is in order in every reachable state. -/
theorem ReachableUnder.approvals {allowed : SysState → Action → Prop}
    (h : ReachableUnder settings allowed s) : ApprovalsOk s := by
  have hboth : LifecycleOk s ∧ ApprovalsOk s := by
    refine Reachable.invariant (I := fun s ↦ LifecycleOk s ∧ ApprovalsOk s) ?_ ?_ h
    · exact fun s hs ↦ ⟨.initial hs, .initial hs⟩
    · exact fun s action hs _ ↦ ⟨hs.1.apply settings action, hs.2.apply hs.1 settings action⟩
  exact hboth.2

/-! ### The lifecycle of one incident -/

/-- The recovery attempts of an incident, by attempt number. -/
structure IncidentLifecycle (s : SysState) (incidentId : UUID) : Prop where
  numbers : (s.db.attempts incidentId).map (·.attemptNo) =
    List.range' 1 (s.db.attempts incidentId).length
  previous : ∀ attempt ∈ s.db.attempts incidentId, ∀ id,
    attempt.previousRecoveryPlanId = some id → ∃ before ∈ s.db.attempts incidentId,
      before.id = id ∧ before.attemptNo < attempt.attemptNo
  inFlightOnce : ∀ a ∈ s.db.attempts incidentId, ∀ b ∈ s.db.attempts incidentId,
    a.inFlight = true → b.inFlight = true → a = b
  inFlightAlone : ∀ a ∈ s.db.attempts incidentId, ∀ b ∈ s.db.attempts incidentId,
    a.inFlight = true → b.isPending = false
  pending : ∀ attempt ∈ s.db.attempts incidentId, attempt.isPending = true →
    attempt.solverStatus = some .feasible ∧ attempt.validationStatus = some .valid ∧
      ∃ plan ∈ s.db.plans, attempt.candidateDeliveryPlanId = some plan.id ∧
        plan.status = .candidate ∧ ∀ other ∈ s.db.recoveryPlans,
          other.candidateDeliveryPlanId = some plan.id → other = attempt
  /-- Rejected, modified, superseded or filtered. -/
  cancelled : ∀ attempt ∈ s.db.attempts incidentId, attempt.isPending = false →
    ¬ Approved attempt → ∀ id, attempt.candidateDeliveryPlanId = some id →
      ∃ plan ∈ s.db.plans, plan.id = id ∧ plan.status = .cancelled
  /-- Over the whole history, not only in the attempts as they are now. -/
  approvedOnce : ∀ a ∈ s.approvals, ∀ b ∈ s.approvals,
    (∃ attempt ∈ s.db.attempts incidentId, attempt.id = a.recoveryPlanId) →
      (∃ attempt ∈ s.db.attempts incidentId, attempt.id = b.recoveryPlanId) → a = b
  approvedLast : ∀ a ∈ s.approvals,
    (∃ attempt ∈ s.db.attempts incidentId, attempt.id = a.recoveryPlanId) →
      ∀ attempt ∈ s.db.attempts incidentId, attempt.isPending = false
  /-- An attempt without a batch is alone; a batch has one limit. -/
  limited : ∀ attempt ∈ s.db.attempts incidentId, attempt.isPending = true →
    match attempt.options with
    | none => (s.db.attempts incidentId).countP (·.isPending) ≤ 1
    | some summary => ∃ maxCandidates, (summary.batchId, maxCandidates) ∈ s.limits ∧
      (∀ limit, (summary.batchId, limit) ∈ s.limits → limit = maxCandidates) ∧
      (s.db.attempts incidentId).countP (·.isPending) ≤ maxCandidates

/-- The attempts of an incident are those that name it. -/
theorem mem_attempts {db : Database} {incidentId : UUID} {attempt : RecoveryPlan} :
    attempt ∈ db.attempts incidentId ↔
      attempt ∈ db.recoveryPlans ∧ attempt.incidentId = incidentId := by
  rw [Database.attempts, List.mem_insertionSort, List.mem_filter, beq_iff_eq]

/-- The pending attempts of an incident are counted in the ledger. -/
theorem countP_attempts (db : Database) (incidentId : UUID) :
    (db.attempts incidentId).countP (·.isPending) = (ledgerOf db).pendingCount incidentId := by
  rw [Database.attempts, (List.perm_insertionSort _ _).countP_eq, List.countP_filter,
    Ledger.pendingCount]
  exact List.countP_congr fun attempt _ ↦ by rw [Bool.and_comm]

private theorem countP_le_one {α : Type} {xs : List α} {p : α → Bool} (hx : xs.Nodup)
    (h : ∀ a ∈ xs, ∀ b ∈ xs, p a = true → p b = true → a = b) : xs.countP p ≤ 1 := by
  rw [List.countP_eq_length_filter]
  have hnodup : (xs.filter p).Nodup := hx.filter p
  match hf : xs.filter p with
  | [] => exact Nat.zero_le 1
  | [a] => exact Nat.le_refl 1
  | a :: b :: rest =>
    have ha : a ∈ xs.filter p := by rw [hf]; exact List.mem_cons_self
    have hb : b ∈ xs.filter p := by rw [hf]; exact List.mem_cons_of_mem _ List.mem_cons_self
    rw [List.mem_filter] at ha hb
    rw [hf, List.nodup_cons] at hnodup
    rw [h a ha.1 b hb.1 ha.2 hb.2] at hnodup
    exact absurd List.mem_cons_self hnodup.1

/-- Where the lifecycle and the approvals are in order, so are the attempts of every incident. -/
theorem LifecycleOk.incidentLifecycle (hl : LifecycleOk s) (happrovals : ApprovalsOk s)
    (incidentId : UUID) : IncidentLifecycle s incidentId := by
  have hk := hl.sound.numbered
  have hr := hl.sound.reviewed
  have hmem : ∀ {attempt}, attempt ∈ s.db.attempts incidentId →
      attempt ∈ (ledgerOf s.db).attempts := fun ha ↦ (mem_attempts.mp ha).1
  have hsame : ∀ {a b}, a ∈ s.db.attempts incidentId → b ∈ s.db.attempts incidentId →
      b.incidentId = a.incidentId :=
    fun ha hb ↦ (mem_attempts.mp hb).2.trans (mem_attempts.mp ha).2.symm
  have happroved : ∀ entry ∈ s.approvals,
      (∃ attempt ∈ s.db.attempts incidentId, attempt.id = entry.recoveryPlanId) →
        ∃ attempt ∈ s.db.attempts incidentId, attempt.id = entry.recoveryPlanId ∧
          Approved attempt := by
    intro entry he ⟨attempt, ha, hid⟩
    obtain ⟨approved, hmem', hid', hd⟩ := happrovals.approved entry he
    have hone := Ledger.attempt_eq hk hmem' (hmem ha) (hid'.trans hid.symm)
    rw [hone] at hd
    exact ⟨attempt, ha, hid, hd⟩
  refine ⟨?_, ?_, ?_, ?_, ?_, ?_, ?_, ?_, ?_⟩
  · have hnumbers := hk.numbers incidentId
    rw [Ledger.keys_attemptsOf, List.map_map, List.length_map] at hnumbers
    rw [hl.sound.attempts_eq]
    exact hnumbers
  · intro attempt ha id hid
    obtain ⟨before, hb, hbid, hbi, hlt⟩ :=
      hk.previous (keyOf attempt) (List.mem_map.mpr ⟨attempt, hmem ha, rfl⟩) id hid
    obtain ⟨row, hrow, rfl⟩ := List.mem_map.mp hb
    exact ⟨row, mem_attempts.mpr ⟨hrow, hbi.trans (mem_attempts.mp ha).2⟩, hbid, hlt⟩
  · intro a ha b hb hfa hfb
    exact hr.inFlight_unique hk (hmem ha) (hmem hb) hfa hfb (hsame ha hb)
  · intro a ha b hb hfa
    exact hr.not_pending_of_inFlight (hmem ha) (hmem hb) hfa (hsame ha hb)
  · intro attempt ha hp
    obtain ⟨hsolver, hvalid, -, header, hheader, hid, hstatus, -⟩ :=
      (hr.shaped attempt (hmem ha)).pending hp
    obtain ⟨plan, hplan, rfl⟩ := List.mem_map.mp hheader
    refine ⟨hsolver, hvalid, plan, hplan, hid, hstatus, ?_⟩
    exact fun other ho hoid ↦ hr.ownCandidate other ho attempt (hmem ha) _ hoid hid
  · intro attempt ha hp hn id hid
    have hplan : (ledgerOf s.db).HasPlan id .cancelled := by
      have hshape := hr.shaped attempt (hmem ha)
      cases hs : attempt.status with
      | draft => exact (hshape.draft hs).2.2 id hid
      | pendingReview =>
        rw [isPending_iff.mpr hs] at hp
        cases hp
      | decided =>
        obtain ⟨id', hid', ⟨hd, -⟩ | ⟨-, -, hplan⟩⟩ := hshape.decided hs
        · exact absurd hd hn
        · rw [hid, Option.some.injEq] at hid'
          rw [hid']
          exact hplan
    obtain ⟨header, hheader, hhid, hstatus⟩ := hplan
    obtain ⟨plan, hmem', rfl⟩ := List.mem_map.mp hheader
    exact ⟨plan, hmem', hhid, hstatus⟩
  · intro a ha b hb hia hib
    obtain ⟨x, hx, hxid, hxd⟩ := happroved a ha hia
    obtain ⟨y, hy, hyid, hyd⟩ := happroved b hb hib
    have hxy := hr.approvedOnce x (hmem hx) y (hmem hy) hxd hyd (hsame hx hy)
    rw [hxy] at hxid
    exact List.inj_on_of_nodup_map happrovals.once ha hb (hxid.symm.trans hyid)
  · intro a ha hia attempt hattempt
    obtain ⟨x, hx, -, hxd⟩ := happroved a ha hia
    rw [Bool.eq_false_iff]
    intro hp
    have hkey := hk.owner (keyOf x) (List.mem_map.mpr ⟨x, hmem hx, rfl⟩)
    obtain ⟨incident, hi, hkey⟩ := List.mem_map.mp hkey
    have hid : incident.id = x.incidentId := congrArg Prod.fst hkey
    refine hr.pendingOpen attempt (hmem hattempt) hp incident hi ?_
      (hr.approvedResolved x (hmem hx) hxd incident hi hid)
    exact hid.trans (hsame hattempt hx)
  · intro attempt ha hp
    rw [countP_attempts]
    cases ho : attempt.options with
    | none =>
      refine countP_le_one hl.sound.attemptIds.of_map fun a hma b hmb hpa hpb ↦ ?_
      rw [Bool.and_eq_true, beq_iff_eq] at hpa hpb
      have hi := (mem_attempts.mp ha).2
      have hone : ∀ c ∈ (ledgerOf s.db).attempts, c.incidentId = incidentId →
          c.isPending = true → c = attempt :=
        fun c hc hci hcp ↦ pending_alone hl.sound (hmem ha) hc hp hcp (hci.trans hi.symm)
          (by rw [ho]; rfl)
      rw [hone a hma hpa.1 hpa.2, hone b hmb hpb.1 hpb.2]
    | some summary =>
      obtain ⟨m, hm, hle⟩ := hl.limited attempt (hmem ha) hp summary.batchId (by rw [ho]; rfl)
      rw [(mem_attempts.mp ha).2] at hle
      refine ⟨m, hm, fun limit hlimit ↦ ?_, hle⟩
      exact congrArg Prod.snd (List.inj_on_of_nodup_map hl.limitsOnce hlimit hm rfl)

/-! ### A breakdown from its report to its approval -/

/-- The settings of the scenario. -/
def scenarioSettings : Settings where
  thresholdSeconds := 600
  fingerprint context := context.currentTime.toNat

/-- A solver that finds the handover as soon as there is a vehicle. -/
def scenarioServices : WorkflowServices where
  buildDistanceTimeMatrix _ := .ok handoverMatrix
  solve input := if input.vehicles.isEmpty then infeasible "No vehicle" else handoverResult
  buildRoute := none
  agent := none

/-- Both vehicles are on their way. -/
def scenarioStart : SysState where
  db := { handoverDatabase 2 1 with
    vehicles := [⟨10, "V10", 5, .active, 1, 0⟩, ⟨20, "V20", 5, .active, 4, 200000000⟩]
    incidents := [] }
  runs := []
  limits := []
  approvals := []
  overtaken := []
  carried := []

/-- At most two candidates. -/
def twoCandidates : CandidateLimit := ⟨2, by decide⟩

/-- Vehicle 20 breaks down, and a batch of at most two candidates is made. -/
def scenarioReview : List Action :=
  [.reportUnavailable 738000 20 200000000 .recorded,
    .startOptions 100 twoCandidates false 300000000,
    .continueRun 0 scenarioServices 0, .continueRun 0 scenarioServices 0,
    .continueRun 0 scenarioServices 0]

/-- The scenario begins in an initial state. -/
theorem scenarioStart_initial : scenarioStart.Initial :=
  ⟨rfl, rfl, rfl, rfl, rfl, rfl, rfl, by decide, by decide, by decide⟩

/-- The states of the scenario are reachable. -/
theorem scenario_reachable (actions : List Action) :
    ReachableState scenarioSettings (actions.foldl (SysState.apply scenarioSettings)
      scenarioStart) :=
  Reachable.run (.init scenarioStart_initial) actions fun _ _ _ ↦ trivial

end PenroseRoute.System
