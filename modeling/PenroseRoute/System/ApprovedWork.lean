import PenroseRoute.Recovery.FrozenWork
import PenroseRoute.System.FrozenWork
import PenroseRoute.System.History

/-!
# What an approval carries over

A COMPLETED stop of the plan in force is found again, with all its values, in the plan that an
approval puts in its place. The candidate of an option is compared with the facts at its approval;
a candidate of a single attempt is not, so there it matters that no stop of its base plan was
completed in the meantime.
-/

namespace PenroseRoute.System

open PenroseRoute.Db PenroseRoute.Lib PenroseRoute.Operations PenroseRoute.Recovery
open PenroseRoute.Incidents PenroseRoute.Lifecycle PenroseRoute.Optimization
open StopExecutionService

/-- A stop of a vehicle is on the route of that vehicle as a copy, and nothing else there is the
same stop of the same order. -/
def CarriesOver (routes : List VehicleRoute) (vehicleId : UUID) (stop : RouteStop) : Prop :=
  ∃ own ∈ routes, ∃ copy ∈ own.stops, own.vehicleId = vehicleId ∧ CopyOf stop copy ∧
    ∀ other ∈ routes, ∀ twin ∈ other.stops, other.vehicleId = vehicleId →
      twin.orderId = stop.orderId → twin.stopType = stop.stopType → other = own ∧ twin = copy

/-- The COMPLETED stops of a plan are carried over to some routes. -/
def KeepsCompleted (base : DeliveryPlan) (routes : List VehicleRoute) : Prop :=
  ∀ route ∈ base.routes, ∀ stop ∈ route.stops, stop.status = .completed →
    CarriesOver routes route.vehicleId stop

variable {settings : Settings} {s : SysState} {action : Action} {db db' db₁ : Database}
  {incident : Incident} {base plan plan' : DeliveryPlan} {scope : ReplanningScope}
  {operationalTime : Instant} {context : RecoveryContext} {result : SolverResult}

/-! ### A new candidate -/

/-- A candidate carries over what is COMPLETED on the plan that its context was read from. -/
theorem keepsCompleted_of_created (h : Created db₁ context result plan)
    (hread : ReadFrom db incident base scope operationalTime context) (hok : PlanOk db base) :
    KeepsCompleted base plan.routes := by
  intro route hr stop hs hdone
  have hexecuted := hok.executed.routes
  have hkeptStop : stop ∈ preservedStops context route := mem_preservedStops.mpr ⟨hs, fun _ ↦ hdone⟩
  have hown : route ∈ context.routes :=
    (hread.mem_routes route).mpr ⟨route, hr, routeSnapshot_of_executed (hexecuted route hr)⟩
  have ht : RouteTask.base route (lastWrite (solverRouteWrites result) route.vehicleId) ∈
      routeTasks context result := by
    refine List.mem_append_left _ (List.mem_filterMap.mpr ⟨route, hown, ?_⟩)
    rw [if_neg]
    intro hc
    rw [hc.1] at hkeptStop
    cases hkeptStop
  have hkept := keptWell hread hexecuted hok.linked ht
  obtain ⟨roads, hpersisted⟩ := h.persisted
  obtain ⟨own, hmem, id, no, hpass⟩ := exists_of_forall₂_left (persistRoutes_each hpersisted) ht
  have hvehicle : own.vehicleId = route.vehicleId := (persistRoute_ok hpass).1.vehicleId
  obtain ⟨copy, hcopy, hin⟩ :=
    copiedIn_persistRoute hpass hkept.ids hkept.linked stop hkeptStop
  refine ⟨own, hmem, copy, hcopy, hvehicle, hin.copyOf, ?_⟩
  intro other ho twin htwin hsame horder htype
  have he : other = own := eq_of_key_eq h.vehicles_nodup ho hmem (hsame.trans hvehicle.symm)
  subst he
  have honce := once_of_checks (((Created.constraints_iff db₁ plan).mp h.constraints).1 other ho)
  refine ⟨rfl, eq_of_key_eq honce htwin hcopy (Prod.ext ?_ ?_)⟩
  · exact horder.trans (hin.copyOf.field (·.orderId) fun _ _ _ _ ↦ rfl).symm
  · exact htype.trans (hin.copyOf.field (·.stopType) fun _ _ _ _ ↦ rfl).symm

/-! ### What completes a stop -/

private theorem mem_of_shiftStops {directOrderIds : List UUID} {updatedReadyAt : Instant}
    {cutoff : Nat} {delay : Int} {stops : List RouteStop} {stop : RouteStop}
    (h : stop ∈ MerchantDelayWorkflow.shiftStops directOrderIds updatedReadyAt cutoff delay stops)
    (hdone : stop.status = .completed) : stop ∈ stops := by
  induction stops generalizing delay with
  | nil => exact h
  | cons first rest ih =>
    rw [MerchantDelayWorkflow.shiftStops] at h
    split at h
    · next hopen =>
      rcases List.mem_cons.mp h with rfl | h
      · exact absurd hdone hopen.2
      · exact List.mem_cons_of_mem _ (ih h)
    · rcases List.mem_cons.mp h with rfl | h
      · exact List.mem_cons_self
      · exact List.mem_cons_of_mem _ (ih h)

/-- A stop of a vehicle is among the stops of its routes of a plan. -/
def OnPlan (plan : DeliveryPlan) (vehicleId : UUID) (stop : RouteStop) : Prop :=
  ∃ route ∈ plan.routes, route.vehicleId = vehicleId ∧ stop ∈ route.stops

-- A stop that is COMPLETED after a transaction was so before it, unless the transaction
-- completes stops.
private theorem onPlan_of_effect (he : Effect settings db action db')
    (hids : (db.plans.map (·.id)).Nodup) (hids' : (db'.plans.map (·.id)).Nodup)
    (hok : ∀ plan ∈ db.plans, PlanOk db plan)
    (hno : ∀ stopId occurredAt, action ≠ .complete stopId occurredAt) (hb : base ∈ db.plans)
    (hp : plan ∈ db'.plans) (hid : plan.id = base.id) {vehicleId : UUID} {stop : RouteStop}
    (hs : OnPlan plan vehicleId stop) (hdone : stop.status = .completed) :
    OnPlan base vehicleId stop := by
  have hsame : db'.plans = db.plans → OnPlan base vehicleId stop := by
    intro h
    rw [h] at hp
    rwa [← eq_of_key_eq hids hp hb hid]
  have hbare : ∀ {added : List DeliveryPlan}, Plans db db' added →
      OnPlan base vehicleId stop := by
    intro added h
    have hmem : base.bare ∈ db'.plans.map (·.bare) := by
      rw [h.plans]
      exact List.mem_map_of_mem (List.mem_append_left _ hb)
    obtain ⟨other, ho, heq⟩ := List.mem_map.mp hmem
    have hother : other = plan :=
      eq_of_key_eq hids' ho hp ((congrArg DeliveryPlan.id heq :).trans hid.symm)
    have hroutes : other.routes = base.routes := (congrArg DeliveryPlan.routes heq :)
    rwa [OnPlan, ← hroutes, hother]
  obtain ⟨route, hr, hv, hmem⟩ := hs
  cases he with
  | idle => exact hsame rfl
  | @moved call stopId occurredAt onPlan own moved _ hcall hc =>
    rw [plans_applyTransition] at hp
    obtain ⟨old, hold, rfl⟩ := List.mem_map.mp hp
    have holdId : (movedPlan onPlan own moved call.target occurredAt old).id = old.id := by
      rw [movedPlan]
      split <;> rfl
    have hown : old = base := eq_of_key_eq hids hold hb (holdId.symm.trans hid)
    subst hown
    rcases mem_routes_movedPlan hc hids hold (hok old hold).executed.routeIds hr with
      hold' | ⟨-, hroute, rfl⟩
    · exact ⟨route, hold', hv, hmem⟩
    · have hvehicle : (advanceRoute moved.id call.target occurredAt own).vehicleId =
          own.vehicleId := by
        rw [advanceRoute]
        split <;> split <;> rfl
      rw [advanceRoute_stops] at hmem
      obtain ⟨row, hrow, ⟨-, rfl⟩ | ⟨-, rfl⟩⟩ := mem_updateWhere.mp hmem
      · cases call with
        | arrive => cases hdone
        | startService => cases hdone
        | complete => exact absurd hcall (hno stopId occurredAt)
      · exact ⟨own, hroute, hvehicle.symm.trans hv, hrow⟩
  | advanced ha =>
    refine hsame ?_
    obtain rfl | ⟨order, -, -, rfl⟩ := Resources.advanceExecution_ok ha <;> rfl
  | flagged riskOf => exact hsame rfl
  | reported hr =>
    obtain ⟨context, locationId, -, -, -, -, rfl⟩ := VehicleIncidentWorkflow.reportUnavailable_ok hr
    exact hsame rfl
  | delayed hd =>
    rcases assessDelay_plans hd with h | ⟨context, -, -, -, hplans⟩
    · exact hsame h
    · rw [hplans] at hp
      obtain ⟨old, hold, ⟨-, rfl⟩ | ⟨-, rfl⟩⟩ := mem_updateWhere.mp hp
      · have hown : old = base := eq_of_key_eq hids hold hb hid
        subst hown
        obtain ⟨before, hbefore, rfl⟩ := List.mem_map.mp hr
        split at hmem
        · split at hv
          · exact ⟨before, hbefore, hv, mem_of_shiftStops hmem hdone⟩
          · exact ⟨before, hbefore, hv, mem_of_shiftStops hmem hdone⟩
        · split at hv
          · exact ⟨before, hbefore, hv, hmem⟩
          · exact ⟨before, hbefore, hv, hmem⟩
      · have hown : plan = base := eq_of_key_eq hids hold hb hid
        exact ⟨route, hown ▸ hr, hv, hmem⟩
  | planned _ plans _ _ => exact hbare plans
  | approved _ _ _ => exact hbare (applyApproval_plans _ _)

-- A stop that is COMPLETED after a transaction was so before it, or the candidates of its plan
-- are overtaken.
private theorem onPlan_or_overtaken (h : DraftedRun settings s) (action : Action)
    (hb : base ∈ s.db.plans) (hp : plan ∈ (s.apply settings action).db.plans)
    (hid : plan.id = base.id) {vehicleId : UUID} {stop : RouteStop}
    (hs : OnPlan plan vehicleId stop) (hdone : stop.status = .completed) :
    OnPlan base vehicleId stop ∨ ∀ candidate ∈ s.db.plans,
      candidate.parentPlanId = some base.id →
        candidate.id ∈ (s.apply settings action).overtaken := by
  obtain ⟨hl, hok⟩ := h.ok
  have hids := hl.sound.planIds
  by_cases hcomplete : ∃ stopId occurredAt, action = .complete stopId occurredAt
  · obtain ⟨stopId, occurredAt, rfl⟩ := hcomplete
    have hsame : plan ∈ s.db.plans → OnPlan base vehicleId stop := by
      intro hold
      rwa [← eq_of_key_eq hids hold hb hid]
    cases hr : transition settings.thresholdSeconds s.db stopId .inService .completed
        occurredAt with
    | error error =>
      rw [SysState.apply, hr] at hp
      exact .inl (hsame hp)
    | ok moved =>
      obtain ⟨db', reached⟩ := moved
      rw [SysState.apply, hr] at hp ⊢
      dsimp only [SysState.commit] at hp ⊢
      rw [(s.noteCompletion_eq stopId { s with db := db' }).1] at hp
      rcases transition_ok hr with ⟨rfl, -⟩ | ⟨own, route, completed, hc, rfl⟩
      · exact .inl (hsame hp)
      · by_cases hown : own.id = base.id
        · refine .inr fun candidate hcandidate hparent ↦ ?_
          have hopen : completed.status ≠ .completed := by
            rw [hc.expected]
            decide
          rw [SysState.noteCompletion, hc.locked]
          dsimp only
          rw [if_neg hopen]
          refine List.mem_append_right _ (List.mem_map_of_mem ?_)
          refine List.mem_filter.mpr ⟨hcandidate, ?_⟩
          rw [hparent, hown]
          exact beq_self_eq_true _
        · left
          rw [plans_applyTransition] at hp
          obtain ⟨old, hold, rfl⟩ := List.mem_map.mp hp
          have hother : (old.id == own.id) = false := by
            refine beq_false_of_ne fun he ↦ hown ?_
            rw [← he, ← hid, movedPlan]
            split <;> rfl
          rw [movedPlan, if_neg (by rw [hother]; exact Bool.false_ne_true)] at hid hs
          rwa [← eq_of_key_eq hids hold hb hid]
  · have hnext : DraftedRun settings (s.apply settings action) := .step action h trivial
    refine .inl (onPlan_of_effect (hl.effect settings action) hids hnext.ok.1.sound.planIds hok ?_
      hb hp hid hs hdone)
    exact fun stopId occurredAt he ↦ hcomplete ⟨stopId, occurredAt, he⟩

private theorem overtaken_apply (settings : Settings) (s : SysState) (action : Action) {id : UUID}
    (h : id ∈ s.overtaken) : id ∈ (s.apply settings action).overtaken := by
  have hcommit : ∀ {α : Type} {outcome : Except AppError α} {f : α → SysState},
      (∀ a, id ∈ (f a).overtaken) → id ∈ (s.commit outcome f).overtaken := by
    intro α outcome f hf
    cases outcome with
    | ok a => exact hf a
    | error error => exact h
  cases action with
  | complete stopId occurredAt =>
    refine hcommit fun r ↦ ?_
    dsimp only
    rw [SysState.noteCompletion]
    split
    · exact h
    · split
      · exact h
      · exact List.mem_append_left _ h
  | continueRun index services now =>
    rw [SysState.apply]
    split <;> exact h
  | refreshAlerts riskOf => exact h
  | arrive | startService | advanceExecution | reportUnavailable | assessDelay | startRecovery
    | startOptions | decide | modify => exact hcommit fun _ ↦ h

/-! ### What is pending -/

-- An attempt that is pending after a transaction was so before it, or the step of a run has
-- published it with a new candidate.
private theorem pending_apply (h : LifecycleOk s) (settings : Settings) (action : Action)
    {attempt : RecoveryPlan} (ha : attempt ∈ (s.apply settings action).db.recoveryPlans)
    (hp : attempt.isPending = true) : attempt ∈ s.db.recoveryPlans ∨
      ∃ run added candidate, Plans s.db (s.apply settings action).db added ∧ candidate ∈ added ∧
        Published settings.fingerprint s.db run attempt candidate := by
  have hcommit : ∀ {α : Type} {outcome : Except AppError α} {f : α → SysState},
      attempt ∈ (s.commit outcome f).db.recoveryPlans →
        (∀ a, outcome = .ok a → Calm (ledgerOf s.db) (ledgerOf (f a).db)) →
          attempt ∈ s.db.recoveryPlans := by
    intro α outcome f ha hcalm
    cases outcome with
    | ok a => exact (hcalm a rfl).pending attempt ha hp
    | error error => exact ha
  have hmoves : ∀ {db : Database}, Moves none (ledgerOf s.db) (ledgerOf db) →
      db.plans.length = s.db.plans.length → Calm (ledgerOf s.db) (ledgerOf db) := by
    intro db m hlength
    refine m.calm (Nat.le_of_eq ?_)
    rw [ledgerOf, ledgerOf, List.length_map, List.length_map, hlength]
  have hsame : ∀ {db : Database}, ledgerOf db = ledgerOf s.db →
      Calm (ledgerOf s.db) (ledgerOf db) := by
    intro db he
    rw [he]
    exact .refl _
  cases action with
  | arrive stopId occurredAt =>
    exact .inl (hcommit ha fun r hr ↦ hsame (ledgerOf_transition hr))
  | startService stopId occurredAt =>
    exact .inl (hcommit ha fun r hr ↦ hsame (ledgerOf_transition hr))
  | complete stopId occurredAt =>
    refine .inl (hcommit ha fun r hr ↦ hsame ?_)
    rw [(s.noteCompletion_eq stopId { s with db := r.1 }).1]
    exact ledgerOf_transition hr
  | advanceExecution orderId target =>
    exact .inl (hcommit ha fun r hr ↦ hsame (ledgerOf_advanceExecution hr))
  | refreshAlerts riskOf => exact .inl ha
  | reportUnavailable businessDate vehicleId eventTime location =>
    refine .inl (hcommit ha fun r hr ↦ ?_)
    obtain ⟨db', incidentId⟩ := r
    refine hmoves (reportUnavailable_moves hr) ?_
    obtain ⟨context, locationId, -, -, -, -, he⟩ := VehicleIncidentWorkflow.reportUnavailable_ok hr
    rw [he]
    rfl
  | assessDelay businessDate merchantId updatedReadyAt eventTime explicitIncident =>
    refine .inl (hcommit ha fun r hr ↦ ?_)
    obtain ⟨db', incidentId⟩ := r
    refine hmoves (assessDelay_moves hr) ?_
    rcases assessDelay_plans hr with he | ⟨context, -, -, -, he⟩
    · rw [he]
    · rw [he]
      exact length_updateWhere _ _ _
  | startRecovery incidentId now =>
    exact .inl (hcommit ha fun r hr ↦
      hmoves (start_moves h.sound hr).moves (start_plans hr).length_eq)
  | startOptions incidentId maxCandidates regenerate now =>
    exact .inl (hcommit ha fun r hr ↦
      hmoves (startOptions_moves h.sound hr).moves (startOptions_plans hr).length_eq)
  | continueRun index services now =>
    rw [SysState.apply] at ha ⊢
    split at ha
    · exact .inl ha
    · next run hrun =>
      have hheld := h.held run (List.mem_of_getElem? hrun)
      obtain ⟨added, hplans⟩ : ∃ added, RunPlans settings.fingerprint s.db
          (run.step services settings.fingerprint s.db now).1 run added :=
        step_plans h.sound hheld services now
      refine (hplans.pending attempt ha hp).imp_right fun hnew ↦ ?_
      obtain ⟨candidate, hc, hpublished⟩ := hnew
      exact ⟨run, added, candidate, hplans.plans, hc, hpublished⟩
  | decide services recoveryId decision reason now =>
    exact .inl (hcommit ha fun r hr ↦ hmoves (decide_moves h.sound hr) (decide_plans hr).length_eq)
  | modify recoveryId reason =>
    exact .inl (hcommit ha fun r hr ↦
      hmoves (modify_moves h.sound hr).moves (modify_plans hr).length_eq)

/-! ### Candidates and their contexts -/

/-- What is known of the candidate of a pending attempt: the context that it was created from,
and that it carries over what is COMPLETED on its base plan unless it has been overtaken. -/
structure Prepared (settings : Settings) (s : SysState) (attempt : RecoveryPlan)
    (candidate : DeliveryPlan) : Prop where
  candidateId : attempt.candidateDeliveryPlanId = some candidate.id
  parent : candidate.parentPlanId = some attempt.baseDeliveryPlanId
  created : ∃ db₀ context result original, Created db₀ context result original ∧
    candidate.routes = original.routes ∧ Remembers settings.fingerprint attempt context
  kept : candidate.id ∉ s.overtaken → ∀ base ∈ s.db.plans,
    base.id = attempt.baseDeliveryPlanId → KeepsCompleted base candidate.routes

/-- Every pending attempt has a candidate that is known so. -/
def AllPrepared (settings : Settings) (s : SysState) : Prop :=
  ∀ attempt ∈ s.db.recoveryPlans, attempt.isPending = true →
    ∃ candidate ∈ s.db.plans, Prepared settings s attempt candidate

private theorem status_of_pending (hl : (ledgerOf db).Sound) {attempt : RecoveryPlan}
    (ha : attempt ∈ db.recoveryPlans) (hp : attempt.isPending = true) (hplan : plan ∈ db.plans)
    (hid : attempt.candidateDeliveryPlanId = some plan.id) :
    plan.status = .candidate ∧ plan.parentPlanId = some attempt.baseDeliveryPlanId := by
  obtain ⟨-, -, -, header, hm, hc, hs, hparent⟩ := (hl.reviewed.shaped attempt ha).pending hp
  rw [hid, Option.some.injEq] at hc
  have hsame := Ledger.plan_eq hl.numbered (headerOf_mem hplan) hm hc
  rw [← hsame] at hs hparent
  exact ⟨hs, hparent⟩

private theorem exists_base (hl : (ledgerOf db).Sound) {attempt : RecoveryPlan}
    (ha : attempt ∈ db.recoveryPlans) :
    ∃ base ∈ db.plans, base.id = attempt.baseDeliveryPlanId := by
  have howner := hl.numbered.owner (keyOf attempt) (List.mem_map_of_mem ha)
  obtain ⟨incident, hi, he⟩ := List.mem_map.mp howner
  have hbase : incident.deliveryPlanId = attempt.baseDeliveryPlanId := congrArg Prod.snd he
  rw [← hbase]
  rcases hl.reviewed.inForce incident hi with hplan | ⟨hplan, -⟩
  · obtain ⟨header, hheader, hid, -⟩ := hplan
    obtain ⟨base, hb, rfl⟩ := List.mem_map.mp hheader
    exact ⟨base, hb, hid⟩
  · obtain ⟨header, hheader, hid, -⟩ := hplan
    obtain ⟨base, hb, rfl⟩ := List.mem_map.mp hheader
    exact ⟨base, hb, hid⟩

private theorem Prepared.apply (h : DraftedRun settings s) (action : Action)
    {attempt : RecoveryPlan} (hold : attempt ∈ s.db.recoveryPlans)
    (ha : attempt ∈ (s.apply settings action).db.recoveryPlans) (hp : attempt.isPending = true)
    (hc : plan ∈ s.db.plans) (hprepared : Prepared settings s attempt plan) :
    plan ∈ (s.apply settings action).db.plans ∧
      Prepared settings (s.apply settings action) attempt plan := by
  have hnext : DraftedRun settings (s.apply settings action) := .step action h trivial
  have hl' := hnext.ok.1
  obtain ⟨plan', hp', hkept⟩ := (h.history_apply action).plans plan hc
  have hid' : attempt.candidateDeliveryPlanId = some plan'.id := by
    rw [hkept.id]
    exact hprepared.candidateId
  have hsame := hkept.eq_of_candidate (status_of_pending hl'.sound ha hp hp' hid').1
  refine ⟨hsame ▸ hp', hprepared.candidateId, hprepared.parent, hprepared.created, ?_⟩
  intro hno base' hbase' hbid' route hr stop hs hdone
  obtain ⟨base, hb, hbid⟩ := exists_base h.ok.1.sound hold
  have hstop : OnPlan base' route.vehicleId stop := ⟨route, hr, rfl, hs⟩
  rcases onPlan_or_overtaken h action hb hbase' (hbid'.trans hbid.symm) hstop hdone with
    ⟨old, hroute, hv, hmem⟩ | hovertaken
  · rw [← hv]
    refine hprepared.kept (fun hover ↦ hno ?_) base hb hbid old hroute stop hmem hdone
    exact overtaken_apply settings s action hover
  · refine absurd (hovertaken plan hc ?_) hno
    rw [hbid]
    exact hprepared.parent

private theorem prepared_of_published (h : DraftedRun settings s) {added : List DeliveryPlan}
    {run : Run} {attempt : RecoveryPlan} {candidate : DeliveryPlan} {s' : SysState}
    (hl' : LifecycleOk s') (plans : Plans s.db s'.db added) (hadded : candidate ∈ added)
    (hpublished : Published settings.fingerprint s.db run attempt candidate)
    (ha : attempt ∈ s'.db.recoveryPlans) (hp : attempt.isPending = true) :
    ∃ plan ∈ s'.db.plans, Prepared settings s' attempt plan := by
  have hafter : ∀ before ∈ s.db.plans ++ added, ∃ plan ∈ s'.db.plans, plan.bare = before.bare := by
    intro before hbefore
    have hmem : before.bare ∈ s'.db.plans.map (·.bare) := by
      rw [plans.plans]
      exact List.mem_map_of_mem hbefore
    obtain ⟨plan, hplan, he⟩ := List.mem_map.mp hmem
    exact ⟨plan, hplan, he⟩
  obtain ⟨plan, hplan, hbare⟩ := hafter candidate (List.mem_append_right _ hadded)
  have hid : plan.id = candidate.id := (congrArg DeliveryPlan.id hbare :)
  have hroutes : plan.routes = candidate.routes := (congrArg DeliveryPlan.routes hbare :)
  have hparent : plan.parentPlanId = candidate.parentPlanId :=
    (congrArg DeliveryPlan.parentPlanId hbare :)
  have hown : attempt.candidateDeliveryPlanId = some plan.id := by
    rw [hid]
    exact hpublished.candidateId
  obtain ⟨context, result, ⟨hread, db₀, hcreated, -, -, -⟩, hremembers⟩ := hpublished.made
  obtain ⟨incident, base, hi, hb, hreadFrom⟩ := materializeRecoveryContext_ok hread
  have hbase := (status_of_pending hl'.sound ha hp hplan hown).2
  refine ⟨plan, hplan, hown, hbase, ⟨db₀, context, result, candidate, hcreated, hroutes,
    hremembers⟩, fun _ base' hbase' hbid' ↦ ?_⟩
  have hcandidateParent : candidate.parentPlanId = some context.basePlanId :=
    (congrArg DeliveryPlan.parentPlanId hcreated.row :)
  rw [hparent, hcandidateParent, Option.some.injEq, hreadFrom.basePlanId] at hbase
  have hbmem := (plan?_mem hb).1
  obtain ⟨other, hother, he⟩ := hafter base (List.mem_append_left _ hbmem)
  have hsame : other = base' := eq_of_key_eq hl'.sound.planIds hother hbase'
    ((congrArg DeliveryPlan.id he :).trans (hbase.trans hbid'.symm))
  have hbroutes : base'.routes = base.routes := by
    rw [← hsame]
    exact (congrArg DeliveryPlan.routes he :)
  have hkeeps := keepsCompleted_of_created hcreated hreadFrom (h.ok.2 base hbmem)
  rw [KeepsCompleted, hbroutes, hroutes]
  exact hkeeps

/-- The candidates of all pending attempts are known in every state of a run. -/
theorem DraftedRun.allPrepared (h : DraftedRun settings s) : AllPrepared settings s := by
  refine (Reachable.invariant (I := fun s ↦ DraftedRun settings s ∧ AllPrepared settings s)
    (fun s hs ↦ ⟨.init hs, fun attempt ha ↦ ?_⟩) ?_ h).2
  · rw [hs.initial.recoveryPlans] at ha
    cases ha
  · rintro s action ⟨hrun, hall⟩ -
    have hnext : DraftedRun settings (s.apply settings action) := .step action hrun trivial
    refine ⟨hnext, fun attempt ha hp ↦ ?_⟩
    rcases pending_apply hrun.ok.1 settings action ha hp with
      hold | ⟨run, added, candidate, plans, hadded, hpublished⟩
    · obtain ⟨plan, hc, hprepared⟩ := hall attempt hold hp
      exact ⟨plan, hprepared.apply hrun action hold ha hp hc⟩
    · exact prepared_of_published hrun hnext.ok.1 plans hadded hpublished ha hp

/-! ### Approvals -/

/-- The approval of an option is safe when no other context has the fingerprint that it
remembers, the one of a single candidate when it has not been overtaken. -/
def SafeToApprove (settings : Settings) (s : SysState) (recoveryId : UUID) : Prop :=
  ∀ attempt, s.db.recoveryPlan? recoveryId = some attempt →
    (∀ summary, attempt.options = some summary → ∀ a b,
      settings.fingerprint a = summary.contextFingerprint →
        settings.fingerprint b = summary.contextFingerprint → a = b) ∧
    (attempt.options = none → ∀ id, attempt.candidateDeliveryPlanId = some id →
      id ∉ s.overtaken)

/-- In every run from a draft: an approval that is safe puts the candidate of its attempt in force
in place of the base plan, and every stop that is COMPLETED on the base plan is found again there,
once on the same vehicle, with the same content and actual times. -/
theorem approval_keeps_completed (h : DraftedRun settings s) {services : Services}
    {recoveryId : UUID} {reason : String} {now : Instant}
    (hd : Decisions.decide services settings.fingerprint s.db recoveryId .approve reason now =
      .ok db') (hsafe : SafeToApprove settings s recoveryId) :
    ∃ attempt, s.db.recoveryPlan? recoveryId = some attempt ∧
      ∃ base ∈ s.db.plans, ∃ activated ∈ db'.plans, base.id = attempt.baseDeliveryPlanId ∧
        attempt.candidateDeliveryPlanId = some activated.id ∧ base.status = .current ∧
        activated.status = .current ∧ activated.businessDate = base.businessDate ∧
        KeepsCompleted base activated.routes := by
  obtain ⟨reviewable, hl, ⟨-, hfacts, -, -, rfl⟩ | ⟨hreject, -⟩⟩ := Decisions.decide_ok hd
  · obtain ⟨hcollision, hovertaken⟩ := hsafe _ hl.recovery
    obtain ⟨ha, hrid⟩ := recoveryPlan?_mem hl.recovery
    obtain ⟨hbmem, hbid⟩ := plan?_mem hl.base
    obtain ⟨candidate, hc, hprepared⟩ := h.allPrepared _ ha hl.pending
    have hcid : candidate.id = reviewable.candidate.id := by
      have hown := hl.candidateId
      rw [hprepared.candidateId, Option.some.injEq] at hown
      exact hown
    have hsame : candidate = reviewable.candidate :=
      eq_of_key_eq h.ok.1.sound.planIds hc (plan?_mem hl.candidate).1 hcid
    have hkeeps : KeepsCompleted reviewable.base candidate.routes := by
      cases hoptions : reviewable.recovery.options with
      | none =>
        exact hprepared.kept (hovertaken hoptions _ hprepared.candidateId) _ hbmem hbid
      | some summary =>
        obtain ⟨db₀, context, result, original, hcreated, hroutes, hremembers⟩ := hprepared.created
        rw [Decisions.validateOptionFacts, hoptions] at hfacts
        obtain ⟨read, hread, hfacts⟩ := bind_eq_ok.mp hfacts
        rw [raiseFirst_cons_eq_ok, bne_eq_false_iff_eq] at hfacts
        have hcontext : read = context :=
          hcollision summary hoptions _ _ hfacts.1 (hremembers summary hoptions).1.symm
        subst hcontext
        obtain ⟨incident, base, hi, hb, hreadFrom⟩ := materializeRecoveryContext_ok hread
        have hbase : base = reviewable.base := by
          rw [(incident?_mem hl.incident).2, hl.incident, Option.some.injEq] at hi
          rw [← hi, hl.incidentPlan] at hb
          exact eq_of_key_eq h.ok.1.sound.planIds (plan?_mem hb).1 hbmem (plan?_mem hb).2
        rw [hroutes, ← hbase]
        exact keepsCompleted_of_created hcreated hreadFrom (h.ok.2 base (plan?_mem hb).1)
    refine ⟨reviewable.recovery, hl.recovery, reviewable.base, hbmem,
      { reviewable.candidate with status := .current }, ?_, hbid, hl.candidateId, hl.baseCurrent,
      rfl, hl.columns.2.2, ?_⟩
    · exact (applyApproval_current h.ok.1.sound hl _ rfl).mpr (.inl rfl)
    · rw [← hsame]
      exact hkeeps
  · cases hreject

/-- Merchant 7 reports its delay, vehicle 10 delivers order 32, and a candidate is made for the
delay. -/
def recoverAfterDelivery : List Action :=
  .assessDelay 738000 7 900000000 0 true :: deliverOther ++
    [.startRecovery 100 120000000, .continueRun 0 delayServices 120000000]

/-- The state after that. -/
def preparedState : SysState :=
  recoverAfterDelivery.foldl (SysState.apply scenarioSettings) delayStart

/-- The delivered order is carried over by the approval of the candidate. -/
theorem approval_keeps_completed_delivered :
    ∃ db', Decisions.decide delayServices.toServices scenarioSettings.fingerprint
      preparedState.db 101 .approve "approved" 120000000 = .ok db' ∧
      ∃ attempt, preparedState.db.recoveryPlan? 101 = some attempt ∧
        ∃ base ∈ preparedState.db.plans, ∃ activated ∈ db'.plans,
          base.id = attempt.baseDeliveryPlanId ∧
          attempt.candidateDeliveryPlanId = some activated.id ∧ base.status = .current ∧
          activated.status = .current ∧ activated.businessDate = base.businessDate ∧
          KeepsCompleted base activated.routes := by
  have hrun : DraftedRun scenarioSettings preparedState :=
    Reachable.run (.init delayStart_drafted) recoverAfterDelivery fun _ _ _ ↦ trivial
  have hok : (Decisions.decide delayServices.toServices scenarioSettings.fingerprint
      preparedState.db 101 .approve "approved" 120000000).toOption.isSome := by
    decide +kernel
  have hsingle : (preparedState.db.recoveryPlan? 101).all (·.options.isNone) = true := by
    decide +kernel
  have hnone : preparedState.overtaken = [] := by decide +kernel
  refine ⟨_, eq_ok_get hok, approval_keeps_completed hrun (eq_ok_get hok) ?_⟩
  intro attempt ha
  rw [ha, Option.all_some, Option.isNone_iff_eq_none] at hsingle
  refine ⟨fun summary hs ↦ ?_, fun _ id _ ↦ ?_⟩
  · rw [hsingle] at hs
    cases hs
  · rw [hnone]
    exact List.not_mem_nil

end PenroseRoute.System
