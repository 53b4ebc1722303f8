import PenroseRoute.Lifecycle.Aging
import PenroseRoute.System.RouteSources
import PenroseRoute.System.StopRules

/-!
# The past of a run

What later transactions leave as it is. Plans that are over and candidates that wait keep all
their routes; on the CURRENT plan stops only go forwards and a COMPLETED one keeps every value;
orders go forwards; RESOLVED incidents and decided attempts do not change.
-/

namespace PenroseRoute.Db

/-- The place of a status in the execution of a stop. -/
def StopStatus.rank : StopStatus → Nat
  | .planned => 0
  | .arrived => 1
  | .inService => 2
  | .completed => 3

/-- A route apart from its progress and its stops. -/
def VehicleRoute.fixed (route : VehicleRoute) : VehicleRoute :=
  { route with
    status := .planned
    actualStartAt := none
    actualEndAt := none
    stops := [] }

end PenroseRoute.Db

namespace PenroseRoute.System

open PenroseRoute.Db PenroseRoute.Lib PenroseRoute.Operations PenroseRoute.Recovery
open PenroseRoute.Incidents PenroseRoute.Lifecycle PenroseRoute.Optimization
open StopExecutionService

/-- A stop later on. -/
structure StopKept (old new : RouteStop) : Prop where
  fixed : new.fixed = old.fixed
  forward : old.status.rank ≤ new.status.rank
  arrival : old.status ≠ .planned → new.actualArrivalAt = old.actualArrivalAt
  completed : old.status = .completed → new = old

/-- A route later on: only its status, its actual times and its stops are not what they were. -/
structure RouteKept (old new : VehicleRoute) : Prop where
  fixed : new.fixed = old.fixed
  stops : List.Forall₂ StopKept old.stops new.stops

/-- A plan later on: outside of the time in which it is CURRENT only its status changes. -/
structure PlanKept (old new : DeliveryPlan) : Prop where
  head : { new.bare with routes := [] } = { old.bare with routes := [] }
  ages : Ages old.status new.status
  routes : List.Forall₂ RouteKept old.routes new.routes
  untouched : new.bare = old.bare ∨ (InUse old.status ∧ WasCurrent new.status)

/-- A database later on. -/
structure History (db db' : Database) : Prop where
  grows : Grows db db'
  plans : ∀ plan ∈ db.plans, ∃ plan' ∈ db'.plans, PlanKept plan plan'
  resolved : ∀ incident ∈ db.incidents, incident.status = .resolved → incident ∈ db'.incidents
  attempts : ∀ attempt ∈ db.recoveryPlans, ∃ attempt' ∈ db'.recoveryPlans,
    AttemptKept attempt attempt'

/-! ### Later and later -/

/-- A stop is kept as it is. -/
theorem StopKept.refl (stop : RouteStop) : StopKept stop stop :=
  ⟨rfl, Nat.le_refl _, fun _ ↦ rfl, fun _ ↦ rfl⟩

/-- A stop that is kept twice is kept. -/
theorem StopKept.trans {a b c : RouteStop} (h : StopKept a b) (h' : StopKept b c) :
    StopKept a c where
  fixed := h'.fixed.trans h.fixed
  forward := Nat.le_trans h.forward h'.forward
  arrival hs := by
    refine (h'.arrival fun hb ↦ hs ?_).trans (h.arrival hs)
    have hle := h.forward
    rw [hb] at hle
    cases ha : a.status with
    | planned => rfl
    | arrived | inService | completed =>
      rw [ha] at hle
      simp [StopStatus.rank] at hle
  completed hs := by
    have hb := h.completed hs
    rw [hb] at h'
    exact h'.completed hs

/-- A route is kept as it is. -/
theorem RouteKept.refl (route : VehicleRoute) : RouteKept route route :=
  ⟨rfl, List.forall₂_same.mpr fun stop _ ↦ .refl stop⟩

/-- A route that is kept twice is kept. -/
theorem RouteKept.trans {a b c : VehicleRoute} (h : RouteKept a b) (h' : RouteKept b c) :
    RouteKept a c where
  fixed := h'.fixed.trans h.fixed
  stops := by
    refine (forall₂_trans h.stops h'.stops).imp fun x z hxz ↦ ?_
    obtain ⟨y, hxy, hyz⟩ := hxz
    exact hxy.trans hyz

namespace PlanKept

/-- A plan is kept as it is. -/
theorem refl (plan : DeliveryPlan) : PlanKept plan plan :=
  ⟨rfl, .same _, List.forall₂_same.mpr fun route _ ↦ .refl route, .inl rfl⟩

/-- A plan that is kept twice is kept. -/
theorem trans {a b c : DeliveryPlan} (h : PlanKept a b) (h' : PlanKept b c) : PlanKept a c where
  head := h'.head.trans h.head
  ages := h.ages.trans h'.ages
  routes := by
    refine (forall₂_trans h.routes h'.routes).imp fun x z hxz ↦ ?_
    obtain ⟨y, hxy, hyz⟩ := hxz
    exact hxy.trans hyz
  untouched := by
    rcases h.untouched with hbare | ⟨huse, hwas⟩
    · rcases h'.untouched with hbare' | ⟨hnext, hwas'⟩
      · exact .inl (hbare'.trans hbare)
      · exact .inr ⟨h.ages.inUse hnext, hwas'⟩
    · exact .inr ⟨huse, h'.ages.wasCurrent hwas⟩

variable {old new : DeliveryPlan}

/-- A plan that is kept has its id. -/
theorem id (h : PlanKept old new) : new.id = old.id := (congrArg DeliveryPlan.id h.head :)

private theorem eq_of_bare (hbare : new.bare = old.bare) (hs : new.status = old.status) :
    new = old :=
  calc new = { new.bare with status := new.status } := rfl
    _ = { old.bare with status := old.status } := by rw [hbare, hs]
    _ = old := rfl

/-- A plan that is over does not change at all. -/
theorem eq_of_not_inUse (h : PlanKept old new) (hs : ¬ InUse old.status) : new = old :=
  eq_of_bare (h.untouched.resolve_right fun hu ↦ hs hu.1) (h.ages.eq_of_not_inUse hs)

/-- A candidate that still waits has not changed either. -/
theorem eq_of_candidate (h : PlanKept old new) (hs : new.status = .candidate) : new = old := by
  have hages := h.ages
  rw [hs] at hages
  refine eq_of_bare (h.untouched.resolve_right fun hu ↦ ?_) (hs.trans hages.eq_candidate.symm)
  rw [hs] at hu
  rcases hu.2 with hw | hw <;> cases hw

end PlanKept

namespace History

/-- A database is its own past. -/
theorem refl (db : Database) : History db db :=
  ⟨.refl db, fun plan hp ↦ ⟨plan, hp, .refl plan⟩, fun _ hi _ ↦ hi,
    fun attempt ha ↦ ⟨attempt, ha, .refl attempt⟩⟩

/-- The past of the past is past. -/
theorem trans {a b c : Database} (h : History a b) (h' : History b c) : History a c where
  grows := by
    obtain ⟨more, hmore⟩ := h.grows.incidents
    obtain ⟨more', hmore'⟩ := h'.grows.incidents
    refine ⟨h'.grows.orders.trans h.grows.orders, ⟨more ++ more', ?_⟩,
      h.grows.forward.trans h'.grows.forward⟩
    rw [hmore', hmore, List.append_assoc]
  plans plan hp := by
    obtain ⟨next, hn, hkept⟩ := h.plans plan hp
    obtain ⟨last, hl, hkept'⟩ := h'.plans next hn
    exact ⟨last, hl, hkept.trans hkept'⟩
  resolved incident hi hs := h'.resolved incident (h.resolved incident hi hs) hs
  attempts attempt ha := by
    obtain ⟨next, hn, hkept⟩ := h.attempts attempt ha
    obtain ⟨last, hl, hkept'⟩ := h'.attempts next hn
    exact ⟨last, hl, hkept.trans hkept'⟩

end History

/-! ### Rewritten rows -/

private theorem forall₂_updateWhere {α : Type} {R : α → α → Prop} {rows : List α}
    {cond : α → Bool} {f : α → α} (hrefl : ∀ row, R row row)
    (hf : ∀ row ∈ rows, cond row = true → R row (f row)) :
    List.Forall₂ R rows (updateWhere rows cond f) := by
  rw [updateWhere, List.forall₂_map_right_iff, List.forall₂_same]
  intro row hr
  cases hc : cond row with
  | true =>
    rw [if_pos rfl]
    exact hf row hr hc
  | false =>
    rw [if_neg Bool.false_ne_true]
    exact hrefl row

private theorem forall₂_shiftStops (directOrderIds : List UUID) (updatedReadyAt : Instant)
    (cutoff : Nat) (delay : Int) (stops : List RouteStop) : List.Forall₂ StopKept stops
      (MerchantDelayWorkflow.shiftStops directOrderIds updatedReadyAt cutoff delay stops) := by
  induction stops generalizing delay with
  | nil => exact .nil
  | cons stop rest ih =>
    rw [MerchantDelayWorkflow.shiftStops]
    split
    · next h =>
      exact .cons ⟨rfl, Nat.le_refl _, fun _ ↦ rfl, fun hc ↦ absurd hc h.2⟩ (ih _)
    · exact .cons (.refl stop) (ih delay)

variable {settings : Settings} {s : SysState} {action : Action} {db db' : Database}
  {plan plan' : DeliveryPlan}

private theorem planKept_shiftPlan (context : MerchantDelayWorkflow.MerchantIncidentContext)
    (updatedReadyAt : Instant) (hs : plan.status = .current) :
    PlanKept plan (MerchantDelayWorkflow.shiftPlan context updatedReadyAt plan) := by
  refine ⟨rfl, .same _, ?_, .inr ⟨.inr hs, .inl hs⟩⟩
  rw [MerchantDelayWorkflow.shiftPlan, List.forall₂_map_right_iff, List.forall₂_same]
  intro route _
  split
  · exact ⟨rfl, forall₂_shiftStops _ _ _ _ _⟩
  · exact .refl route

private theorem stopKept_advanceStop {action : StopAction} {stopId : UUID} {eventTime : Instant}
    {base : DeliveryPlan} {route : VehicleRoute} {stop : RouteStop}
    (h : Checked db stopId action.expected action.target eventTime base route stop) :
    StopKept stop (advanceStop action.target eventTime stop) := by
  have hs := h.expected
  cases action with
  | arrive =>
    refine ⟨rfl, ?_, fun hn ↦ absurd hs hn, fun hc ↦ ?_⟩
    · rw [hs]
      exact Nat.zero_le _
    · rw [hs] at hc
      cases hc
  | startService =>
    refine ⟨rfl, ?_, fun _ ↦ rfl, fun hc ↦ ?_⟩
    · rw [hs]
      exact Nat.le_succ _
    · rw [hs] at hc
      cases hc
  | complete =>
    refine ⟨rfl, ?_, fun _ ↦ rfl, fun hc ↦ ?_⟩
    · rw [hs]
      exact Nat.le_succ _
    · rw [hs] at hc
      cases hc

private theorem planKept_movedPlan {action : StopAction} {stopId : UUID} {eventTime : Instant}
    {base : DeliveryPlan} {route : VehicleRoute} {stop : RouteStop}
    (h : Checked db stopId action.expected action.target eventTime base route stop)
    (hids : (db.plans.map (·.id)).Nodup) (hp : plan ∈ db.plans) (he : plan.Executed db) :
    PlanKept plan (movedPlan base route stop action.target eventTime plan) := by
  obtain ⟨hbase, hroute, hstop, -⟩ := lockedStop?_mem h.locked
  rw [movedPlan]
  split
  · next hid =>
    have hsame : plan = base := eq_of_key_eq hids hp hbase (eq_of_beq hid)
    subst hsame
    refine ⟨rfl, .same _, ?_, .inr ⟨.inr h.current, .inl h.current⟩⟩
    refine forall₂_updateWhere .refl fun other ho hc ↦ ?_
    have hown : other = route := eq_of_key_eq he.routeIds ho hroute (eq_of_beq hc)
    subst hown
    refine ⟨?_, ?_⟩
    · rw [advanceRoute]
      split <;> split <;> rfl
    · rw [advanceRoute_stops]
      refine forall₂_updateWhere .refl fun row hr hrow ↦ ?_
      rw [eq_of_key_eq (he.routes other ho).stopIds hr hstop (eq_of_beq hrow)]
      exact stopKept_advanceStop h
  · exact .refl plan

private theorem planKept_of_bare (hids : (db'.plans.map (·.id)).Nodup)
    (kept : LedgerKept (ledgerOf db) (ledgerOf db')) (hp : plan ∈ db.plans)
    (hp' : plan' ∈ db'.plans) (hbare : plan'.bare = plan.bare) : PlanKept plan plan' := by
  obtain ⟨header, hheader, hid, hages⟩ := kept.plans _ (headerOf_mem hp)
  obtain ⟨other, ho, rfl⟩ := List.mem_map.mp hheader
  have hplanId : plan'.id = plan.id := (congrArg DeliveryPlan.id hbare :)
  have hsame : other = plan' := eq_of_key_eq hids ho hp' (hid.trans hplanId.symm)
  subst hsame
  refine ⟨congrArg (fun plan : DeliveryPlan ↦ { plan with routes := [] }) hbare, hages, ?_,
    .inl hbare⟩
  have hroutes : other.routes = plan.routes := (congrArg DeliveryPlan.routes hbare :)
  rw [hroutes]
  exact List.forall₂_same.mpr fun route _ ↦ .refl route

private theorem Effect.planKept (he : Effect settings db action db')
    (hids : (db.plans.map (·.id)).Nodup) (hids' : (db'.plans.map (·.id)).Nodup)
    (kept : LedgerKept (ledgerOf db) (ledgerOf db')) (hok : ∀ plan ∈ db.plans, PlanOk db plan)
    (hp : plan ∈ db.plans) : ∃ plan' ∈ db'.plans, PlanKept plan plan' := by
  have hsame : db'.plans = db.plans → ∃ plan' ∈ db'.plans, PlanKept plan plan' := by
    intro h
    exact ⟨plan, h ▸ hp, .refl plan⟩
  have hbare : ∀ {added : List DeliveryPlan}, Plans db db' added →
      ∃ plan' ∈ db'.plans, PlanKept plan plan' := by
    intro added h
    have hmem : plan.bare ∈ db'.plans.map (·.bare) := by
      rw [h.plans]
      exact List.mem_map_of_mem (List.mem_append_left _ hp)
    obtain ⟨plan', hp', hsame⟩ := List.mem_map.mp hmem
    exact ⟨plan', hp', planKept_of_bare hids' kept hp hp' hsame⟩
  cases he with
  | idle => exact hsame rfl
  | moved hcall hc =>
    refine ⟨_, ?_, planKept_movedPlan hc hids hp (hok plan hp).executed⟩
    rw [plans_applyTransition]
    exact List.mem_map_of_mem hp
  | advanced ha =>
    refine hsame ?_
    obtain rfl | ⟨order, -, -, rfl⟩ := Resources.advanceExecution_ok ha <;> rfl
  | flagged riskOf => exact hsame rfl
  | reported hr =>
    obtain ⟨context, locationId, -, -, -, -, rfl⟩ := VehicleIncidentWorkflow.reportUnavailable_ok hr
    exact hsame rfl
  | delayed hd =>
    rcases assessDelay_plans hd with h | ⟨context, hresolved, -, -, hplans⟩
    · exact hsame h
    · obtain ⟨hmem, -, hcurrent⟩ := currentPlan?_mem
        (MerchantDelayWorkflow.resolveMerchantIncidentContext_ok hresolved)
      rw [hplans]
      by_cases hid : plan.id = context.plan.id
      · have hown : plan = context.plan := eq_of_key_eq hids hp hmem hid
        refine ⟨_, mem_updateWhere_of_true hp (beq_iff_eq.mpr hid), ?_⟩
        exact planKept_shiftPlan context _ (by rw [hown]; exact hcurrent)
      · exact ⟨plan, mem_updateWhere_of_false hp (beq_false_of_ne hid), .refl plan⟩
  | planned _ plans _ _ => exact hbare plans
  | approved _ _ _ => exact hbare (applyApproval_plans _ _)

private theorem resolved_of_kept (hids : (db'.incidents.map (·.id)).Nodup)
    (kept : LedgerKept (ledgerOf db) (ledgerOf db')) (grows : Grows db db') {incident : Incident}
    (hi : incident ∈ db.incidents) (hs : incident.status = .resolved) :
    incident ∈ db'.incidents := by
  have hheader := kept.resolved _ (incidentHeaderOf_mem hi) hs
  obtain ⟨other, ho, he⟩ := List.mem_map.mp hheader
  obtain ⟨more, hmore⟩ := grows.incidents
  have hbare : incident.bare ∈ db'.incidents.map (·.bare) := by
    rw [hmore]
    exact List.mem_append_left _ (List.mem_map_of_mem hi)
  obtain ⟨same, hsame, hb⟩ := List.mem_map.mp hbare
  have hid : same.id = other.id :=
    (congrArg Incident.id hb :).trans (congrArg IncidentHeader.id he).symm
  have hother : same = other := eq_of_key_eq hids hsame ho hid
  subst hother
  have hstatus : same.status = incident.status := (congrArg IncidentHeader.status he :)
  have hincident : same = incident :=
    calc same = { same.bare with status := same.status } := rfl
      _ = { incident.bare with status := incident.status } := by rw [hb, hstatus]
      _ = incident := rfl
  exact hincident ▸ hsame

/-! ### Runs -/

/-- One transaction leaves the past as it is. -/
theorem DraftedRun.history_apply (h : DraftedRun settings s) (action : Action) :
    History s.db (s.apply settings action).db := by
  obtain ⟨hl, hok⟩ := h.ok
  have hnext : DraftedRun settings (s.apply settings action) := .step action h trivial
  have hl' := hnext.ok.1
  have he := hl.effect settings action
  obtain ⟨own, hmoves⟩ := hl.advances settings action
  have kept := hmoves.kept hl.sound
  refine ⟨he.grows, fun plan hp ↦ ?_, fun incident hi hs ↦ ?_, kept.attempts⟩
  · exact he.planKept hl.sound.planIds hl'.sound.planIds kept hok hp
  · exact resolved_of_kept hl'.sound.incidentIds kept he.grows hi hs

/-- In every run from a draft the past stays as it is, whatever happens later. -/
theorem DraftedRun.past_unchanged (h : DraftedRun settings s) (actions : List Action) :
    History s.db (actions.foldl (SysState.apply settings) s).db := by
  induction actions generalizing s with
  | nil => exact .refl s.db
  | cons action actions ih =>
    have hstep : DraftedRun settings (s.apply settings action) := .step action h trivial
    exact (h.history_apply action).trans (ih hstep)

/-- The delay scenario begins with a draft. -/
theorem delayStart_drafted : Drafted delayStart where
  initial := ⟨rfl, rfl, rfl, rfl, rfl, rfl, rfl, by decide, by decide, by decide⟩
  untouched plan hp := by
    rw [List.mem_singleton.mp hp]
    exact ⟨by decide, by decide, by decide, by decide⟩
  constraints := by decide +kernel
  stopIds := by decide
  origins := by decide

/-- What was planned is still there after two reports and an approval. -/
theorem history_stranded : History delayStart.db strandedState.db :=
  DraftedRun.past_unchanged (.init delayStart_drafted) approveOneOfTwo

end PenroseRoute.System
