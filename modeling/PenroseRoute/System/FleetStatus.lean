import PenroseRoute.Recovery.Inheritance
import PenroseRoute.Resources.Fleet
import PenroseRoute.System.Changes
import PenroseRoute.System.Stranding

/-!
# Vehicles and the plan that is executed

A vehicle gets ACTIVE with its route and AVAILABLE when execution completes the route. An
approval replaces the routes without a look at the vehicles, and a plan that is not CURRENT any
more keeps its ACTIVE routes, which `has_active_route_for_vehicle` counts. As long as no step
leaves an ACTIVE route behind, vehicles and routes agree.
-/

namespace PenroseRoute.Db

/-- The vehicle has an ACTIVE route of the plan. -/
def DeliveryPlan.hasActiveRoute (plan : DeliveryPlan) (vehicleId : UUID) : Bool :=
  plan.routes.any fun route ↦ route.vehicleId == vehicleId && route.status == .active

/-- The vehicle has an ACTIVE route of the plan with a stop that is not completed. -/
def DeliveryPlan.isExecutedBy (plan : DeliveryPlan) (vehicleId : UUID) : Bool :=
  plan.routes.any fun route ↦ route.vehicleId == vehicleId && route.status == .active &&
    route.stops.any (·.status != .completed)

/-- The statuses of the routes of a plan and of their stops. -/
def DeliveryPlan.progress (plan : DeliveryPlan) : List (UUID × RouteStatus × List StopStatus) :=
  plan.routes.map fun route ↦ (route.vehicleId, route.status, route.stops.map (·.status))

end PenroseRoute.Db

namespace PenroseRoute.System

open PenroseRoute.Db PenroseRoute.Lib PenroseRoute.Operations PenroseRoute.Recovery
open PenroseRoute.Incidents PenroseRoute.Lifecycle PenroseRoute.Optimization
open StopExecutionService

/-! ### Fleet operations -/

/-- The transactions of the system and the resource status updates of the fleet. -/
inductive FleetAction where
  | transact (action : Action)
  | updateVehicleStatus (vehicleId : UUID) (target : ResourceStatus)

/-- One transaction. -/
def applyFleet (settings : Settings) (s : SysState) : FleetAction → SysState
  | .transact action => s.apply settings action
  | .updateVehicleStatus vehicleId target =>
    s.commit (Resources.updateVehicleStatus s.db vehicleId target) fun db ↦ { s with db := db }

/-- Before any execution: the plans are as the planner left them, and no vehicle is ACTIVE. -/
structure Parked (s : SysState) : Prop where
  initial : s.Initial
  untouched : ∀ plan ∈ s.db.plans, plan.Untouched
  planned : ∀ plan ∈ s.db.plans, ∀ route ∈ plan.routes, route.status = .planned
  parked : ∀ vehicle ∈ s.db.vehicles, vehicle.status ≠ .active

/-! ### The agreement -/

/-- Some CURRENT plan has the property. -/
def OnCurrent (db : Database) (p : DeliveryPlan → Bool) : Prop :=
  ∃ plan ∈ db.plans, plan.status = .current ∧ p plan = true

/-- An ACTIVE vehicle executes a route of a CURRENT plan, and a vehicle has an active route as
far as the fleet is concerned exactly when a CURRENT plan has it. -/
structure FleetAgrees (db : Database) : Prop where
  active : ∀ vehicle ∈ db.vehicles, vehicle.status = .active →
    OnCurrent db (·.isExecutedBy vehicle.id)
  blocked : ∀ vehicleId, Resources.hasActiveRouteForVehicle db vehicleId = true ↔
    OnCurrent db (·.hasActiveRoute vehicleId)

/-- The call of a completion or a decision is accepted. -/
def succeeds (settings : Settings) (s : SysState) : FleetAction → Bool
  | .transact (.complete stopId occurredAt) =>
    (transition settings.thresholdSeconds s.db stopId .inService .completed occurredAt).isOk
  | .transact (.decide services recoveryId decision reason now) =>
    (Decisions.decide services settings.fingerprint s.db recoveryId decision reason now).isOk
  | _ => true

/-- A stop that is still to be completed completes a route only when no plan that is not CURRENT has
an ACTIVE route of its vehicle, and a candidate that is approved goes on with every ACTIVE route of
its base plan. In both cases another CURRENT plan may have one. -/
def RoutesGoOn (s : SysState) : FleetAction → Prop
  | .transact (.complete stopId occurredAt) =>
    ∀ plan route stop, s.db.lockedStop? stopId = some (plan, route, stop) →
      stop.status ≠ .completed → completesRoute stop.id .completed occurredAt route = true →
      ∀ other ∈ s.db.plans, other.status ≠ .current →
        other.hasActiveRoute route.vehicleId = true →
        ∃ running ∈ s.db.plans, running.id ≠ plan.id ∧ running.status = .current ∧
          running.hasActiveRoute route.vehicleId = true
  | .transact (.decide _ recoveryId .approve _ _) =>
    ∀ recovery base candidate, s.db.recoveryPlan? recoveryId = some recovery →
      s.db.plan? recovery.baseDeliveryPlanId = some base →
      recovery.candidateDeliveryPlanId.bind s.db.plan? = some candidate →
      ∀ vehicleId, base.hasActiveRoute vehicleId = true →
        candidate.isExecutedBy vehicleId = true ∨
        ∃ running ∈ s.db.plans, running.id ≠ base.id ∧ running.status = .current ∧
          running.isExecutedBy vehicleId = true
  | _ => True

/-- The step leaves no ACTIVE route behind, unless it is refused. -/
def LeavesNoRoute (settings : Settings) (s : SysState) (action : FleetAction) : Prop :=
  succeeds settings s action = true → RoutesGoOn s action

/-! ### Progress -/

/-- Plans with the same progress have the same ACTIVE routes. -/
theorem hasActiveRoute_congr {plan plan' : DeliveryPlan} (h : plan'.progress = plan.progress)
    (vehicleId : UUID) : plan'.hasActiveRoute vehicleId = plan.hasActiveRoute vehicleId := by
  have hany : ∀ plan : DeliveryPlan, plan.hasActiveRoute vehicleId =
      plan.progress.any fun entry ↦ entry.1 == vehicleId && entry.2.1 == .active := by
    intro plan
    rw [DeliveryPlan.progress, List.any_map]
    rfl
  rw [hany, hany, h]

/-- They are executed by the same vehicles. -/
theorem isExecutedBy_congr {plan plan' : DeliveryPlan} (h : plan'.progress = plan.progress)
    (vehicleId : UUID) : plan'.isExecutedBy vehicleId = plan.isExecutedBy vehicleId := by
  have hany : ∀ plan : DeliveryPlan, plan.isExecutedBy vehicleId =
      plan.progress.any fun entry ↦ entry.1 == vehicleId && entry.2.1 == .active &&
        entry.2.2.any (· != .completed) := by
    intro plan
    rw [DeliveryPlan.progress, List.any_map, DeliveryPlan.isExecutedBy]
    refine List.any_congr rfl fun route ↦ ?_
    rw [Function.comp_apply, List.any_map]
    rfl
  rw [hany, hany, h]

/-- A vehicle that executes a route has an ACTIVE one. -/
theorem hasActiveRoute_of_isExecutedBy {plan : DeliveryPlan} {vehicleId : UUID}
    (h : plan.isExecutedBy vehicleId = true) : plan.hasActiveRoute vehicleId = true := by
  obtain ⟨route, hr, he⟩ := List.any_eq_true.mp h
  exact List.any_eq_true.mpr ⟨route, hr, (Bool.and_eq_true_iff.mp he).1⟩

/-- The query finds the vehicles with an ACTIVE route on some plan. -/
theorem hasActiveRouteForVehicle_iff {db : Database} {vehicleId : UUID} :
    Resources.hasActiveRouteForVehicle db vehicleId = true ↔
      ∃ plan ∈ db.plans, plan.hasActiveRoute vehicleId = true :=
  List.any_eq_true

/-- What of a plan the agreement depends on. -/
def seen (plan : DeliveryPlan) :
    DeliveryPlanStatus × List (UUID × RouteStatus × List StopStatus) :=
  (plan.status, plan.progress)

variable {db db' : Database}

/-- Databases whose plans look alike have the same plans with a property. -/
theorem exists_of_seen (h : db'.plans.map seen = db.plans.map seen) {p : DeliveryPlan → Prop}
    (hp : ∀ plan plan', plan'.status = plan.status → plan'.progress = plan.progress → p plan →
      p plan') (hex : ∃ plan ∈ db.plans, p plan) : ∃ plan ∈ db'.plans, p plan := by
  obtain ⟨plan, hmem, hplan⟩ := hex
  have hseen : seen plan ∈ db'.plans.map seen := by
    rw [h]
    exact List.mem_map_of_mem hmem
  obtain ⟨plan', hmem', he⟩ := List.mem_map.mp hseen
  rw [seen, seen, Prod.mk.injEq] at he
  exact ⟨plan', hmem', hp plan plan' he.1 he.2 hplan⟩

/-- The agreement is kept where plans look alike and no vehicle gets ACTIVE. -/
theorem FleetAgrees.of_seen (h : FleetAgrees db) (hplans : db'.plans.map seen = db.plans.map seen)
    (hvehicles : ∀ vehicle ∈ db'.vehicles, vehicle.status = .active →
      ∃ old ∈ db.vehicles, old.id = vehicle.id ∧ old.status = .active) : FleetAgrees db' := by
  have hcurrent : ∀ {p : DeliveryPlan → Bool}, (∀ plan plan' : DeliveryPlan,
      plan'.progress = plan.progress → p plan' = p plan) → ∀ {a b : Database},
      a.plans.map seen = b.plans.map seen → OnCurrent b p → OnCurrent a p := by
    intro p hp a b hab
    refine exists_of_seen hab ?_
    rintro plan plan' hstatus hprogress ⟨hc, hplan⟩
    exact ⟨hstatus.trans hc, (hp plan plan' hprogress).trans hplan⟩
  have hactive : ∀ vehicleId (plan plan' : DeliveryPlan), plan'.progress = plan.progress →
      plan'.hasActiveRoute vehicleId = plan.hasActiveRoute vehicleId :=
    fun vehicleId _ _ hprogress ↦ hasActiveRoute_congr hprogress vehicleId
  refine ⟨?_, ?_⟩
  · intro vehicle hv hs
    obtain ⟨old, ho, hid, hos⟩ := hvehicles vehicle hv hs
    rw [← hid]
    exact hcurrent (fun _ _ hprogress ↦ isExecutedBy_congr hprogress _) hplans
      (h.active old ho hos)
  · intro vehicleId
    rw [hasActiveRouteForVehicle_iff]
    constructor
    · intro hex
      refine hcurrent (hactive vehicleId) hplans ((h.blocked vehicleId).mp ?_)
      rw [hasActiveRouteForVehicle_iff]
      refine exists_of_seen hplans.symm ?_ hex
      exact fun plan plan' _ hprogress hplan ↦ (hactive vehicleId plan plan' hprogress).trans hplan
    · rintro ⟨plan, hmem, -, hplan⟩
      exact ⟨plan, hmem, hplan⟩

/-! ### Reports and planning -/

/-- A delay moves planned times only. -/
theorem progress_shiftPlan (context : MerchantDelayWorkflow.MerchantIncidentContext)
    (updatedReadyAt : Instant) (plan : DeliveryPlan) :
    (MerchantDelayWorkflow.shiftPlan context updatedReadyAt plan).progress = plan.progress := by
  exact MerchantDelayWorkflow.map_routes_shiftPlan (f := (·.status))
    (g := fun route stops ↦ (route.vehicleId, route.status, stops)) (fun _ _ _ ↦ rfl)
    (fun _ _ _ ↦ rfl) context updatedReadyAt plan

/-- A report of a delay keeps the agreement. -/
theorem FleetAgrees.delayed (h : FleetAgrees db) {thresholdSeconds : Int}
    {businessDate : BusinessDate} {merchantId : UUID} {updatedReadyAt eventTime : Instant}
    {explicitIncident : Bool} {incidentId : Option UUID}
    (hd : MerchantDelayWorkflow.assessDelay thresholdSeconds db businessDate merchantId
      updatedReadyAt eventTime explicitIncident = .ok (db', incidentId)) : FleetAgrees db' := by
  rcases MerchantDelayWorkflow.assessDelay_ok hd with
    rfl | ⟨context, incident, -, -, -, -, -, rfl | rfl⟩
  · exact h
  · exact h.of_seen rfl fun vehicle hv hs ↦ ⟨vehicle, hv, rfl, hs⟩
  · refine h.of_seen ?_ fun vehicle hv hs ↦ ⟨vehicle, hv, rfl, hs⟩
    exact map_updateWhere fun plan ↦ congrArg (Prod.mk plan.status) (progress_shiftPlan _ _ plan)

/-- A vehicle that is reported gets UNAVAILABLE. -/
theorem FleetAgrees.reported (h : FleetAgrees db) {businessDate : BusinessDate}
    {vehicleId incidentId : UUID} {eventTime : Instant}
    {location : VehicleIncidentWorkflow.BreakdownLocation}
    (hr : VehicleIncidentWorkflow.reportUnavailable db businessDate vehicleId eventTime location =
      .ok (db', incidentId)) : FleetAgrees db' := by
  obtain ⟨context, locationId, -, -, -, -, rfl⟩ := VehicleIncidentWorkflow.reportUnavailable_ok hr
  refine h.of_seen rfl ?_
  intro vehicle hv hs
  obtain ⟨old, hold, ⟨-, rfl⟩ | ⟨-, rfl⟩⟩ := mem_updateWhere.mp hv
  · cases hs
  · exact ⟨_, hold, rfl, hs⟩

/-- A resource status update makes no vehicle ACTIVE. -/
theorem FleetAgrees.updateVehicleStatus (h : FleetAgrees db) {vehicleId : UUID}
    {target : ResourceStatus}
    (hu : Resources.updateVehicleStatus db vehicleId target = .ok db') : FleetAgrees db' := by
  obtain ⟨vehicle, -, hu⟩ := bind_eq_ok.mp hu
  split at hu
  · cases hu
    exact h
  · obtain ⟨hg, hu⟩ := unit_bind_eq_ok.mp hu
    cases hu
    refine h.of_seen rfl ?_
    intro row hrow hs
    obtain ⟨old, hold, ⟨-, rfl⟩ | ⟨-, rfl⟩⟩ := mem_updateWhere.mp hrow
    · rw [Resources.statusGuards, raiseFirst_cons_eq_ok, raiseFirst_cons_eq_ok] at hg
      have htarget : target = .active := hs
      rw [htarget] at hg
      have hallowed := hg.2.1
      revert hallowed
      cases vehicle.status <;> exact fun hc ↦ by cases hc
    · exact ⟨_, hold, rfl, hs⟩

/-- A candidate is made ACTIVE on routes only whose base routes are ACTIVE. -/
theorem hasActiveRoute_of_made {incidentId : UUID} {context : RecoveryContext}
    {result : SolverResult} {candidate : DeliveryPlan}
    (h : Made db incidentId context result candidate) {vehicleId : UUID}
    (ha : candidate.hasActiveRoute vehicleId = true) :
    OnCurrent db (·.hasActiveRoute vehicleId) := by
  obtain ⟨incident, base, -, hb, hread⟩ := materializeRecoveryContext_ok h.read
  obtain ⟨db₀, hcreated, -⟩ := h.created
  refine ⟨base, (plan?_mem hb).1, hread.current, ?_⟩
  obtain ⟨route, hr, he⟩ := List.any_eq_true.mp ha
  rw [Bool.and_eq_true_iff, beq_iff_eq, beq_iff_eq] at he
  obtain ⟨task, ht, hbuilt⟩ := exists_of_forall₂_right hcreated.routes hr
  have hrow := hbuilt.row
  cases task with
  | base own solver =>
    obtain ⟨road, endLocationId, hrow⟩ := hrow
    obtain ⟨source, hsource, rfl⟩ := (hread.mem_routes own).mp (base_of_task ht)
    have hvehicle : source.vehicleId = vehicleId := hbuilt.vehicleId.symm.trans he.1
    have hstatus : (rebuiltRoute context road (routeSnapshot source) solver route.id route.routeNo
        endLocationId).status = .active := (congrArg VehicleRoute.status hrow).symm.trans he.2
    have hactive : source.status = .active := by
      revert hstatus
      rw [rebuiltRoute]
      dsimp only
      split
      · exact id
      · split
        · exact fun hc ↦ by cases hc
        · exact id
    refine List.any_eq_true.mpr ⟨source, hsource, ?_⟩
    rw [hvehicle, hactive, beq_self_eq_true, beq_self_eq_true]
    rfl
  | extra solver =>
    obtain ⟨road, pair, last, -, -, hrow⟩ := hrow
    rw [hrow] at he
    cases he.2

/-- Planning keeps the agreement. -/
theorem FleetAgrees.planned (h : FleetAgrees db) {added : List DeliveryPlan}
    (plans : Plans db db' added) (made : ∀ candidate ∈ added, ∃ incidentId context result,
      Made db incidentId context result candidate) (current : SameCurrent db db') :
    FleetAgrees db' := by
  have hcurrent : ∀ {p : DeliveryPlan → Bool}, OnCurrent db' p ↔ OnCurrent db p := by
    intro p
    constructor
    · rintro ⟨plan, hm, hs, hp⟩
      exact ⟨plan, (current plan hs).mp hm, hs, hp⟩
    · rintro ⟨plan, hm, hs, hp⟩
      exact ⟨plan, (current plan hs).mpr hm, hs, hp⟩
  refine ⟨?_, ?_⟩
  · intro vehicle hv hs
    rw [plans.vehicles] at hv
    exact hcurrent.mpr (h.active vehicle hv hs)
  · intro vehicleId
    rw [hasActiveRouteForVehicle_iff, hcurrent]
    constructor
    · rintro ⟨plan, hm, hp⟩
      have hbare : plan.bare ∈ (db.plans ++ added).map (·.bare) := by
        rw [← plans.plans]
        exact List.mem_map_of_mem hm
      obtain ⟨old, hold, he⟩ := List.mem_map.mp hbare
      have hsame : old.routes = plan.routes := (congrArg DeliveryPlan.routes he :)
      have hroutes : old.hasActiveRoute vehicleId = true := by
        rw [DeliveryPlan.hasActiveRoute, hsame]
        exact hp
      rcases List.mem_append.mp hold with hold | hnew
      · refine (h.blocked vehicleId).mp (hasActiveRouteForVehicle_iff.mpr ?_)
        exact ⟨old, hold, hroutes⟩
      · obtain ⟨incidentId, context, result, hmade⟩ := made old hnew
        exact hasActiveRoute_of_made hmade hroutes
    · intro hon
      obtain ⟨plan, hm, -, hp⟩ := hcurrent.mpr hon
      exact ⟨plan, hm, hp⟩

/-! ### Execution -/

/-- The routes of every plan have different ids. -/
def RoutesNumbered (db : Database) : Prop := ∀ plan ∈ db.plans, (plan.routes.map (·.id)).Nodup

section

variable {stopId : UUID} {action : StopAction} {eventTime : Instant} {base : DeliveryPlan}
  {route : VehicleRoute} {stop : RouteStop}

/-- A transition does not change what other plans are. -/
theorem movedPlan_of_ne {plan : DeliveryPlan} (h : plan.id ≠ base.id) (target : StopStatus) :
    movedPlan base route stop target eventTime plan = plan :=
  if_neg fun he ↦ h (eq_of_beq he)

/-- Of the plan itself it changes the route. -/
theorem movedPlan_self (target : StopStatus) :
    movedPlan base route stop target eventTime base =
      base.updateRoute route.id (advanceRoute stop.id target eventTime) :=
  if_pos (beq_self_eq_true _)

/-- A stop event leaves the vehicle of the route. -/
theorem advanceRoute_vehicleId (target : StopStatus) (route : VehicleRoute) :
    (advanceRoute stopId target eventTime route).vehicleId = route.vehicleId := by
  rw [advanceRoute]
  split <;> split <;> rfl

/-- The end of a route leaves no vehicle ACTIVE. -/
theorem resourceStatus_ne_active (starts : Bool) (status : ResourceStatus) :
    resourceStatus starts true status ≠ .active := by
  cases starts <;> cases status <;> decide

/-- A transition that does not complete its route leaves it ACTIVE, with a stop to do. -/
theorem Checked.active (h : Checked db stopId action.expected action.target eventTime base route
    stop) (hends : completesRoute stop.id action.target eventTime route = false) :
    (advanceRoute stop.id action.target eventTime route).status = .active ∧
      ∃ other ∈ (advanceRoute stop.id action.target eventTime route).stops,
        other.status ≠ .completed := by
  obtain ⟨-, -, hmem, -⟩ := lockedStop?_mem h.locked
  have hnot : ¬ (action.target = .completed ∧ (route.updateStop stop.id
      (advanceStop action.target eventTime)).stops.all (·.status == .completed) = true) := by
    rw [completesRoute, Bool.and_eq_false_iff, beq_eq_false_iff_ne] at hends
    rintro ⟨htarget, hall⟩
    rcases hends with hne | hfalse
    · exact hne htarget
    · rw [hall] at hfalse
      cases hfalse
  refine ⟨?_, ?_⟩
  · rw [advanceRoute, if_neg hnot]
    split
    · rfl
    · next hs =>
      obtain ⟨hcancelled, hcompleted⟩ := h.runnable
      revert hs hcancelled hcompleted
      change route.status ≠ .planned → _ → _ → route.status = .active
      cases route.status
      · exact fun hp _ _ ↦ absurd rfl hp
      · exact fun _ _ _ ↦ rfl
      · exact fun _ _ hc ↦ absurd rfl hc
      · exact fun _ hc _ ↦ absurd rfl hc
  · rw [advanceRoute_stops]
    by_cases htarget : action.target = .completed
    · have hopen : ¬ (updateWhere route.stops (·.id == stop.id)
          (advanceStop action.target eventTime)).all (·.status == .completed) = true :=
        fun hall ↦ hnot ⟨htarget, hall⟩
      rw [List.all_eq_true] at hopen
      push Not at hopen
      obtain ⟨other, ho, hs⟩ := hopen
      exact ⟨other, ho, fun he ↦ hs (beq_iff_eq.mpr he)⟩
    · refine ⟨advanceStop action.target eventTime stop,
        mem_updateWhere_of_true hmem (beq_self_eq_true _), ?_⟩
      cases action
      · exact fun hc ↦ by cases hc
      · exact fun hc ↦ by cases hc
      · exact absurd rfl htarget

/-- A vehicle of another route sees no difference. -/
theorem any_updateRoute {plan : DeliveryPlan} (hroute : route ∈ plan.routes)
    (hids : (plan.routes.map (·.id)).Nodup) {target : StopStatus} {p : VehicleRoute → Bool}
    (hp : p (advanceRoute stopId target eventTime route) = p route) :
    (plan.updateRoute route.id (advanceRoute stopId target eventTime)).routes.any p =
      plan.routes.any p := by
  rw [Bool.eq_iff_iff, List.any_eq_true, List.any_eq_true]
  constructor
  · rintro ⟨row, hrow, hr⟩
    obtain ⟨old, hold, ⟨hid, rfl⟩ | ⟨-, rfl⟩⟩ := mem_updateWhere.mp hrow
    · rw [eq_of_key_eq hids hold hroute (eq_of_beq hid), hp] at hr
      exact ⟨route, hroute, hr⟩
    · exact ⟨_, hold, hr⟩
  · rintro ⟨row, hrow, hr⟩
    by_cases hid : row.id = route.id
    · rw [eq_of_key_eq hids hrow hroute hid] at hr
      exact ⟨_, mem_updateWhere_of_true hroute (beq_self_eq_true _), hp.trans hr⟩
    · exact ⟨row, mem_updateWhere_of_false hrow (beq_false_of_ne hid), hr⟩

/-- A transition keeps the agreement, when the route that it completes is the last one. -/
theorem FleetAgrees.moved (h : FleetAgrees db) (hids : (db.plans.map (·.id)).Nodup)
    (hnumbered : RoutesNumbered db) {thresholdSeconds : Int}
    (hc : Checked db stopId action.expected action.target eventTime base route stop)
    (hleft : completesRoute stop.id action.target eventTime route = true →
      ∀ other ∈ db.plans, other.status ≠ .current →
        other.hasActiveRoute route.vehicleId = true →
        ∃ running ∈ db.plans, running.id ≠ base.id ∧ running.status = .current ∧
          running.hasActiveRoute route.vehicleId = true) :
    FleetAgrees (applyTransition thresholdSeconds db base route stop action.target eventTime) := by
  obtain ⟨hbase, hroute, -, -⟩ := lockedStop?_mem hc.locked
  let moved := base.updateRoute route.id (advanceRoute stop.id action.target eventTime)
  have hself : movedPlan base route stop action.target eventTime base = moved :=
    movedPlan_self action.target
  have hmoved : moved ∈ db.plans.map (movedPlan base route stop action.target eventTime) := by
    rw [← hself]
    exact List.mem_map_of_mem hbase
  have hstay : ∀ plan ∈ db.plans, plan.id ≠ base.id →
      plan ∈ db.plans.map (movedPlan base route stop action.target eventTime) := by
    intro plan hp hne
    have hsame := @movedPlan_of_ne eventTime base route stop plan hne action.target
    rw [← hsame]
    exact List.mem_map_of_mem hp
  have hvehicleId : (advanceRoute stop.id action.target eventTime route).vehicleId =
      route.vehicleId := advanceRoute_vehicleId _ _
  -- The routes of other vehicles are what they were.
  have hother : ∀ {p : VehicleRoute → Bool},
      p (advanceRoute stop.id action.target eventTime route) = p route → ∀ plan ∈ db.plans,
        (movedPlan base route stop action.target eventTime plan).routes.any p =
          plan.routes.any p := by
    intro p hp plan hplan
    by_cases hid : plan.id = base.id
    · rw [eq_of_key_eq hids hplan hbase hid, hself]
      exact any_updateRoute hroute (hnumbered base hbase) hp
    · rw [movedPlan_of_ne hid]
  have hkept : ∀ {p : VehicleRoute → Bool},
      p (advanceRoute stop.id action.target eventTime route) = p route →
      OnCurrent db (fun plan ↦ plan.routes.any p) →
      ∃ plan ∈ db.plans.map (movedPlan base route stop action.target eventTime),
        plan.status = .current ∧ plan.routes.any p = true := by
    rintro p hp ⟨plan, hplan, hs, hany⟩
    refine ⟨_, List.mem_map_of_mem hplan, ?_, (hother hp plan hplan).trans hany⟩
    rw [movedPlan]
    split
    · exact hs
    · exact hs
  have hrunning : completesRoute stop.id action.target eventTime route = false →
      moved.isExecutedBy route.vehicleId = true := by
    intro hends
    obtain ⟨hactive, other, ho, hos⟩ := Checked.active hc hends
    refine List.any_eq_true.mpr ⟨_, mem_updateWhere_of_true hroute (beq_self_eq_true _), ?_⟩
    rw [hvehicleId, hactive, beq_self_eq_true, beq_self_eq_true]
    exact List.any_eq_true.mpr ⟨other, ho, bne_iff_ne.mpr hos⟩
  refine ⟨?_, ?_⟩
  · intro vehicle hv hs
    obtain ⟨old, hold, ⟨hid, rfl⟩ | ⟨hid, rfl⟩⟩ := mem_updateWhere.mp hv
    · have hends : completesRoute stop.id action.target eventTime route = false := by
        rw [Bool.eq_false_iff]
        intro he
        have hresource : resourceStatus (route.status == .planned) true old.status = .active := by
          rw [← he]
          exact hs
        exact resourceStatus_ne_active _ _ hresource
      have hown : old.id = route.vehicleId := eq_of_beq hid
      refine ⟨moved, hmoved, hc.current, ?_⟩
      rw [← hown] at hrunning
      exact hrunning hends
    · refine hkept ?_ (h.active _ hold hs)
      have hne : (route.vehicleId == vehicle.id) = false := beq_false_of_ne fun he ↦
        beq_eq_false_iff_ne.mp hid he.symm
      rw [hvehicleId, hne]
      rfl
  · intro vehicleId
    rw [hasActiveRouteForVehicle_iff]
    constructor
    · rintro ⟨plan', hplan', hactive⟩
      rw [plans_applyTransition] at hplan'
      obtain ⟨plan, hplan, rfl⟩ := List.mem_map.mp hplan'
      by_cases hv : route.vehicleId = vehicleId
      · by_cases hends : completesRoute stop.id action.target eventTime route = true
        · by_cases hcurrent : plan.status = .current
          · refine ⟨_, hplan', ?_, hactive⟩
            rw [movedPlan]
            split
            · exact hcurrent
            · exact hcurrent
          · have hne : plan.id ≠ base.id := fun he ↦ by
              rw [eq_of_key_eq hids hplan hbase he] at hcurrent
              exact hcurrent hc.current
            rw [movedPlan_of_ne hne, ← hv] at hactive
            obtain ⟨running, hr, hrid, hrs, hra⟩ := hleft hends plan hplan hcurrent hactive
            rw [hv] at hra
            exact ⟨running, hstay running hr hrid, hrs, hra⟩
        · refine ⟨moved, hmoved, hc.current, hasActiveRoute_of_isExecutedBy ?_⟩
          rw [← hv]
          exact hrunning (Bool.eq_false_iff.mpr hends)
      · have hne : (route.vehicleId == vehicleId) = false := beq_false_of_ne hv
        refine hkept (by rw [hvehicleId, hne]; rfl) ((h.blocked vehicleId).mp ?_)
        rw [hasActiveRouteForVehicle_iff]
        refine ⟨plan, hplan, ?_⟩
        rw [← hactive]
        exact (hother (by rw [hvehicleId, hne]; rfl) plan hplan).symm
    · rintro ⟨plan, hplan, -, hactive⟩
      exact ⟨plan, hplan, hactive⟩

end

/-! ### Approvals -/

/-- Planning that adds no plan leaves all routes. -/
theorem hasActiveRouteForVehicle_of_plans (h : Plans db db' []) (vehicleId : UUID) :
    Resources.hasActiveRouteForVehicle db' vehicleId =
      Resources.hasActiveRouteForVehicle db vehicleId := by
  have hroutes : db'.plans.map (·.routes) = db.plans.map (·.routes) := by
    have hbare := congrArg (List.map DeliveryPlan.routes) h.plans
    rw [List.append_nil, List.map_map, List.map_map] at hbare
    exact hbare
  have hany : ∀ plans : List DeliveryPlan,
      (plans.any fun plan ↦ plan.routes.any fun route ↦
        route.vehicleId == vehicleId && route.status == .active) =
      (plans.map (·.routes)).any fun routes ↦ routes.any fun route ↦
        route.vehicleId == vehicleId && route.status == .active := by
    intro plans
    rw [List.any_map]
    rfl
  rw [Resources.hasActiveRouteForVehicle, Resources.hasActiveRouteForVehicle, hany, hany, hroutes]

/-- An approval keeps the agreement, when the candidate goes on with the ACTIVE routes of its
base plan. -/
theorem FleetAgrees.approved (h : FleetAgrees db) (hl : (ledgerOf db).Sound) {recoveryId : UUID}
    {reviewable : Decisions.Reviewable} (hlocked : Decisions.Locked db recoveryId reviewable)
    (plans : Plans db (Decisions.applyApproval db reviewable) [])
    (hkept : ∀ vehicleId, reviewable.base.hasActiveRoute vehicleId = true →
      reviewable.candidate.isExecutedBy vehicleId = true ∨
      ∃ running ∈ db.plans, running.id ≠ reviewable.base.id ∧ running.status = .current ∧
        running.isExecutedBy vehicleId = true) :
    FleetAgrees (Decisions.applyApproval db reviewable) := by
  have hcurrent := applyApproval_current hl hlocked
  obtain ⟨hbase, -⟩ := plan?_mem hlocked.base
  have hexecuted : ∀ vehicleId, reviewable.base.hasActiveRoute vehicleId = true →
      OnCurrent (Decisions.applyApproval db reviewable) (·.isExecutedBy vehicleId) := by
    intro vehicleId hv
    rcases hkept vehicleId hv with hc | ⟨running, hr, hid, hs, hr'⟩
    · exact ⟨{ reviewable.candidate with status := .current },
        (hcurrent _ rfl).mpr (.inl rfl), rfl, hc⟩
    · exact ⟨running, (hcurrent running hs).mpr (.inr ⟨hr, hid⟩), hs, hr'⟩
  refine ⟨?_, ?_⟩
  · intro vehicle hv hs
    rw [plans.vehicles] at hv
    obtain ⟨plan, hp, hps, hpe⟩ := h.active vehicle hv hs
    by_cases hid : plan.id = reviewable.base.id
    · rw [eq_of_key_eq hl.planIds hp hbase hid] at hpe
      exact hexecuted vehicle.id (hasActiveRoute_of_isExecutedBy hpe)
    · exact ⟨plan, (hcurrent plan hps).mpr (.inr ⟨hp, hid⟩), hps, hpe⟩
  · intro vehicleId
    constructor
    · intro ha
      rw [hasActiveRouteForVehicle_of_plans plans] at ha
      obtain ⟨plan, hp, hps, hpa⟩ := (h.blocked vehicleId).mp ha
      by_cases hid : plan.id = reviewable.base.id
      · rw [eq_of_key_eq hl.planIds hp hbase hid] at hpa
        obtain ⟨running, hr, hrs, hre⟩ := hexecuted vehicleId hpa
        exact ⟨running, hr, hrs, hasActiveRoute_of_isExecutedBy hre⟩
      · exact ⟨plan, (hcurrent plan hps).mpr (.inr ⟨hp, hid⟩), hps, hpa⟩
    · rintro ⟨plan, hp, -, hpa⟩
      exact hasActiveRouteForVehicle_iff.mpr ⟨plan, hp, hpa⟩

/-! ### Runs -/

/-- The same ids are as distinct. -/
theorem RoutesNumbered.of_ids (h : RoutesNumbered db)
    (hplans : ∀ plan' ∈ db'.plans, ∃ plan ∈ db.plans,
      plan'.routes.map (·.id) = plan.routes.map (·.id)) : RoutesNumbered db' := by
  intro plan' hp
  obtain ⟨plan, hplan, he⟩ := hplans plan' hp
  rw [he]
  exact h plan hplan

/-- New plans with distinct ids keep all of them distinct. -/
theorem RoutesNumbered.of_plans (h : RoutesNumbered db) {added : List DeliveryPlan}
    (hplans : Plans db db' added)
    (hadded : ∀ plan ∈ added, (plan.routes.map (·.id)).Nodup) : RoutesNumbered db' := by
  intro plan' hp
  have hbare : plan'.bare ∈ (db.plans ++ added).map (·.bare) := by
    rw [← hplans.plans]
    exact List.mem_map_of_mem hp
  obtain ⟨old, hold, he⟩ := List.mem_map.mp hbare
  have hsame : old.routes = plan'.routes := (congrArg DeliveryPlan.routes he :)
  rw [← hsame]
  exact (List.mem_append.mp hold).elim (h old) (hadded old)

variable {settings : Settings} {s : SysState} {action : Action}

/-- No transaction gives two routes of a plan one id. -/
theorem RoutesNumbered.effect (h : RoutesNumbered db) (he : Effect settings db action db') :
    RoutesNumbered db' := by
  cases he with
  | idle => exact h
  | moved hcall hc =>
    refine h.of_ids fun plan' hp ↦ ?_
    rw [plans_applyTransition] at hp
    obtain ⟨plan, hplan, rfl⟩ := List.mem_map.mp hp
    exact ⟨plan, hplan, movedPlan_routeIds _⟩
  | advanced ha => obtain rfl | ⟨order, -, -, rfl⟩ := Resources.advanceExecution_ok ha <;> exact h
  | flagged riskOf => exact h
  | reported hr =>
    obtain ⟨context, locationId, -, -, -, -, rfl⟩ := VehicleIncidentWorkflow.reportUnavailable_ok hr
    exact h
  | delayed hd =>
    rcases MerchantDelayWorkflow.assessDelay_ok hd with
      rfl | ⟨context, incident, -, -, -, -, -, rfl | rfl⟩
    · exact h
    · exact h
    · refine h.of_ids fun plan' hp ↦ ?_
      obtain ⟨plan, hplan, ⟨-, rfl⟩ | ⟨-, rfl⟩⟩ := mem_updateWhere.mp hp
      · refine ⟨plan, hplan, ?_⟩
        exact MerchantDelayWorkflow.map_routes_shiftPlan (f := (·.id)) (g := fun route _ ↦ route.id)
          (fun _ _ _ ↦ rfl) (fun _ _ _ ↦ rfl) _ _ plan
      · exact ⟨_, hplan, rfl⟩
  | planned _ plans made _ =>
    refine h.of_plans plans fun candidate hc ↦ ?_
    obtain ⟨incidentId, context, result, hmade⟩ := made candidate hc
    obtain ⟨db₀, hcreated, -⟩ := hmade.created
    exact hcreated.routeIds_nodup
  | approved _ _ _ => exact h.of_plans (applyApproval_plans _ _) fun _ hc ↦ by cases hc

/-- A transaction that leaves no ACTIVE route behind keeps the agreement. -/
theorem FleetAgrees.effect (h : FleetAgrees s.db) (hl : (ledgerOf s.db).Sound)
    (hnumbered : RoutesNumbered s.db) (hleft : RoutesGoOn s (.transact action))
    (he : Effect settings s.db action db') : FleetAgrees db' := by
  cases he with
  | idle => exact h
  | @moved call stopId occurredAt plan route stop _ hcall hc =>
    refine h.moved hl.planIds hnumbered hc fun hends ↦ ?_
    have hcompletes : call = .complete := by
      rw [completesRoute, Bool.and_eq_true_iff] at hends
      cases call
      · exact absurd hends.1 (by decide)
      · exact absurd hends.1 (by decide)
      · rfl
    subst hcompletes hcall
    have hopen : stop.status ≠ .completed := by
      rw [hc.expected]
      decide
    exact hleft plan route stop hc.locked hopen hends
  | advanced ha =>
    obtain rfl | ⟨order, -, -, rfl⟩ := Resources.advanceExecution_ok ha
    · exact h
    · exact h.of_seen rfl fun vehicle hv hs ↦ ⟨vehicle, hv, rfl, hs⟩
  | flagged riskOf => exact h.of_seen rfl fun vehicle hv hs ↦ ⟨vehicle, hv, rfl, hs⟩
  | reported hr => exact h.reported hr
  | delayed hd => exact h.delayed hd
  | planned _ plans made current => exact h.planned plans made current
  | approved hlocked _ _ =>
    refine h.approved hl hlocked (applyApproval_plans _ _) fun vehicleId hv ↦ ?_
    refine hleft _ _ _ hlocked.recovery hlocked.base ?_ vehicleId hv
    rw [hlocked.candidateId]
    exact hlocked.candidate

/-- What holds of the fleet over a run. -/
structure FleetOk (s : SysState) : Prop where
  lifecycle : LifecycleOk s
  numbered : RoutesNumbered s.db
  agrees : FleetAgrees s.db

/-- Parked vehicles agree with a plan that nobody has begun. -/
theorem FleetOk.initial (h : Parked s) : FleetOk s := by
  have hnone : ∀ vehicleId, ∀ plan ∈ s.db.plans, plan.hasActiveRoute vehicleId ≠ true := by
    intro vehicleId plan hp ha
    obtain ⟨route, hr, he⟩ := List.any_eq_true.mp ha
    rw [h.planned plan hp route hr, Bool.and_eq_true_iff] at he
    cases he.2
  refine ⟨.initial h.initial, fun plan hp ↦ (h.untouched plan hp).routeIds, ?_, ?_⟩
  · exact fun vehicle hv hs ↦ absurd hs (h.parked vehicle hv)
  · intro vehicleId
    rw [hasActiveRouteForVehicle_iff]
    constructor
    · rintro ⟨plan, hp, ha⟩
      exact absurd ha (hnone vehicleId plan hp)
    · rintro ⟨plan, hp, -, ha⟩
      exact absurd ha (hnone vehicleId plan hp)

/-- A resource status update writes vehicles only. -/
theorem updateVehicleStatus_ok {vehicleId : UUID} {target : ResourceStatus}
    (hu : Resources.updateVehicleStatus db vehicleId target = .ok db') :
    ledgerOf db' = ledgerOf db ∧ db'.plans = db.plans := by
  obtain ⟨vehicle, -, hu⟩ := bind_eq_ok.mp hu
  split at hu
  · cases hu
    exact ⟨rfl, rfl⟩
  · obtain ⟨-, hu⟩ := unit_bind_eq_ok.mp hu
    cases hu
    exact ⟨rfl, rfl⟩

/-- A call that is refused changes nothing. -/
theorem applyFleet_of_refused {action : FleetAction} (h : ¬ succeeds settings s action = true) :
    applyFleet settings s action = s := by
  have hcommit : ∀ {α : Type} {outcome : Except AppError α} {f : α → SysState},
      ¬ outcome.isOk = true → s.commit outcome f = s := by
    intro α outcome f hrefused
    cases outcome with
    | ok a => exact absurd rfl hrefused
    | error error => rfl
  cases action with
  | transact action =>
    cases action with
    | complete stopId occurredAt => exact hcommit h
    | decide services recoveryId decision reason now => exact hcommit h
    | arrive | startService | advanceExecution | refreshAlerts | reportUnavailable | assessDelay
    | startRecovery | startOptions | continueRun | modify => exact absurd rfl h
  | updateVehicleStatus vehicleId target => exact absurd rfl h

/-- Every step whose routes go on keeps what holds of the fleet. -/
theorem FleetOk.goOn (h : FleetOk s) (settings : Settings) {action : FleetAction}
    (hleft : RoutesGoOn s action) : FleetOk (applyFleet settings s action) := by
  cases action with
  | transact action =>
    have he : Effect settings s.db action (s.apply settings action).db :=
      h.lifecycle.effect settings action
    exact ⟨h.lifecycle.apply settings action, h.numbered.effect he,
      h.agrees.effect h.lifecycle.sound h.numbered hleft he⟩
  | updateVehicleStatus vehicleId target =>
    refine SysState.commit_ind h fun db hu ↦ ?_
    obtain ⟨hledger, hplans⟩ := updateVehicleStatus_ok hu
    refine ⟨h.lifecycle.same hledger rfl rfl, ?_, h.agrees.updateVehicleStatus hu⟩
    exact h.numbered.of_ids fun plan hp ↦ ⟨plan, hplans ▸ hp, rfl⟩

/-- So does every step that is refused. -/
theorem FleetOk.apply (h : FleetOk s) (settings : Settings) {action : FleetAction}
    (hleft : LeavesNoRoute settings s action) : FleetOk (applyFleet settings s action) := by
  by_cases hok : succeeds settings s action = true
  · exact h.goOn settings (hleft hok)
  · rw [applyFleet_of_refused hok]
    exact h

/-- In every run that leaves no ACTIVE route behind, an ACTIVE vehicle executes a route of a
CURRENT plan, and the fleet takes a vehicle for executing one exactly when it is. -/
theorem fleet_agrees (h : Reachable (applyFleet settings) Parked (LeavesNoRoute settings) s) :
    FleetAgrees s.db :=
  (Reachable.invariant (fun _ hs ↦ FleetOk.initial hs)
    (fun _ _ hs hleft ↦ hs.apply settings hleft) h).agrees

/-! ### A delayed merchant -/

/-- A solver that serves order 31 on the given vehicle. -/
def servesOn (vehicleId : UUID) : WorkflowServices where
  buildDistanceTimeMatrix locationIds := .ok (uniformMatrix locationIds)
  solve input :=
    if input.orders.map (·.orderId) = [31] ∧ (input.vehicles.map (·.vehicleId)).contains vehicleId
    then delayResult 31 vehicleId 2 else infeasible "No route"
  buildRoute := none
  agent := none

/-- Vehicle 20 arrives at merchant 7, which is late, and a candidate is made. -/
def arriveThenRecover (vehicleId : UUID) : List FleetAction :=
  [.transact (.arrive 53 60000000),
    .transact (.assessDelay 738000 7 900000000 60000000 true),
    .transact (.startOptions 100 twoCandidates false 120000000),
    .transact (.continueRun 0 (servesOn vehicleId) 120000000),
    .transact (.continueRun 0 (servesOn vehicleId) 120000000),
    .transact (.continueRun 0 (servesOn vehicleId) 120000000)]

/-- The approval of that candidate. -/
def approveRecovery (vehicleId : UUID) : FleetAction :=
  .transact (.decide (servesOn vehicleId).toServices 101 .approve "approved" 120000000)

/-- The state before the approval. -/
def recoveredState (vehicleId : UUID) : SysState :=
  (arriveThenRecover vehicleId).foldl (applyFleet scenarioSettings) delayStart

/-- The state behind it. -/
def approvedState (vehicleId : UUID) : SysState :=
  applyFleet scenarioSettings (recoveredState vehicleId) (approveRecovery vehicleId)

/-- In the delay scenario the vehicles are parked. -/
theorem delayStart_parked : Parked delayStart where
  initial := ⟨rfl, rfl, rfl, rfl, rfl, rfl, rfl, by decide, by decide, by decide⟩
  untouched plan hp := by
    rw [List.mem_singleton.mp hp]
    exact ⟨by decide, by decide, by decide, by decide⟩
  planned := by decide
  parked := by decide

/-- The recovered state is reached without leaving a route. -/
theorem recoveredState_reachable (vehicleId : UUID) :
    Reachable (applyFleet scenarioSettings) Parked (LeavesNoRoute scenarioSettings)
      (recoveredState vehicleId) := by
  refine Reachable.run (.init delayStart_parked) _ fun s a ha ↦ ?_
  simp only [arriveThenRecover, List.mem_cons, List.not_mem_nil, or_false] at ha
  rcases ha with rfl | rfl | rfl | rfl | rfl | rfl <;> exact fun _ ↦ trivial

/-- When vehicle 20 goes on with its route, the agreement survives the approval. -/
theorem kept_route_agrees :
    FleetAgrees (approvedState 20).db ∧
      (approvedState 20).db.vehicles.map (fun vehicle ↦ (vehicle.id, vehicle.status)) =
        [(10, .available), (20, .active)] := by
  refine ⟨fleet_agrees (.step _ (recoveredState_reachable 20) ?_), by decide +kernel⟩
  have hkept : (((recoveredState 20).db.recoveryPlan? 101).all fun recovery ↦
      ((recoveredState 20).db.plan? recovery.baseDeliveryPlanId).all fun base ↦
        (recovery.candidateDeliveryPlanId.bind (recoveredState 20).db.plan?).all fun candidate ↦
          base.routes.all fun route ↦ route.status != .active ||
            candidate.isExecutedBy route.vehicleId) = true := by
    decide +kernel
  intro _ recovery base candidate hr hb hc vehicleId ha
  rw [hr, Option.all_some, hb, Option.all_some, hc, Option.all_some, List.all_eq_true] at hkept
  obtain ⟨route, hmem, he⟩ := List.any_eq_true.mp ha
  rw [Bool.and_eq_true_iff, beq_iff_eq, beq_iff_eq] at he
  have hexecuted := hkept route hmem
  rw [he.1, he.2] at hexecuted
  exact .inl hexecuted

/-- When its order goes to vehicle 10, it stays ACTIVE, and counts as one with an active route,
without a route of a CURRENT plan. -/
theorem dropped_route_leaves_vehicle_active :
    Reachable (applyFleet scenarioSettings) Parked (fun _ _ ↦ True) (approvedState 10) ∧
      (∃ vehicle ∈ (approvedState 10).db.vehicles, vehicle.id = 20 ∧ vehicle.status = .active) ∧
      Resources.hasActiveRouteForVehicle (approvedState 10).db 20 = true ∧
      (∀ plan ∈ (approvedState 10).db.plans,
        plan.status = .current → plan.hasActiveRoute 20 = false) ∧
      ¬ FleetAgrees (approvedState 10).db := by
  have hblocked : Resources.hasActiveRouteForVehicle (approvedState 10).db 20 = true := by
    decide +kernel
  have hnone : ∀ plan ∈ (approvedState 10).db.plans, plan.status = .current →
      plan.hasActiveRoute 20 = false := by
    decide +kernel
  refine ⟨?_, by decide +kernel, hblocked, hnone, fun h ↦ ?_⟩
  · exact .step _ ((recoveredState_reachable 10).mono fun _ _ _ ↦ trivial) trivial
  · obtain ⟨plan, hp, hs, ha⟩ := (h.blocked 20).mp hblocked
    exact Bool.false_ne_true ((hnone plan hp hs).symm.trans ha)

end PenroseRoute.System
