import PenroseRoute.Planning.ComparisonLaws
import PenroseRoute.Planning.FinalizedRows

/-!
# Copies of plans

A plan and a copy of it with other row ids have the same actions, signatures and assignments, so
that their comparison reports no change. The laws of the comparison are put together here.
-/

namespace PenroseRoute.Db

/-- The stop as another row, behind the other row of its predecessor. -/
def RouteStop.renamed (rename : UUID → UUID) (stop : RouteStop) : RouteStop :=
  { stop with
    id := rename stop.id
    precedenceStopId := stop.precedenceStopId.map rename }

/-- The route as another row, with its stops as other rows. -/
def VehicleRoute.renamed (renameRoute renameStop : UUID → UUID) (route : VehicleRoute) :
    VehicleRoute :=
  { route with
    id := renameRoute route.id
    stops := route.stops.map (·.renamed renameStop) }

/-- The membership with the other row of its route. -/
def DeliveryPlanOrder.renamed (renameRoute : UUID → UUID) (membership : DeliveryPlanOrder) :
    DeliveryPlanOrder :=
  { membership with vehicleRouteId := membership.vehicleRouteId.map renameRoute }

end PenroseRoute.Db

namespace PenroseRoute.Planning

open PenroseRoute.Db PenroseRoute.Lib PenroseRoute.Operations PenroseRoute.Optimization

/-- A copy with other ids for routes and stops, different rows with different ids. -/
structure Renamed (renameRoute renameStop : UUID → UUID) (plan copy : DeliveryPlan) : Prop where
  routeIds : Function.Injective renameRoute
  stopIds : Function.Injective renameStop
  routes : copy.routes = plan.routes.map (·.renamed renameRoute renameStop)
  planOrders : copy.planOrders = plan.planOrders.map (·.renamed renameRoute)

variable {renameRoute renameStop : UUID → UUID} {base candidate plan copy : DeliveryPlan}
  {actions copyActions : Actions} {key : ActionKey}

/-- A copy has one of each as well. -/
theorem OneOfEach.renamed (h : OneOfEach plan) (hc : Renamed renameRoute renameStop plan copy) :
    OneOfEach copy := by
  refine ⟨?_, ?_, ?_⟩
  · rw [hc.routes, List.map_map]
    exact h.vehicles
  · rw [hc.planOrders, List.map_map]
    exact h.members
  · have hsame : ((plan.routes.map (·.renamed renameRoute renameStop)).flatMap (·.stops)).map
        actionKey = (plan.routes.flatMap (·.stops)).map actionKey := by
      rw [List.flatMap_map, List.map_flatMap, List.map_flatMap]
      refine List.flatMap_congr fun route _ ↦ ?_
      rw [VehicleRoute.renamed, List.map_map]
      rfl
    rw [hc.routes, hsame]
    exact h.actions

/-! ### Signatures -/

/-- The other row of an action. -/
def renamedEntry (renameStop : UUID → UUID) (entry : RouteStop × UUID) : RouteStop × UUID :=
  (entry.1.renamed renameStop, entry.2)

namespace Renamed

/-- A copy has the other rows of all actions. -/
theorem rows (h : Renamed renameRoute renameStop plan copy) (hp : ActionsOf plan actions)
    (hc : ActionsOf copy copyActions) :
    copyActions = actions.map fun entry ↦ (entry.1, renamedEntry renameStop entry.2) := by
  rw [hc.rows, hp.rows, h.routes, List.flatMap_map, List.map_flatMap]
  refine List.flatMap_congr fun route _ ↦ ?_
  rw [VehicleRoute.renamed, List.map_map, List.map_map]
  rfl

/-- Under a key stands the other row. -/
theorem action? (h : Renamed renameRoute renameStop plan copy) (hp : ActionsOf plan actions)
    (hc : ActionsOf copy copyActions) : Planning.action? copyActions key =
      (Planning.action? actions key).map (renamedEntry renameStop) := by
  rw [Planning.action?, Planning.action?, h.rows hp hc, List.find?_map, Option.map_map,
    Option.map_map]
  rfl

/-- The other row has the same predecessor. -/
theorem predecessor (h : Renamed renameRoute renameStop plan copy) (hp : ActionsOf plan actions)
    (hc : ActionsOf copy copyActions) (stop : RouteStop) :
    Planning.predecessor (stop.renamed renameStop) copyActions =
      Planning.predecessor stop actions := by
  have hsame : ∀ prior : RouteStop, (some (prior.renamed renameStop).id ==
      (stop.renamed renameStop).precedenceStopId) = (some prior.id == stop.precedenceStopId) := by
    intro prior
    rw [RouteStop.renamed, RouteStop.renamed]
    dsimp only
    rw [← Option.map_some, Bool.eq_iff_iff, beq_iff_eq, beq_iff_eq,
      (Option.map_injective h.stopIds).eq_iff]
  rw [Planning.predecessor, Planning.predecessor, h.rows hp hc, List.find?_map, Option.map_map]
  simp only [Function.comp_def, renamedEntry, hsame]
  rfl

/-- So it has the same signature. -/
theorem stopSignature (h : Renamed renameRoute renameStop plan copy) (hp : ActionsOf plan actions)
    (hc : ActionsOf copy copyActions) (stop : RouteStop) (vehicleId : UUID) :
    Planning.stopSignature (stop.renamed renameStop) vehicleId copyActions =
      Planning.stopSignature stop vehicleId actions := by
  rw [Planning.stopSignature, Planning.stopSignature, h.predecessor hp hc]
  rfl

/-- The copies have the actions of the originals. -/
theorem signature? (h : Renamed renameRoute renameStop plan copy) (hp : ActionsOf plan actions)
    (hc : ActionsOf copy copyActions) :
    Planning.signature? copyActions key = Planning.signature? actions key := by
  rw [signature?_eq, signature?_eq, h.action? hp hc, Option.map_map]
  refine congrArg (fun f ↦ (Planning.action? actions key).map f) (funext fun entry ↦ ?_)
  exact h.stopSignature hp hc entry.1 entry.2

/-! ### No changes -/

/-- No action changes. -/
theorem stopChanges (h : Renamed renameRoute renameStop plan copy) (hp : ActionsOf plan actions)
    (hc : ActionsOf copy copyActions) : Planning.stopChanges actions copyActions = [] := by
  rw [← List.map_eq_nil_iff, stopChanges_actions, List.filter_eq_nil_iff]
  intro key hkey hchanged
  have hfound : (Planning.action? actions key).isSome = true := by
    rcases mem_actionKeys.mp hkey with hfound | hfound
    · exact hfound
    · rw [h.action? hp hc, Option.isSome_map] at hfound
      exact hfound
  have hunchanged : unchangedAction actions copyActions key = true := by
    refine unchangedAction_iff.mpr ⟨hfound, ?_, (h.signature? hp hc).symm⟩
    rw [h.action? hp hc, Option.isSome_map]
    exact hfound
  rw [hunchanged] at hchanged
  cases hchanged

/-- The other row of a route has the same signature. -/
theorem routeSignature (h : Renamed renameRoute renameStop plan copy) (hp : ActionsOf plan actions)
    (hc : ActionsOf copy copyActions) (route : VehicleRoute) :
    Planning.routeSignature (route.renamed renameRoute renameStop) copyActions =
      Planning.routeSignature route actions := by
  have hsorted := List.map_insertionSort (fun a b : RouteStop ↦ a.sequenceNo ≤ b.sequenceNo)
    (fun a b : RouteStop ↦ a.sequenceNo ≤ b.sequenceNo) (RouteStop.renamed renameStop) route.stops
    fun _ _ _ _ ↦ Iff.rfl
  rw [Planning.routeSignature, Planning.routeSignature, VehicleRoute.renamed]
  dsimp only
  rw [← hsorted, List.map_map]
  refine List.map_congr_left fun stop _ ↦ ?_
  rw [Function.comp_apply, h.stopSignature hp hc]
  rfl

/-- No route changes. -/
theorem routeChanges (h : Renamed renameRoute renameStop plan copy) (hp : ActionsOf plan actions)
    (hc : ActionsOf copy copyActions) :
    Planning.routeChanges plan copy actions copyActions = [] := by
  have hroute : ∀ vehicleId, vehicleRoute? copy vehicleId =
      (vehicleRoute? plan vehicleId).map (·.renamed renameRoute renameStop) := by
    intro vehicleId
    rw [vehicleRoute?, vehicleRoute?, h.routes, List.map_map,
      ← lastWrite_map Function.injective_id, List.map_map]
    rfl
  rw [Planning.routeChanges, List.filterMap_eq_nil_iff]
  intro vehicleId hvehicle
  have hwritten : (vehicleRoute? plan vehicleId).isSome = true := by
    have hmem : vehicleId ∈ plan.routes.map (·.vehicleId) := by
      have hcopy : copy.routes.map (·.vehicleId) = plan.routes.map (·.vehicleId) := by
        rw [h.routes, List.map_map]
        rfl
      rw [mem_sortedSet, List.mem_append, hcopy, or_self] at hvehicle
      exact hvehicle
    obtain ⟨route, hr, rfl⟩ := List.mem_map.mp hmem
    exact (isSome_lastWrite_iff _ _).mpr ⟨route, List.mem_map.mpr ⟨route, hr, rfl⟩⟩
  obtain ⟨route, hfound⟩ := Option.isSome_iff_exists.mp hwritten
  unfold routeChange?
  dsimp only
  rw [hroute, hfound, Option.map_some, Option.map_some, Option.map_some, h.routeSignature hp hc]
  simp

/-- A membership is the other row of its route. -/
theorem member? (h : Renamed renameRoute renameStop plan copy) (orderId : UUID) :
    Planning.member? copy orderId =
      (Planning.member? plan orderId).map (·.renamed renameRoute) := by
  rw [Planning.member?, Planning.member?, h.planOrders, List.map_map,
    ← lastWrite_map Function.injective_id, List.map_map]
  rfl

/-- The vehicle of a membership is the same. -/
theorem vehicleId (h : Renamed renameRoute renameStop plan copy) (orderId : UUID) :
    (routeOf? copy ((Planning.member? copy orderId).bind (·.vehicleRouteId))).map (·.vehicleId) =
      (routeOf? plan ((Planning.member? plan orderId).bind (·.vehicleRouteId))).map
        (·.vehicleId) := by
  have hroute : ∀ routeId, routeOf? copy (routeId.map renameRoute) =
      (routeOf? plan routeId).map (·.renamed renameRoute renameStop) := by
    intro routeId
    cases routeId with
    | none => rfl
    | some routeId =>
      rw [routeOf?, routeOf?, h.routes, List.map_map, Option.map_some, Option.bind_some,
        Option.bind_some, ← lastWrite_map h.routeIds, List.map_map]
      rfl
  have hroutes : (Planning.member? copy orderId).bind (·.vehicleRouteId) =
      ((Planning.member? plan orderId).bind (·.vehicleRouteId)).map renameRoute := by
    rw [h.member?]
    cases Planning.member? plan orderId <;> rfl
  rw [hroutes, hroute, Option.map_map]
  rfl

/-- No assignment changes, and no order has another task. -/
theorem orderViews (h : Renamed renameRoute renameStop plan copy) (hp : ActionsOf plan actions)
    (hc : ActionsOf copy copyActions) :
    ∀ view ∈ Planning.orderViews plan copy actions copyActions,
      view.assignmentChanged = false ∧ view.routeTaskChanged = false := by
  intro view hview
  obtain ⟨orderId, -, rfl⟩ := List.mem_map.mp hview
  constructor
  · unfold orderView
    dsimp only
    rw [bne_eq_false_iff_eq]
    unfold orderSide OrderSide.assignment
    dsimp only
    rw [h.vehicleId, h.member?]
    cases Planning.member? plan orderId <;> rfl
  · unfold orderView
    rw [h.stopChanges hp hc]
    rfl

end Renamed

/-! ### The laws -/

/-- What the view of two plans says: a stop change names affected vehicles only, every action of
either plan counts once, unchanged or as a stop change, and no completed stop that is copied with
its vehicle and its facts is a change. -/
structure ComparisonLaws (base candidate : DeliveryPlan) (view : PlanComparisonView) : Prop where
  namesAffected : ∀ change ∈ view.stopChanges, ∀ vehicleId,
    (change.sides.base.vehicleId = some vehicleId ∨
      change.sides.candidate.vehicleId = some vehicleId) → vehicleId ∈ view.affectedVehicleIds
  countsOnce : ∃ unchanged : List ActionKey,
    unchanged.length = view.planImpact.unchangedRouteTasks ∧
      (unchanged ++ view.stopChanges.map (·.action)).Nodup ∧
      ∀ key, key ∈ unchanged ++ view.stopChanges.map (·.action) ↔ Acts base key ∨ Acts candidate key
  keepsCompleted : ∀ vehicleId stop copied, Serves base vehicleId stop →
    Serves candidate vehicleId copied → stop.status = .completed →
      CopiedFacts base candidate stop copied → actionKey stop ∉ view.stopChanges.map (·.action)

/-- For all plans with one route for a vehicle, one membership for an order and no action twice:
their view keeps the laws, the view of the exchanged plans is the exchanged one, and a copy with
other row ids has no stop, route or assignment change. -/
theorem plan_comparison_laws (recoveryPlanId : UUID) (comparisonAt : Instant) (reviewable : Bool)
    (hbase : OneOfEach base) (hcandidate : OneOfEach candidate) :
    ∃ view, planComparisonView recoveryPlanId comparisonAt base candidate reviewable = .ok view ∧
      ComparisonLaws base candidate view ∧
      planComparisonView recoveryPlanId comparisonAt candidate base reviewable =
        .ok (view.swap candidate.businessDate) ∧
      ∀ renameRoute renameStop copy, Renamed renameRoute renameStop base copy →
        ∃ same, planComparisonView recoveryPlanId comparisonAt base copy reviewable = .ok same ∧
          same.stopChanges = [] ∧ same.routeChanges = [] ∧
          ∀ order ∈ same.orders, order.assignmentChanged = false := by
  obtain ⟨baseActions, hbaseOk, hb⟩ := hbase.planActions
  obtain ⟨candidateActions, hcandidateOk, hc⟩ := hcandidate.planActions
  have hview : ∀ {base candidate : DeliveryPlan} {baseActions candidateActions : Actions},
      planActions base = .ok baseActions → planActions candidate = .ok candidateActions →
        ∃ view, planComparisonView recoveryPlanId comparisonAt base candidate reviewable =
            .ok view ∧
          view.stopChanges = stopChanges baseActions candidateActions ∧
          view.routeChanges = routeChanges base candidate baseActions candidateActions ∧
          view.orders = orderViews base candidate baseActions candidateActions ∧
          view.planImpact = planImpact base candidate baseActions candidateActions ∧
          view.affectedVehicleIds = sortedSet id (view.routeChanges.map (·.vehicleId) ++
            view.orders.flatMap (·.affected)) := by
    intro base candidate baseActions candidateActions hb hc
    unfold planComparisonView
    rw [hb, hc]
    exact ⟨_, rfl, rfl, rfl, rfl, rfl, rfl⟩
  obtain ⟨view, hok, hstops, hroutes, horders, himpact, haffected⟩ := hview hbaseOk hcandidateOk
  refine ⟨view, hok, ⟨fun change hchange vehicleId hnamed ↦ ?_, ?_, ?_⟩,
    planComparisonView_swap hok, ?_⟩
  · rw [hstops] at hchange
    rw [haffected, mem_sortedSet, hroutes]
    exact List.mem_append_left _
      (named_vehicle_changed hb hc hbase.vehicles hcandidate.vehicles hchange hnamed)
  · obtain ⟨unchanged, hlength, hperm, -⟩ :=
      @actions_partition base candidate _ candidateActions hb.indexed
    rw [himpact, hstops]
    refine ⟨unchanged, hlength, hperm.nodup_iff.mpr nodup_sortedSet, fun key ↦ ?_⟩
    rw [hperm.mem_iff, mem_actionKeys, hb.isSome_iff, hc.isSome_iff]
  · intro vehicleId stop copied hs hs' hstatus hcopied hchanged
    rw [hstops, stopChanges_actions, List.mem_filter,
      completed_unchanged hb hc hs hs' hstatus hcopied] at hchanged
    cases hchanged.2
  · intro renameRoute renameStop copy hrenamed
    have hcopy : OneOfEach copy := hbase.renamed hrenamed
    obtain ⟨copyActions, hcopyOk, hcopied⟩ := hcopy.planActions
    obtain ⟨same, hsame, hstops, hroutes, horders, -⟩ := hview hbaseOk hcopyOk
    rw [hrenamed.stopChanges hb hcopied] at hstops
    rw [hrenamed.routeChanges hb hcopied] at hroutes
    refine ⟨same, hsame, hstops, hroutes, fun order ho ↦ ?_⟩
    rw [horders] at ho
    exact (hrenamed.orderViews hb hcopied order ho).1

/-- The plan that serves order 10, with its pickup COMPLETED. -/
def pickedUpPlan : DeliveryPlan :=
  let plan := (finalize ⟨[], [], [], [], [], [], [], [], 100⟩ twoOrderFacts oneServedResult none
    none).toOption.get (by decide +kernel)
  { plan with
    routes := plan.routes.map fun route ↦
      { route with
        stops := route.stops.map fun stop ↦
          if stop.stopType = .pickup then
            { stop with
              status := .completed
              actualArrivalAt := some 0
              actualDepartureAt := some 30000000 }
          else stop } }

/-- Its delivery goes to vehicle 21, and the pickup is copied behind another row. -/
def deliveredElsewherePlan : DeliveryPlan :=
  { pickedUpPlan with
    id := 300
    routes := pickedUpPlan.routes.flatMap fun route ↦
      [{ route with
        id := 302
        stops := (route.stops.filter (·.stopType == .pickup)).map fun stop ↦
          { stop with id := 303, sequenceNo := 2 } },
      { route with
        id := 304
        vehicleId := 21
        stops := (route.stops.filter (·.stopType == .delivery)).map fun stop ↦
          { stop with id := 305, sequenceNo := 1, precedenceStopId := some 303 } }]
    planOrders := pickedUpPlan.planOrders.map fun membership ↦
      { membership with vehicleRouteId := membership.vehicleRouteId.map fun _ ↦ 304 } }

/-- The delivery is the only change, and the copied pickup is none. -/
theorem delivered_elsewhere_laws :
    ∃ view, planComparisonView 1 0 pickedUpPlan deliveredElsewherePlan true = .ok view ∧
      ComparisonLaws pickedUpPlan deliveredElsewherePlan view ∧
      view.stopChanges.map (fun change ↦ (change.action.stopType, change.changeType)) =
        [(.delivery, .modified)] ∧
      view.affectedVehicleIds = [20, 21] ∧ view.planImpact.unchangedRouteTasks = 1 := by
  have hbase : OneOfEach pickedUpPlan :=
    ⟨by decide +kernel, by decide +kernel, by decide +kernel⟩
  have hcandidate : OneOfEach deliveredElsewherePlan :=
    ⟨by decide +kernel, by decide +kernel, by decide +kernel⟩
  obtain ⟨view, hok, hlaws, -⟩ := plan_comparison_laws 1 0 true hbase hcandidate
  have hview : ((planComparisonView 1 0 pickedUpPlan deliveredElsewherePlan true).toOption.map
      fun view ↦ (view.stopChanges.map fun change ↦ (change.action.stopType, change.changeType),
        view.affectedVehicleIds, view.planImpact.unchangedRouteTasks)) =
      some ([(.delivery, .modified)], [20, 21], 1) := by decide +kernel
  rw [hok] at hview
  obtain ⟨hchanges, hrest⟩ := Prod.mk.inj (Option.some.inj hview)
  obtain ⟨haffected, hunchanged⟩ := Prod.mk.inj hrest
  exact ⟨view, hok, hlaws, hchanges, haffected, hunchanged⟩

end PenroseRoute.Planning
