import PenroseRoute.Planning.ComparisonExchange

/-!
# Laws of the plan comparison

What the view of two plans says for all plans with one route for a vehicle, one membership for an
order and no action twice: every action counts once, a change names affected vehicles only, a
completed stop that is copied with its facts is no change, and neither is anything of a copy with
other row ids.
-/

namespace PenroseRoute.Planning

open PenroseRoute.Db PenroseRoute.Lib PenroseRoute.Operations PenroseRoute.Optimization

/-- A vehicle has one route, an order one membership, and no action is there twice. -/
structure OneOfEach (plan : DeliveryPlan) : Prop where
  vehicles : (plan.routes.map (·.vehicleId)).Nodup
  members : (plan.planOrders.map (·.orderId)).Nodup
  actions : ((plan.routes.flatMap (·.stops)).map actionKey).Nodup

/-- The stops of a plan with the vehicles of their routes. -/
def Serves (plan : DeliveryPlan) (vehicleId : UUID) (stop : RouteStop) : Prop :=
  ∃ route ∈ plan.routes, route.vehicleId = vehicleId ∧ stop ∈ route.stops

/-- An action that a plan has. -/
def Acts (plan : DeliveryPlan) (key : ActionKey) : Prop :=
  ∃ vehicleId stop, Serves plan vehicleId stop ∧ actionKey stop = key

/-- The stop that has to precede a stop of a plan. -/
def preceding? (plan : DeliveryPlan) (stop : RouteStop) : Option RouteStop :=
  (plan.routes.flatMap (·.stops)).find? fun prior ↦ some prior.id == stop.precedenceStopId

variable {base candidate plan copy : DeliveryPlan}
  {baseActions candidateActions actions : Actions} {key : ActionKey}

/-! ### Actions -/

/-- What `_plan_actions` returns for a plan. -/
structure ActionsOf (plan : DeliveryPlan) (actions : Actions) : Prop where
  indexed : Indexed actions
  rows : actions = plan.routes.flatMap fun route ↦
    route.stops.map fun stop ↦ (actionKey stop, stop, route.vehicleId)

/-- A plan with one of each stop has its actions. -/
theorem OneOfEach.planActions (h : OneOfEach plan) :
    ∃ actions, planActions plan = .ok actions ∧ ActionsOf plan actions := by
  have hkeys : ((plan.routes.flatMap fun route ↦ route.stops.map fun stop ↦
      (actionKey stop, stop, route.vehicleId)).map (·.1)).Nodup := by
    rw [List.map_flatMap]
    simp only [List.map_map, Function.comp_def]
    rw [← List.map_flatMap]
    exact h.actions
  have hok : Planning.planActions plan = .ok (plan.routes.flatMap fun route ↦
      route.stops.map fun stop ↦ (actionKey stop, stop, route.vehicleId)) := by
    unfold Planning.planActions
    dsimp only
    rw [decide_eq_true hkeys]
    rfl
  exact ⟨_, hok, (planActions_ok hok).1, rfl⟩

namespace ActionsOf

/-- The actions are those of the stops. -/
theorem mem_iff (h : ActionsOf plan actions) {entry : RouteStop × UUID} :
    (key, entry) ∈ actions ↔ Serves plan entry.2 entry.1 ∧ actionKey entry.1 = key := by
  obtain ⟨stop, vehicleId⟩ := entry
  rw [h.rows, List.mem_flatMap]
  simp only [List.mem_map, Prod.mk.injEq]
  constructor
  · rintro ⟨route, hr, found, hs, rfl, rfl, rfl⟩
    exact ⟨⟨route, hr, rfl, hs⟩, rfl⟩
  · rintro ⟨⟨route, hr, rfl, hs⟩, rfl⟩
    exact ⟨route, hr, stop, hs, rfl, rfl, rfl⟩

/-- An action is found by its stop. -/
theorem action? (h : ActionsOf plan actions) {vehicleId : UUID} {stop : RouteStop}
    (hs : Serves plan vehicleId stop) :
    Planning.action? actions (actionKey stop) = some (stop, vehicleId) :=
  h.indexed.action?_eq_some_iff.mpr (h.mem_iff.mpr ⟨hs, rfl⟩)

/-- The plan has the actions that are found. -/
theorem isSome_iff (h : ActionsOf plan actions) :
    (Planning.action? actions key).isSome = true ↔ Acts plan key := by
  constructor
  · intro hsome
    obtain ⟨entry, he⟩ := Option.isSome_iff_exists.mp hsome
    obtain ⟨hs, hkey⟩ := h.mem_iff.mp (h.indexed.action?_eq_some_iff.mp he)
    exact ⟨entry.2, entry.1, hs, hkey⟩
  · rintro ⟨vehicleId, stop, hs, rfl⟩
    rw [h.action? hs]
    rfl

/-- The signature of an action is that of its stop. -/
theorem signature? (h : ActionsOf plan actions) {vehicleId : UUID} {stop : RouteStop}
    (hs : Serves plan vehicleId stop) :
    Planning.signature? actions (actionKey stop) = some (stopSignature stop vehicleId actions) := by
  rw [signature?_eq, h.action? hs]
  rfl

/-- A predecessor is found by its row. -/
theorem predecessor (h : ActionsOf plan actions) (stop : RouteStop) :
    Planning.predecessor stop actions =
      (preceding? plan stop).map fun prior ↦ (actionKey prior, prior.locationId) := by
  rw [Planning.predecessor, preceding?, h.rows, List.find?_flatMap, List.find?_flatMap,
    List.map_findSome?, List.map_findSome?]
  refine congrArg (fun f ↦ plan.routes.findSome? f) (funext fun route ↦ ?_)
  rw [Function.comp_apply, Function.comp_apply, List.find?_map, Option.map_map]
  rfl

end ActionsOf

/-! ### Every action counts once -/

/-- An unchanged action makes no change, and every other one makes its own. -/
theorem stopChange?_eq : stopChange? baseActions candidateActions key =
    if unchangedAction baseActions candidateActions key then none
    else some {
      action := key
      changeType := changeType (action? baseActions key) (action? candidateActions key)
      sides := ⟨stopSide baseActions (action? baseActions key),
        stopSide candidateActions (action? candidateActions key)⟩ } := rfl

/-- The changes are those of the actions that are not unchanged. -/
theorem stopChanges_actions : (stopChanges baseActions candidateActions).map (·.action) =
    (actionKeys baseActions candidateActions).filter
      (!unchangedAction baseActions candidateActions ·) := by
  rw [stopChanges, List.map_filterMap, ← List.filterMap_eq_filter]
  refine congrArg (fun f ↦ (actionKeys baseActions candidateActions).filterMap f)
    (funext fun key ↦ ?_)
  rw [stopChange?_eq, Option.guard]
  by_cases hsame : unchangedAction baseActions candidateActions key = true
  · rw [if_pos hsame, hsame]
    rfl
  · rw [if_neg hsame, eq_false_of_ne_true hsame]
    rfl

/-- The unchanged tasks are counted by their actions. -/
theorem unchangedTasks_length (hb : Indexed baseActions) :
    (planImpact base candidate baseActions candidateActions).unchangedRouteTasks =
      ((actionKeys baseActions candidateActions).filter
        (unchangedAction baseActions candidateActions)).length := by
  rw [(planImpact_counts hb).1]
  simp only [Bool.and_true]
  refine (length_filter_sortedSet hb.keys fun key _ hsame ↦ ?_).symm
  exact isSome_action?.mp (unchangedAction_iff.mp hsame).1

/-- The actions that are unchanged and the ones that are changes. -/
theorem actions_partition (hb : Indexed baseActions) :
    ∃ unchanged : List ActionKey,
      unchanged.length =
        (planImpact base candidate baseActions candidateActions).unchangedRouteTasks ∧
      (unchanged ++ (stopChanges baseActions candidateActions).map (·.action)).Perm
        (actionKeys baseActions candidateActions) ∧
      ∀ key ∈ unchanged, unchangedAction baseActions candidateActions key = true := by
  refine ⟨(actionKeys baseActions candidateActions).filter
    (unchangedAction baseActions candidateActions), (unchangedTasks_length hb).symm, ?_,
    fun key hkey ↦ (List.mem_filter.mp hkey).2⟩
  rw [stopChanges_actions]
  exact List.filter_append_perm _ _

/-! ### A change names affected vehicles -/

/-- A vehicle with a changed action has a changed route. -/
theorem routeChange_of_changed (hb : ActionsOf base baseActions)
    (hc : ActionsOf candidate candidateActions) (hvehicles : (base.routes.map (·.vehicleId)).Nodup)
    (hvehicles' : (candidate.routes.map (·.vehicleId)).Nodup) {vehicleId : UUID}
    {stop : RouteStop} (hs : Serves base vehicleId stop)
    (hchanged : unchangedAction baseActions candidateActions (actionKey stop) = false) :
    vehicleId ∈ (routeChanges base candidate baseActions candidateActions).map (·.vehicleId) := by
  obtain ⟨route, hr, rfl, hstop⟩ := hs
  have hkeys : ∀ plan : DeliveryPlan, (plan.routes.map (·.vehicleId)).Nodup →
      ((plan.routes.map fun route ↦ (route.vehicleId, route)).map (·.1)).Nodup := by
    intro plan hplan
    rw [List.map_map]
    exact hplan
  have hold : vehicleRoute? base route.vehicleId = some route :=
    (lastWrite_eq_some_iff (hkeys base hvehicles) _ _).mpr (List.mem_map.mpr ⟨route, hr, rfl⟩)
  by_contra hnone
  have hunchanged : routeChange? base candidate baseActions candidateActions route.vehicleId =
      none := by
    by_contra hsome
    obtain ⟨view, hview⟩ := Option.ne_none_iff_exists'.mp hsome
    refine hnone (List.mem_map.mpr ⟨view, List.mem_filterMap.mpr ⟨route.vehicleId, ?_, hview⟩, ?_⟩)
    · rw [mem_sortedSet]
      exact List.mem_append_left _ (List.mem_map_of_mem hr)
    · unfold routeChange? at hview
      dsimp only at hview
      split at hview
      · cases hview
        rfl
      · cases hview
  unfold routeChange? at hunchanged
  dsimp only at hunchanged
  rw [hold] at hunchanged
  split at hunchanged
  · cases hunchanged
  · next hsame =>
    cases hnew : vehicleRoute? candidate route.vehicleId with
    | none =>
      rw [hnew] at hsame
      exact hsame rfl
    | some route' =>
      rw [hnew] at hsame
      have hsignatures : routeSignature route baseActions =
          routeSignature route' candidateActions := by
        simpa using hsame
      have hmem : (actionKey stop, stopSignature stop route.vehicleId baseActions) ∈
          routeSignature route' candidateActions := by
        rw [← hsignatures]
        exact List.mem_map.mpr ⟨stop, (List.mem_insertionSort _).mpr hstop, rfl⟩
      obtain ⟨stop', hstop', hentry⟩ := List.mem_map.mp hmem
      obtain ⟨hkey, hsignature⟩ := Prod.mk.inj hentry
      obtain ⟨found, hr', he⟩ := List.mem_map.mp
        ((lastWrite_eq_some_iff (hkeys candidate hvehicles') _ _).mp hnew)
      obtain ⟨-, rfl⟩ := Prod.mk.inj he
      have hs : Serves base route.vehicleId stop := ⟨route, hr, rfl, hstop⟩
      have hs' : Serves candidate found.vehicleId stop' :=
        ⟨found, hr', rfl, (List.mem_insertionSort _).mp hstop'⟩
      refine Bool.eq_false_iff.mp hchanged (unchangedAction_iff.mpr ⟨?_, ?_, ?_⟩)
      · exact hb.isSome_iff.mpr ⟨_, stop, hs, rfl⟩
      · exact hc.isSome_iff.mpr ⟨_, stop', hs', hkey⟩
      · rw [hb.signature? hs, ← hkey, hc.signature? hs', hsignature]

/-- So every vehicle that a stop change names has a changed route. -/
theorem named_vehicle_changed (hb : ActionsOf base baseActions)
    (hc : ActionsOf candidate candidateActions) (hvehicles : (base.routes.map (·.vehicleId)).Nodup)
    (hvehicles' : (candidate.routes.map (·.vehicleId)).Nodup) {change : StopComparisonView}
    (hchange : change ∈ stopChanges baseActions candidateActions) {vehicleId : UUID}
    (hnamed : change.sides.base.vehicleId = some vehicleId ∨
      change.sides.candidate.vehicleId = some vehicleId) :
    vehicleId ∈ (routeChanges base candidate baseActions candidateActions).map (·.vehicleId) := by
  obtain ⟨key, -, hmade⟩ := List.mem_filterMap.mp hchange
  rw [stopChange?_eq] at hmade
  split at hmade
  · cases hmade
  · next hchanged =>
    cases hmade
    have hchanged := eq_false_of_ne_true hchanged
    rcases hnamed with hnamed | hnamed
    · obtain ⟨entry, he, rfl⟩ := Option.map_eq_some_iff.mp hnamed
      obtain ⟨hs, rfl⟩ := hb.mem_iff.mp (hb.indexed.action?_eq_some_iff.mp he)
      exact routeChange_of_changed hb hc hvehicles hvehicles' hs hchanged
    · obtain ⟨entry, he, rfl⟩ := Option.map_eq_some_iff.mp hnamed
      obtain ⟨hs, rfl⟩ := hc.mem_iff.mp (hc.indexed.action?_eq_some_iff.mp he)
      rw [← unchangedAction_swap] at hchanged
      have hroute := routeChange_of_changed hc hb hvehicles' hvehicles hs hchanged
      rw [routeChanges_swap, List.map_map] at hroute
      exact hroute

/-! ### Completed stops -/

/-- In plans that the trigger of one database has accepted, the same action is at the same
place. -/
theorem location_of_action {db : Database} {stop stop' : RouteStop}
    (h : stop.relationshipsValid db base = true) (h' : stop'.relationshipsValid db candidate = true)
    (hkey : actionKey stop' = actionKey stop) : stop'.locationId = stop.locationId := by
  obtain ⟨horder, htype, hincident⟩ : stop'.orderId = stop.orderId ∧
      stop'.stopType = stop.stopType ∧
        (if stop'.stopType = .handover then stop'.sourceIncidentId else none) =
          if stop.stopType = .handover then stop.sourceIncidentId else none := by
    simpa only [actionKey, ActionKey.mk.injEq] using hkey
  unfold RouteStop.relationshipsValid at h h'
  rw [Bool.and_eq_true] at h h'
  have hplace := h.2
  have hplace' := h'.2
  rw [htype] at hplace' hincident
  cases hstop : stop.stopType with
  | pickup =>
    rw [hstop] at hplace hplace'
    dsimp only at hplace hplace'
    rw [horder] at hplace'
    obtain ⟨order, ho, hlocation⟩ := Option.any_eq_true .. |>.mp hplace
    rw [ho, Option.any_some, beq_iff_eq] at hplace'
    exact hplace'.symm.trans (beq_iff_eq.mp hlocation)
  | delivery =>
    rw [hstop] at hplace hplace'
    dsimp only at hplace hplace'
    rw [horder] at hplace'
    obtain ⟨order, ho, hlocation⟩ := Option.any_eq_true .. |>.mp hplace
    rw [ho, Option.any_some, beq_iff_eq] at hplace'
    exact hplace'.symm.trans (beq_iff_eq.mp hlocation)
  | handover =>
    rw [hstop] at hplace hplace' hincident
    rw [if_pos rfl, if_pos rfl] at hincident
    dsimp only at hplace hplace'
    rw [hincident, beq_iff_eq] at hplace'
    exact Option.some.inj (hplace'.symm.trans (beq_iff_eq.mp hplace))

/-- The trigger of a database has accepted all stops of a plan. -/
def ValidOn (db : Database) (plan : DeliveryPlan) : Prop :=
  ∀ route ∈ plan.routes, ∀ stop ∈ route.stops, stop.relationshipsValid db plan = true

/-- A preceding stop is one of its plan. -/
theorem ValidOn.preceding {db : Database} (h : ValidOn db plan) {stop prior : RouteStop}
    (hprior : preceding? plan stop = some prior) : prior.relationshipsValid db plan = true := by
  obtain ⟨route, hr, hs⟩ := List.mem_flatMap.mp (List.mem_of_find?_eq_some hprior)
  exact h route hr prior hs

/-- What a completed stop keeps when it is copied, whatever its row and its position: its action,
its place, its actual times and the action that precedes it, which is at the same place, as it is
whenever one database has accepted both plans. -/
structure CopiedFacts (base candidate : DeliveryPlan) (stop copied : RouteStop) : Prop where
  action : actionKey copied = actionKey stop
  status : copied.status = .completed
  location : copied.locationId = stop.locationId
  arrived : copied.actualArrivalAt = stop.actualArrivalAt
  departed : copied.actualDepartureAt = stop.actualDepartureAt
  before : (preceding? candidate copied).map actionKey = (preceding? base stop).map actionKey
  beforeAt : (∃ db, ValidOn db base ∧ ValidOn db candidate) ∨
    ∀ prior ∈ preceding? base stop, ∀ prior' ∈ preceding? candidate copied,
      prior'.locationId = prior.locationId

/-- A copied stop has the same predecessor. -/
theorem CopiedFacts.predecessor {stop copied : RouteStop}
    (h : CopiedFacts base candidate stop copied) :
    (preceding? candidate copied).map (fun prior ↦ (actionKey prior, prior.locationId)) =
      (preceding? base stop).map fun prior ↦ (actionKey prior, prior.locationId) := by
  have hbefore := h.before
  cases hold : preceding? base stop with
  | none =>
    rw [hold, Option.map_none, Option.map_eq_none_iff] at hbefore
    rw [hbefore]
  | some prior =>
    rw [hold, Option.map_some, Option.map_eq_some_iff] at hbefore
    obtain ⟨prior', hnew, hkey⟩ := hbefore
    have hplace : prior'.locationId = prior.locationId := by
      rcases h.beforeAt with ⟨db, hvalid, hvalid'⟩ | hplaces
      · exact location_of_action (hvalid.preceding hold) (hvalid'.preceding hnew) hkey
      · exact hplaces prior hold prior' hnew
    rw [hnew, Option.map_some, Option.map_some, hkey, hplace]

/-- A completed stop that is copied is unchanged. -/
theorem completed_unchanged (hb : ActionsOf base baseActions)
    (hc : ActionsOf candidate candidateActions) {vehicleId : UUID} {stop copied : RouteStop}
    (hs : Serves base vehicleId stop) (hs' : Serves candidate vehicleId copied)
    (hstatus : stop.status = .completed) (h : CopiedFacts base candidate stop copied) :
    unchangedAction baseActions candidateActions (actionKey stop) = true := by
  refine unchangedAction_iff.mpr ⟨?_, ?_, ?_⟩
  · exact hb.isSome_iff.mpr ⟨_, stop, hs, rfl⟩
  · exact hc.isSome_iff.mpr ⟨_, copied, hs', h.action⟩
  · rw [hb.signature? hs, ← h.action, hc.signature? hs', stopSignature, stopSignature,
      if_pos hstatus, if_pos h.status, hb.predecessor, hc.predecessor, h.predecessor, h.location,
      h.arrived, h.departed]

/-! ### The counts that rank options -/

/-- Among rows with their own keys, the last one under a key is the first one. -/
theorem lastWrite_eq_find? {α : Type} {rows : List α} {rowKey : α → UUID}
    (h : (rows.map rowKey).Nodup) (k : UUID) :
    lastWrite (rows.map fun row ↦ (rowKey row, row)) k = rows.find? (rowKey · == k) := by
  have hkeys : ((rows.map fun row ↦ (rowKey row, row)).map (·.1)).Nodup := by
    rw [List.map_map]
    exact h
  refine Option.ext fun row ↦ ?_
  rw [lastWrite_eq_some_iff hkeys, find?_key_eq_some_iff h]
  simp only [List.mem_map, Prod.mk.injEq]
  constructor
  · rintro ⟨found, hf, hkey, rfl⟩
    exact ⟨hf, hkey⟩
  · rintro ⟨hf, hkey⟩
    exact ⟨row, hf, hkey, rfl⟩

/-- The vehicle of a membership, with one membership for an order and one route for an id. -/
theorem memberVehicle?_eq (h : OneOfEach plan) (hids : (plan.routes.map (·.id)).Nodup)
    (orderId : UUID) : memberVehicle? plan orderId =
      (routeOf? plan ((member? plan orderId).bind (·.vehicleRouteId))).map (·.vehicleId) := by
  rw [memberVehicle?, routeOf?, member?, lastWrite_eq_find? h.members]
  refine congrArg (Option.map _) (congrArg (Option.bind _) (funext fun routeId ↦ ?_))
  exact (lastWrite_eq_find? hids routeId).symm

/-- The orders with a changed signature are those of the stop changes. -/
theorem mem_changedStopOrders {orderId : UUID} :
    orderId ∈ changedStopOrders baseActions candidateActions ↔
      orderId ∈ (stopChanges baseActions candidateActions).map (·.action.orderId) := by
  have hsome : ∀ {actions : Actions} {key : ActionKey},
      (signature? actions key).isSome = (action? actions key).isSome := by
    intro actions key
    rw [signature?_eq, Option.isSome_map]
  have hactions : (stopChanges baseActions candidateActions).map (·.action.orderId) =
      ((stopChanges baseActions candidateActions).map (·.action)).map (·.orderId) := by
    rw [List.map_map]
    rfl
  rw [changedStopOrders, hactions, stopChanges_actions, List.mem_map, List.mem_map]
  refine exists_congr fun key ↦ and_congr_left fun _ ↦ ?_
  rw [List.mem_filter, List.mem_filter, actionKeys, mem_sortedSet, List.map_append, bne_iff_ne,
    Bool.not_eq_true', ← Bool.not_eq_true, unchangedAction_iff]
  refine and_congr_right fun hkey ↦ not_congr ⟨fun hsame ↦ ?_, fun h ↦ h.2.2⟩
  have hfound : (signature? baseActions key).isSome = true := by
    rcases List.mem_append.mp hkey with hk | hk
    · rw [hsome]
      exact isSome_action?.mpr hk
    · rw [hsame, hsome]
      exact isSome_action?.mpr hk
  refine ⟨hsome.symm.trans hfound, ?_, hsame⟩
  rw [hsame] at hfound
  exact hsome.symm.trans hfound

/-- What ranks options is counted from the view. -/
theorem comparePlanSnapshots_eq (recoveryPlanId : UUID) (comparisonAt : Instant)
    (reviewable : Bool) (hbase : OneOfEach base) (hcandidate : OneOfEach candidate)
    (hids : (base.routes.map (·.id)).Nodup) (hids' : (candidate.routes.map (·.id)).Nodup) :
    comparePlanSnapshots base candidate =
      (planComparisonView recoveryPlanId comparisonAt base candidate reviewable).map fun view ↦
        ⟨view.reassignedOrderCount, (view.orders.filter (·.routeTaskChanged)).length⟩ := by
  obtain ⟨baseActions, hb, -⟩ := hbase.planActions
  obtain ⟨candidateActions, hc, -⟩ := hcandidate.planActions
  have hcount : ∀ {p : UUID → Bool} {q : OrderComparisonView → Bool},
      (∀ orderId changed, changed =
          (stopChanges baseActions candidateActions).map (·.action.orderId) →
        p orderId = q (orderView base candidate baseActions candidateActions changed orderId)) →
      (((base.planOrders ++ candidate.planOrders).map (·.orderId)).eraseDups.filter p).length =
        ((orderViews base candidate baseActions candidateActions).filter q).length := by
    intro p q h
    rw [@length_filter_eraseDups _ _ _ _ id, List.map_append]
    unfold orderViews
    dsimp only
    rw [List.filter_map, List.length_map]
    exact congrArg List.length (List.filter_congr fun orderId _ ↦ h orderId _ rfl)
  unfold comparePlanSnapshots planComparisonView
  rw [hb, hc]
  simp only [bind, Except.bind, pure, Except.pure, Except.map]
  refine congrArg Except.ok (PlanComparison.mk.injEq .. |>.mpr ⟨hcount ?_, hcount ?_⟩)
  · intro orderId changed hchanged
    rw [memberVehicle?_eq hbase hids, memberVehicle?_eq hcandidate hids']
    rfl
  · rintro orderId changed rfl
    refine Bool.eq_iff_iff.mpr ?_
    rw [List.contains_iff_mem, mem_changedStopOrders, ← List.contains_iff_mem]
    rfl

end PenroseRoute.Planning
