import PenroseRoute.Planning.ComparisonView

/-!
# Exchanging the compared plans

The view of two plans and the view of the same plans the other way round are the same, with the
sides exchanged and every difference negated.
-/

namespace PenroseRoute.Planning

open PenroseRoute.Db PenroseRoute.Lib PenroseRoute.Operations

/-! ### Exchanged views -/

/-- What was added is removed, and the other way round. -/
def ChangeType.swap : ChangeType → ChangeType
  | .modified => .modified
  | .removed => .added
  | .added => .removed

/-- The comparison of a stop the other way round. -/
def StopComparisonView.swap (view : StopComparisonView) : StopComparisonView :=
  { view with
    changeType := view.changeType.swap
    sides := view.sides.swap }

/-- The comparison of an order the other way round. -/
def OrderComparisonView.swap (view : OrderComparisonView) : OrderComparisonView :=
  { view with
    sides := view.sides.swap
    etaDeltaSeconds := view.etaDeltaSeconds.map (- ·) }

/-- The comparison of a route the other way round. -/
def RouteComparisonView.swap (view : RouteComparisonView) : RouteComparisonView :=
  { view with sides := view.sides.swap }

/-- The impact of the way back. -/
def PlanImpactView.swap (view : PlanImpactView) : PlanImpactView :=
  { view with
    planDistanceMeters := view.planDistanceMeters.swap
    plannedDistanceDeltaMeters := - view.plannedDistanceDeltaMeters
    completionAt := view.completionAt.swap
    plannedCompletionDeltaSeconds := view.plannedCompletionDeltaSeconds.map (- ·) }

/-- The view of the exchanged plans: sides and kinds of change are exchanged and differences
negated, and all else stays, apart from the business date, which is that of the other plan. -/
def PlanComparisonView.swap (view : PlanComparisonView) (businessDate : BusinessDate) :
    PlanComparisonView :=
  { view with
    planIds := view.planIds.swap
    businessDate := businessDate
    planStatuses := view.planStatuses.swap
    orders := view.orders.map (·.swap)
    stopChanges := view.stopChanges.map (·.swap)
    routeChanges := view.routeChanges.map (·.swap)
    planImpact := view.planImpact.swap }

variable {base candidate : DeliveryPlan} {baseActions candidateActions actions : Actions}
  {key : ActionKey}

/-! ### Lookups -/

/-- The text of an action tells it. -/
theorem ActionKey.rank_injective : Function.Injective ActionKey.rank := by
  rintro ⟨order, type, incident⟩ ⟨order', type', incident'⟩ h
  obtain ⟨horder, h⟩ := Prod.mk.inj (toLex.injective h)
  obtain ⟨htype, hincident⟩ := Prod.mk.inj (toLex.injective h)
  dsimp only at horder htype hincident
  have hsameType : type = type' := by
    revert htype
    cases type <;> cases type' <;> simp [stopTypeRank]
  have hsameIncident : incident = incident' := by
    unfold incidentRank at hincident
    cases incident with
    | none =>
      cases incident' with
      | none => rfl
      | some id =>
        dsimp only at hincident
        have heven : 2 * (10 * 16 ^ 31) % 2 = (2 * id + 1) % 2 := congrArg (· % 2) hincident
        rw [Nat.mul_mod_right, Nat.mul_add_mod] at heven
        cases heven
    | some id =>
      cases incident' with
      | none =>
        dsimp only at hincident
        have heven : (2 * id + 1) % 2 = 2 * (10 * 16 ^ 31) % 2 := congrArg (· % 2) hincident
        rw [Nat.mul_mod_right, Nat.mul_add_mod] at heven
        cases heven
      | some id' =>
        dsimp only at hincident
        have hid : id = id' := Nat.eq_of_mul_eq_mul_left (by decide) (Nat.succ.inj hincident)
        rw [hid]
  rw [horder, hsameType, hsameIncident]

/-- The actions of a plan stand under their own keys, each of them once. -/
structure Indexed (actions : Actions) : Prop where
  keys : (actions.map (·.1)).Nodup
  own : ∀ entry ∈ actions, entry.1 = actionKey entry.2.1

/-- The actions that `_plan_actions` returns are those of all stops. -/
theorem planActions_ok {plan : DeliveryPlan} (h : planActions plan = .ok actions) :
    Indexed actions ∧ actions = plan.routes.flatMap fun route ↦
      route.stops.map fun stop ↦ (actionKey stop, stop, route.vehicleId) := by
  obtain ⟨hkeys, h⟩ := unit_bind_eq_ok.mp h
  cases h
  rw [raiseFirst_cons_eq_ok, Bool.not_eq_false', decide_eq_true_eq] at hkeys
  refine ⟨⟨hkeys.1, fun entry he ↦ ?_⟩, rfl⟩
  obtain ⟨route, -, he⟩ := List.mem_flatMap.mp he
  obtain ⟨stop, -, rfl⟩ := List.mem_map.mp he
  rfl

/-- An action is found under its key. -/
theorem Indexed.action?_eq_some_iff (h : Indexed actions) {entry : RouteStop × UUID} :
    action? actions key = some entry ↔ (key, entry) ∈ actions := by
  rw [action?, Option.map_eq_some_iff]
  constructor
  · rintro ⟨found, hfound, rfl⟩
    have hkey : found.1 = key := eq_of_beq (List.find?_some hfound :)
    rw [← hkey]
    exact List.mem_of_find?_eq_some hfound
  · intro he
    exact ⟨(key, entry), (find?_key_eq_some_iff h.keys).mpr ⟨he, rfl⟩, rfl⟩

/-- The signature under a key is that of the action under it. -/
theorem signature?_eq : signature? actions key =
    (action? actions key).map fun (stop, vehicleId) ↦ stopSignature stop vehicleId actions := by
  rw [signature?, action?, Option.map_map]
  rfl

/-- A key of a plan has an action. -/
theorem isSome_action? : (action? actions key).isSome = true ↔ key ∈ actions.map (·.1) := by
  rw [action?, Option.isSome_map, List.find?_isSome]
  simp only [List.mem_map, beq_iff_eq]

/-- A key of the comparison has an action in one of the plans. -/
theorem mem_actionKeys : key ∈ actionKeys baseActions candidateActions ↔
    (action? baseActions key).isSome = true ∨ (action? candidateActions key).isSome = true := by
  rw [actionKeys, mem_sortedSet, List.mem_append, isSome_action?, isSome_action?]

/-! ### Exchanged rows -/

/-- Both ways round have the same keys. -/
theorem actionKeys_comm :
    actionKeys candidateActions baseActions = actionKeys baseActions candidateActions :=
  sortedSet_append_comm ActionKey.rank_injective

/-- What is added one way is removed the other. -/
theorem changeType_swap {α : Type} {before after : Option α}
    (h : before.isSome = true ∨ after.isSome = true) :
    changeType after before = (changeType before after).swap := by
  cases before with
  | none =>
    cases after with
    | none => rcases h with h | h <;> cases h
    | some _ => rfl
  | some _ => cases after <;> rfl

/-- The change of an action the other way round. -/
theorem stopChange?_swap (h : key ∈ actionKeys baseActions candidateActions) :
    stopChange? candidateActions baseActions key =
      (stopChange? baseActions candidateActions key).map (·.swap) := by
  have hsame : ((action? candidateActions key).isSome && (action? baseActions key).isSome &&
      signature? candidateActions key == signature? baseActions key) =
        ((action? baseActions key).isSome && (action? candidateActions key).isSome &&
          signature? baseActions key == signature? candidateActions key) := by
    rw [Bool.and_comm (action? candidateActions key).isSome, BEq.comm]
  unfold stopChange?
  dsimp only
  rw [hsame]
  split
  · rfl
  · rw [Option.map_some, StopComparisonView.swap, ← changeType_swap (mem_actionKeys.mp h)]
    rfl

/-- The changed stops the other way round. -/
theorem stopChanges_swap : stopChanges candidateActions baseActions =
    (stopChanges baseActions candidateActions).map (·.swap) := by
  rw [stopChanges, stopChanges, actionKeys_comm, List.map_filterMap]
  exact List.filterMap_congr fun key hkey ↦ stopChange?_swap hkey

/-- The orders of the changes stay. -/
theorem changedOrders_swap :
    (stopChanges candidateActions baseActions).map (·.action.orderId) =
      (stopChanges baseActions candidateActions).map (·.action.orderId) := by
  rw [stopChanges_swap, List.map_map]
  rfl

/-- A negative difference has as many seconds. -/
theorem totalSeconds_neg (delta : Int) : totalSeconds (-delta) = - totalSeconds delta :=
  Int.neg_tdiv delta 1000000

/-- The difference of the arrivals changes its sign. -/
theorem etaDelta_swap (old new : Option Instant) :
    etaDelta new old = (etaDelta old new).map (- ·) := by
  cases old with
  | none => cases new <;> rfl
  | some old =>
    cases new with
    | none => rfl
    | some new =>
      rw [etaDelta, etaDelta, Option.map_some, ← totalSeconds_neg, Int.neg_sub]

/-- An order compared the other way round. -/
theorem orderView_swap (changed : List UUID) (orderId : UUID) :
    orderView candidate base candidateActions baseActions changed orderId =
      (orderView base candidate baseActions candidateActions changed orderId).swap := by
  unfold orderView OrderComparisonView.swap Sides.swap
  dsimp only
  rw [Bool.or_comm (deliveryCompleted (delivery? candidateActions orderId)), bne_comm,
    etaDelta_swap, Option.isSome_map,
    Bool.or_comm (orderSide candidate candidateActions _ orderId).deliveryEta.isSome]

/-- The orders compared the other way round. -/
theorem orderViews_swap : orderViews candidate base candidateActions baseActions =
    (orderViews base candidate baseActions candidateActions).map (·.swap) := by
  unfold orderViews
  dsimp only
  rw [changedOrders_swap, sortedSet_append_comm Function.injective_id, List.map_map]
  exact List.map_congr_left fun orderId _ ↦ orderView_swap _ orderId

/-- A route compared the other way round. -/
theorem routeChange?_swap (vehicleId : UUID) :
    routeChange? candidate base candidateActions baseActions vehicleId =
      (routeChange? base candidate baseActions candidateActions vehicleId).map (·.swap) := by
  unfold routeChange?
  dsimp only
  rw [Bool.or_comm (vehicleRoute? candidate vehicleId).isNone, bne_comm]
  split <;> rfl

/-- The routes compared the other way round. -/
theorem routeChanges_swap : routeChanges candidate base candidateActions baseActions =
    (routeChanges base candidate baseActions candidateActions).map (·.swap) := by
  rw [routeChanges, routeChanges, sortedSet_append_comm Function.injective_id, List.map_filterMap]
  exact List.filterMap_congr fun vehicleId _ ↦ routeChange?_swap vehicleId

/-! ### Aggregates -/

/-- An order is reassigned either way. -/
theorem reassigned_swap (view : OrderComparisonView) : view.swap.reassigned = view.reassigned := by
  unfold OrderComparisonView.reassigned OrderComparisonView.swap Sides.swap
  dsimp only
  cases view.sides.base.vehicleId with
  | none => cases view.sides.candidate.vehicleId <;> rfl
  | some before =>
    cases view.sides.candidate.vehicleId with
    | none => rfl
    | some after => exact bne_comm

/-- A vehicle is affected either way. -/
theorem mem_affected_swap (view : OrderComparisonView) (vehicleId : UUID) :
    vehicleId ∈ view.swap.affected ↔ vehicleId ∈ view.affected := by
  have hchanged : view.swap.assignmentChanged = view.assignmentChanged := rfl
  rw [OrderComparisonView.affected, OrderComparisonView.affected, hchanged]
  split
  · rw [List.mem_append, List.mem_append, or_comm]
    rfl
  · rfl

/-- Rounding to the nearest second, halves to even, does not depend on the sign. -/
theorem roundSeconds_neg (delta : Int) :
    Recovery.roundSeconds (-delta) = - Recovery.roundSeconds delta := by
  unfold Recovery.roundSeconds
  dsimp only
  split <;> split <;> (try split) <;> (try split) <;> omega

/-- An unchanged action is one of both plans. -/
theorem unchangedAction_iff : unchangedAction baseActions candidateActions key = true ↔
    (action? baseActions key).isSome = true ∧ (action? candidateActions key).isSome = true ∧
      signature? baseActions key = signature? candidateActions key := by
  rw [unchangedAction, Bool.and_eq_true, Bool.and_eq_true, beq_iff_eq, and_assoc]

/-- An action is unchanged either way. -/
theorem unchangedAction_swap : unchangedAction candidateActions baseActions key =
    unchangedAction baseActions candidateActions key := by
  rw [unchangedAction, unchangedAction, Bool.and_comm (action? candidateActions key).isSome,
    BEq.comm]

/-- Whether the stop of an action is COMPLETED. -/
def completedAction (actions : Actions) (key : ActionKey) : Bool :=
  (action? actions key).any (·.1.status == .completed)

/-- The signature is one of a COMPLETED stop. -/
def StopSignature.isCompleted : StopSignature → Bool
  | .completed .. => true
  | .planned .. => false

/-- Its signature tells. -/
theorem completedAction_of_signature
    (h : signature? baseActions key = signature? candidateActions key) :
    completedAction baseActions key = completedAction candidateActions key := by
  have htells : ∀ actions : Actions, completedAction actions key =
      (signature? actions key).any (·.isCompleted) := by
    intro actions
    rw [signature?_eq, completedAction]
    cases action? actions key with
    | none => rfl
    | some entry =>
      obtain ⟨stop, vehicleId⟩ := entry
      rw [Option.map_some, Option.any_some, Option.any_some]
      dsimp only
      rw [stopSignature]
      by_cases hstatus : stop.status = .completed
      · rw [if_pos hstatus, hstatus]
        rfl
      · rw [if_neg hstatus]
        exact beq_eq_false_iff_ne.mpr hstatus
  rw [htells, htells, h]

/-- The counted actions are those of both plans. -/
theorem count_swap (hb : Indexed baseActions) (hc : Indexed candidateActions)
    {p q : ActionKey → Bool}
    (h : ∀ key, unchangedAction baseActions candidateActions key = true → p key = q key) :
    ((candidateActions.map (·.1)).filter fun key ↦
        unchangedAction candidateActions baseActions key && q key).length =
      ((baseActions.map (·.1)).filter fun key ↦
        unchangedAction baseActions candidateActions key && p key).length := by
  refine List.Perm.length_eq ((List.perm_ext_iff_of_nodup (hc.keys.filter _)
    (hb.keys.filter _)).mpr fun key ↦ ?_)
  rw [List.mem_filter, List.mem_filter, unchangedAction_swap, Bool.and_eq_true, Bool.and_eq_true]
  constructor
  · rintro ⟨-, hsame, hq⟩
    exact ⟨isSome_action?.mp (unchangedAction_iff.mp hsame).1, hsame, (h key hsame).trans hq⟩
  · rintro ⟨-, hsame, hp⟩
    exact ⟨isSome_action?.mp (unchangedAction_iff.mp hsame).2.1, hsame,
      (h key hsame).symm.trans hp⟩

/-- The counts of the impact, by key. -/
theorem planImpact_counts (hb : Indexed baseActions) :
    (planImpact base candidate baseActions candidateActions).unchangedRouteTasks =
        ((baseActions.map (·.1)).filter fun key ↦
          unchangedAction baseActions candidateActions key && true).length ∧
      (planImpact base candidate baseActions candidateActions).completedStopsProtected =
        ((baseActions.map (·.1)).filter fun key ↦
          unchangedAction baseActions candidateActions key &&
          completedAction baseActions key).length := by
  constructor
  · rw [List.filter_map, List.length_map]
    simp only [Bool.and_true]
    rfl
  · rw [List.filter_map, List.length_map]
    unfold planImpact
    dsimp only
    rw [List.filter_filter]
    refine congrArg List.length (List.filter_congr fun entry he ↦ ?_)
    have hfound : action? baseActions entry.1 = some entry.2 := hb.action?_eq_some_iff.mpr he
    rw [Bool.and_comm, Function.comp_apply, completedAction, hfound]
    rfl

/-- The impact compared the other way round. -/
theorem planImpact_swap (hb : Indexed baseActions) (hc : Indexed candidateActions) :
    planImpact candidate base candidateActions baseActions =
      (planImpact base candidate baseActions candidateActions).swap := by
  obtain ⟨hunchanged, hcompleted⟩ := @planImpact_counts base candidate _ candidateActions hb
  obtain ⟨hunchanged', hcompleted'⟩ := @planImpact_counts candidate base _ baseActions hc
  have htasks := hunchanged'.trans ((count_swap hb hc fun _ _ ↦ rfl).trans hunchanged.symm)
  have hprotected := hcompleted'.trans ((count_swap hb hc fun key hsame ↦
    completedAction_of_signature (unchangedAction_iff.mp hsame).2.2).trans hcompleted.symm)
  unfold planImpact PlanImpactView.swap Sides.swap at *
  dsimp only at *
  rw [htasks, hprotected, Int.neg_sub]
  cases (base.routes.map (·.plannedEndAt)).max? with
  | none => cases (candidate.routes.map (·.plannedEndAt)).max? <;> rfl
  | some old =>
    cases (candidate.routes.map (·.plannedEndAt)).max? with
    | none => rfl
    | some new =>
      dsimp only
      rw [Option.map_some, ← roundSeconds_neg, Int.neg_sub]

/-- A delivery stands under its order alone. -/
theorem Indexed.delivery_key (h : Indexed actions) {entry : ActionKey × RouteStop × UUID}
    (he : entry ∈ actions) (htype : entry.1.stopType = .delivery) :
    entry.1 = ⟨entry.1.orderId, .delivery, none⟩ := by
  have hown := h.own entry he
  rw [hown] at htype ⊢
  rw [actionKey] at htype ⊢
  dsimp only at htype ⊢
  rw [htype, if_neg (by decide)]

/-- The frozen orders are delivered in both plans and have no change. -/
theorem mem_frozenOrderIds (hb : Indexed baseActions) {orderId : UUID} :
    orderId ∈ frozenOrderIds baseActions candidateActions ↔
      deliveryCompleted (delivery? baseActions orderId) = true ∧
        orderId ∉ (stopChanges baseActions candidateActions).map (·.action.orderId) ∧
          deliveryCompleted (delivery? candidateActions orderId) = true := by
  unfold frozenOrderIds
  dsimp only
  rw [List.mem_insertionSort, List.mem_map]
  constructor
  · rintro ⟨entry, he, rfl⟩
    rw [List.mem_filter] at he
    simp only [Bool.and_eq_true, beq_iff_eq, Bool.not_eq_true', List.contains_eq_mem,
      decide_eq_false_iff_not] at he
    obtain ⟨hmem, ⟨⟨htype, hstatus⟩, hunchanged⟩, hdelivered⟩ := he
    have hfound := hb.action?_eq_some_iff.mpr hmem
    rw [hb.delivery_key hmem htype] at hfound
    refine ⟨?_, hunchanged, hdelivered⟩
    rw [delivery?, hfound]
    exact beq_iff_eq.mpr hstatus
  · rintro ⟨hdelivered, hunchanged, hafter⟩
    rw [deliveryCompleted] at hdelivered
    cases hfound : delivery? baseActions orderId with
    | none =>
      rw [hfound] at hdelivered
      cases hdelivered
    | some entry =>
      rw [hfound, Option.any_some] at hdelivered
      refine ⟨(_, entry), List.mem_filter.mpr ⟨hb.action?_eq_some_iff.mp hfound, ?_⟩, rfl⟩
      simp only [Bool.and_eq_true, beq_iff_eq, Bool.not_eq_true', List.contains_eq_mem,
        decide_eq_false_iff_not]
      exact ⟨⟨⟨trivial, beq_iff_eq.mp hdelivered⟩, hunchanged⟩, hafter⟩

/-- No order is frozen twice. -/
theorem nodup_frozenOrderIds (hb : Indexed baseActions) :
    (frozenOrderIds baseActions candidateActions).Nodup := by
  refine (List.perm_insertionSort _ _).nodup_iff.mpr ?_
  have hentries : baseActions.Nodup := List.Nodup.of_map _ hb.keys
  refine (hentries.filter _).map_on fun a ha b hb' hsame ↦ ?_
  simp only [List.mem_filter, Bool.and_eq_true, beq_iff_eq] at ha hb'
  refine eq_of_key_eq hb.keys ha.1 hb'.1 ?_
  rw [hb.delivery_key ha.1 ha.2.1.1.1, hb.delivery_key hb'.1 hb'.2.1.1.1, hsame]

/-- The same orders are frozen either way. -/
theorem frozenOrderIds_swap (hb : Indexed baseActions) (hc : Indexed candidateActions) :
    frozenOrderIds candidateActions baseActions = frozenOrderIds baseActions candidateActions := by
  have hsorted : ∀ b c : Actions, (frozenOrderIds b c).insertionSort (fun x y ↦ id x ≤ id y) =
      frozenOrderIds b c := fun b c ↦ (List.pairwise_insertionSort _ _).insertionSort_eq
  rw [← hsorted candidateActions, ← hsorted baseActions]
  refine insertionSort_congr Function.injective_id (nodup_frozenOrderIds hc)
    (nodup_frozenOrderIds hb) fun orderId ↦ ?_
  rw [mem_frozenOrderIds hc, mem_frozenOrderIds hb, changedOrders_swap]
  exact ⟨fun h ↦ ⟨h.2.2, h.2.1, h.1⟩, fun h ↦ ⟨h.2.2, h.2.1, h.1⟩⟩

/-! ### The whole view -/

/-- The view of the exchanged plans is the exchanged view. -/
theorem planComparisonView_swap {recoveryPlanId : UUID} {comparisonAt : Instant}
    {reviewable : Bool} {view : PlanComparisonView}
    (h : planComparisonView recoveryPlanId comparisonAt base candidate reviewable = .ok view) :
    planComparisonView recoveryPlanId comparisonAt candidate base reviewable =
      .ok (view.swap candidate.businessDate) := by
  obtain ⟨baseActions, hbase, h⟩ := bind_eq_ok.mp h
  obtain ⟨candidateActions, hcandidate, h⟩ := bind_eq_ok.mp h
  cases h
  obtain ⟨hb, -⟩ := planActions_ok hbase
  obtain ⟨hc, -⟩ := planActions_ok hcandidate
  have haffected : sortedSet id
      ((routeChanges candidate base candidateActions baseActions).map (·.vehicleId) ++
        (orderViews candidate base candidateActions baseActions).flatMap (·.affected)) =
      sortedSet id ((routeChanges base candidate baseActions candidateActions).map (·.vehicleId) ++
        (orderViews base candidate baseActions candidateActions).flatMap (·.affected)) := by
    refine sortedSet_congr Function.injective_id fun vehicleId ↦ ?_
    rw [routeChanges_swap, orderViews_swap, List.map_map, List.mem_append, List.mem_append,
      List.flatMap_map, List.mem_flatMap, List.mem_flatMap]
    simp only [mem_affected_swap]
    rfl
  have hreassigned : ((orderViews candidate base candidateActions baseActions).filter
      (·.reassigned)).length =
        ((orderViews base candidate baseActions candidateActions).filter
          (·.reassigned)).length := by
    rw [orderViews_swap, List.filter_map, List.length_map]
    refine congrArg List.length (List.filter_congr fun order _ ↦ ?_)
    exact reassigned_swap order
  unfold planComparisonView
  rw [hcandidate, hbase]
  simp only [bind, Except.bind, pure, Except.pure, haffected, hreassigned]
  rw [stopChanges_swap, orderViews_swap, routeChanges_swap, planImpact_swap hb hc,
    frozenOrderIds_swap hb hc]
  rfl

end PenroseRoute.Planning
