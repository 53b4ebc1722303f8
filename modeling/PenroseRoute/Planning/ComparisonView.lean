import Mathlib.Data.Prod.Lex
import PenroseRoute.Lib.Dict
import PenroseRoute.Lib.SortedSet
import PenroseRoute.Planning.Comparison
import PenroseRoute.Recovery.Candidate

/-!
# The view of a plan comparison

Models `compare_plan_snapshots` of `backend/app/modules/planning/comparison.py` with everything it
returns. The `base_…` and `candidate_…` fields of a view are the two sides of a pair; of the
metrics of the remainder, which are always empty, only the reason is kept.
-/

namespace PenroseRoute.Planning

open PenroseRoute.Db PenroseRoute.Lib PenroseRoute.Operations PenroseRoute.Optimization

/-- The fields of a view for the base plan and for the candidate. -/
structure Sides (α : Type) where
  base : α
  candidate : α
  deriving DecidableEq, Repr

/-- The view from the other side. -/
def Sides.swap {α : Type} (sides : Sides α) : Sides α := ⟨sides.candidate, sides.base⟩

/-! ### Rows of the view -/

/-- What a view says about an action in one of the plans. -/
structure StopSide where
  vehicleId : Option UUID
  sequenceNo : Option Nat
  locationId : Option UUID
  status : Option StopStatus
  plannedArrivalAt : Option Instant
  plannedDepartureAt : Option Instant
  actualArrivalAt : Option Instant
  actualDepartureAt : Option Instant
  precedenceStopType : Option StopType
  precedenceLocationId : Option UUID
  precedenceSourceIncidentId : Option UUID
  deriving DecidableEq, Repr

/-- `ChangeType`. -/
inductive ChangeType where
  | modified
  | removed
  | added
  deriving DecidableEq, Repr

/-- `StopComparisonView`, `comparison.py:39`. -/
structure StopComparisonView where
  action : ActionKey
  changeType : ChangeType
  sides : Sides StopSide
  deriving DecidableEq, Repr

/-- What a view says about an order in one of the plans. -/
structure OrderSide where
  assignmentStatus : Option PlanOrderAssignmentStatus
  vehicleId : Option UUID
  unassignedReasonCode : Option UnassignedReason
  unassignedReasonDetail : Option String
  deliveryEta : Option Instant
  deriving DecidableEq, Repr

/-- `EtaBasis`. -/
inductive EtaBasis where
  | plannedDeliveryArrival
  deriving DecidableEq, Repr

/-- `EtaUnavailableReason`. -/
inductive EtaUnavailableReason where
  | completedDelivery
  | deliveryStopNotAvailable
  deriving DecidableEq, Repr

/-- `OrderComparisonView`, `comparison.py:19`. -/
structure OrderComparisonView where
  orderId : UUID
  sides : Sides OrderSide
  assignmentChanged : Bool
  routeTaskChanged : Bool
  etaDeltaSeconds : Option Int
  etaBasis : Option EtaBasis
  etaUnavailableReason : Option EtaUnavailableReason
  deriving DecidableEq, Repr

/-- What a view says about the route of a vehicle in one of the plans. -/
structure RouteSide where
  routeId : Option UUID
  stopCount : Nat
  deriving DecidableEq, Repr

/-- `RouteComparisonView`, `comparison.py:69`. -/
structure RouteComparisonView where
  vehicleId : UUID
  sides : Sides RouteSide
  deriving DecidableEq, Repr

/-- `PlanImpactView`, `comparison.py:89`. -/
structure PlanImpactView where
  planDistanceMeters : Sides Nat
  plannedDistanceDeltaMeters : Int
  completionAt : Sides (Option Instant)
  plannedCompletionDeltaSeconds : Option Int
  completedStopsProtected : Nat
  unchangedRouteTasks : Nat
  deriving DecidableEq, Repr

/-- `PlanComparisonView`, `comparison.py:103`. -/
structure PlanComparisonView where
  recoveryPlanId : UUID
  planIds : Sides UUID
  businessDate : BusinessDate
  comparisonAt : Instant
  planStatuses : Sides DeliveryPlanStatus
  reviewable : Bool
  orders : List OrderComparisonView
  stopChanges : List StopComparisonView
  routeChanges : List RouteComparisonView
  reassignedOrderCount : Nat
  affectedVehicleIds : List UUID
  frozenCompletedOrderIds : List UUID
  remainingMetricsReason : String
  planImpact : PlanImpactView
  deriving DecidableEq, Repr

/-! ### The order of actions -/

/-- Where the text of a stop type stands. -/
def stopTypeRank : StopType → Nat
  | .delivery => 0
  | .handover => 1
  | .pickup => 2

/-- Where `str(source_incident_id)` stands: ids stand in their order, and `None` stands between
the ones that start with a digit and the ones that start with a letter. -/
def incidentRank : Option UUID → Nat
  | some incidentId => 2 * incidentId + 1
  | none => 2 * (10 * 16 ^ 31)

/-- The sort key of the stop changes, `comparison.py:194`. -/
def ActionKey.rank (key : ActionKey) : Nat ×ₗ Nat ×ₗ Nat :=
  toLex (key.orderId, toLex (stopTypeRank key.stopType, incidentRank key.sourceIncidentId))

/-- The actions of either plan, in order. -/
def actionKeys (base candidate : Actions) : List ActionKey :=
  sortedSet ActionKey.rank (base.map (·.1) ++ candidate.map (·.1))

/-! ### Stops -/

/-- `actions.get(key)`. -/
def action? (actions : Actions) (key : ActionKey) : Option (RouteStop × UUID) :=
  (actions.find? (·.1 == key)).map (·.2)

/-- The fields of a stop change for one of the plans; `_predecessor_fields`, `comparison.py:153`,
among them. -/
def stopSide (actions : Actions) (entry : Option (RouteStop × UUID)) : StopSide :=
  let before := entry.bind fun (stop, _) ↦ predecessor stop actions
  { vehicleId := entry.map (·.2)
    sequenceNo := entry.map (·.1.sequenceNo)
    locationId := entry.map (·.1.locationId)
    status := entry.map (·.1.status)
    plannedArrivalAt := entry.map (·.1.plannedArrivalAt)
    plannedDepartureAt := entry.map (·.1.plannedDepartureAt)
    actualArrivalAt := entry.bind (·.1.actualArrivalAt)
    actualDepartureAt := entry.bind (·.1.actualDepartureAt)
    precedenceStopType := before.map (·.1.stopType)
    precedenceLocationId := before.map (·.2)
    precedenceSourceIncidentId := before.bind (·.1.sourceIncidentId) }

/-- `change_type`, `comparison.py:204`. -/
def changeType {α : Type} : Option α → Option α → ChangeType
  | some _, some _ => .modified
  | some _, none => .removed
  | none, _ => .added

/-- One pass of the loop over the actions, `comparison.py:194`. -/
def stopChange? (base candidate : Actions) (key : ActionKey) : Option StopComparisonView :=
  let before := action? base key
  let after := action? candidate key
  if before.isSome && after.isSome && signature? base key == signature? candidate key then none
  else some {
    action := key
    changeType := changeType before after
    sides := ⟨stopSide base before, stopSide candidate after⟩ }

/-- `stop_changes`, `comparison.py:192`. -/
def stopChanges (base candidate : Actions) : List StopComparisonView :=
  (actionKeys base candidate).filterMap (stopChange? base candidate)

/-! ### Orders -/

/-- `base_members.get(order_id)`. -/
def member? (plan : DeliveryPlan) (orderId : UUID) : Option DeliveryPlanOrder :=
  lastWrite (plan.planOrders.map fun membership ↦ (membership.orderId, membership)) orderId

/-- `base_routes.get(vehicle_route_id)`. -/
def routeOf? (plan : DeliveryPlan) (routeId : Option UUID) : Option VehicleRoute :=
  routeId.bind (lastWrite (plan.routes.map fun route ↦ (route.id, route)))

/-- The delivery of an order in a plan. -/
def delivery? (actions : Actions) (orderId : UUID) : Option (RouteStop × UUID) :=
  action? actions ⟨orderId, .delivery, none⟩

/-- Whether a delivery is there and COMPLETED. -/
def deliveryCompleted (delivery : Option (RouteStop × UUID)) : Bool :=
  delivery.any (·.1.status == .completed)

/-- `old_eta`, `comparison.py:249`: the delivery is on the vehicle of the membership. -/
def deliveryEta (vehicleId : Option UUID) (delivery : Option (RouteStop × UUID)) :
    Option Instant :=
  delivery.bind fun (stop, onVehicle) ↦
    if vehicleId = some onVehicle then some stop.plannedArrivalAt else none

/-- The fields of an order for one of the plans, `comparison.py:259`. -/
def orderSide (plan : DeliveryPlan) (actions : Actions) (completed : Bool) (orderId : UUID) :
    OrderSide :=
  let membership := member? plan orderId
  let vehicleId := (routeOf? plan (membership.bind (·.vehicleRouteId))).map (·.vehicleId)
  { assignmentStatus := membership.map (·.assignmentStatus)
    vehicleId := vehicleId
    unassignedReasonCode := membership.bind (·.unassignedReasonCode)
    unassignedReasonDetail := membership.bind (·.unassignedReasonDetail)
    deliveryEta := if completed then none else deliveryEta vehicleId (delivery? actions orderId) }

/-- What `assignment_changed` compares, `comparison.py:265`. -/
def OrderSide.assignment (side : OrderSide) :
    Option PlanOrderAssignmentStatus × Option UUID × Option UnassignedReason × Option String :=
  (side.assignmentStatus, side.vehicleId, side.unassignedReasonCode, side.unassignedReasonDetail)

/-- `delta`, `comparison.py:250`. -/
def etaDelta : Option Instant → Option Instant → Option Int
  | some old, some new => some (totalSeconds (new - old))
  | _, _ => none

/-- One pass of the loop over the orders, `comparison.py:231`. -/
def orderView (base candidate : DeliveryPlan) (baseActions candidateActions : Actions)
    (changed : List UUID) (orderId : UUID) : OrderComparisonView :=
  let completed := deliveryCompleted (delivery? baseActions orderId) ||
    deliveryCompleted (delivery? candidateActions orderId)
  let before := orderSide base baseActions completed orderId
  let after := orderSide candidate candidateActions completed orderId
  let delta := etaDelta before.deliveryEta after.deliveryEta
  { orderId := orderId
    sides := ⟨before, after⟩
    assignmentChanged := before.assignment != after.assignment
    routeTaskChanged := changed.contains orderId
    etaDeltaSeconds := delta
    etaBasis :=
      if before.deliveryEta.isSome || after.deliveryEta.isSome then some .plannedDeliveryArrival
      else none
    etaUnavailableReason :=
      if completed then some .completedDelivery
      else if delta.isSome then none
      else some .deliveryStopNotAvailable }

/-- `orders`, `comparison.py:230`. -/
def orderViews (base candidate : DeliveryPlan) (baseActions candidateActions : Actions) :
    List OrderComparisonView :=
  let changed := (stopChanges baseActions candidateActions).map (·.action.orderId)
  (sortedSet id (base.planOrders.map (·.orderId) ++ candidate.planOrders.map (·.orderId))).map
    (orderView base candidate baseActions candidateActions changed)

/-- Whether an order goes from one vehicle to another, `comparison.py:321`. -/
def OrderComparisonView.reassigned (view : OrderComparisonView) : Bool :=
  match view.sides.base.vehicleId, view.sides.candidate.vehicleId with
  | some before, some after => before != after
  | _, _ => false

/-! ### Routes -/

/-- `_route_signature`, `comparison.py:178`. -/
def routeSignature (route : VehicleRoute) (actions : Actions) :
    List (ActionKey × StopSignature) :=
  (route.stops.insertionSort fun a b ↦ a.sequenceNo ≤ b.sequenceNo).map fun stop ↦
    (actionKey stop, stopSignature stop route.vehicleId actions)

/-- `base_by_vehicle.get(vehicle_id)`. -/
def vehicleRoute? (plan : DeliveryPlan) (vehicleId : UUID) : Option VehicleRoute :=
  lastWrite (plan.routes.map fun route ↦ (route.vehicleId, route)) vehicleId

/-- The fields of a route for one of the plans. -/
def routeSide (route : Option VehicleRoute) : RouteSide where
  routeId := route.map (·.id)
  stopCount := (route.map (·.stops.length)).getD 0

/-- One pass of the loop over the vehicles, `comparison.py:282`. -/
def routeChange? (base candidate : DeliveryPlan) (baseActions candidateActions : Actions)
    (vehicleId : UUID) : Option RouteComparisonView :=
  let old := vehicleRoute? base vehicleId
  let new := vehicleRoute? candidate vehicleId
  if old.isNone || new.isNone ||
      old.map (routeSignature · baseActions) != new.map (routeSignature · candidateActions) then
    some { vehicleId := vehicleId, sides := ⟨routeSide old, routeSide new⟩ }
  else none

/-- `route_changes`, `comparison.py:274`. -/
def routeChanges (base candidate : DeliveryPlan) (baseActions candidateActions : Actions) :
    List RouteComparisonView :=
  (sortedSet id (base.routes.map (·.vehicleId) ++ candidate.routes.map (·.vehicleId))).filterMap
    (routeChange? base candidate baseActions candidateActions)

/-! ### The whole view -/

/-- `frozen`, `comparison.py:286`. -/
def frozenOrderIds (baseActions candidateActions : Actions) : List UUID :=
  let changed := (stopChanges baseActions candidateActions).map (·.action.orderId)
  ((baseActions.filter fun (key, stop, _) ↦
    key.stopType == .delivery && stop.status == .completed && !changed.contains key.orderId &&
      deliveryCompleted (delivery? candidateActions key.orderId)).map (·.1.orderId)).insertionSort
        fun a b ↦ a ≤ b

/-- The vehicles of a change of the assignment, `comparison.py:295`. -/
def OrderComparisonView.affected (view : OrderComparisonView) : List UUID :=
  if view.assignmentChanged then
    view.sides.base.vehicleId.toList ++ view.sides.candidate.vehicleId.toList
  else []

/-- Whether an action is the same in both plans, `comparison.py:303`. -/
def unchangedAction (baseActions candidateActions : Actions) (key : ActionKey) : Bool :=
  (action? baseActions key).isSome && (action? candidateActions key).isSome &&
    signature? baseActions key == signature? candidateActions key

/-- The `PlanImpactView`, `comparison.py:332`. -/
def planImpact (base candidate : DeliveryPlan) (baseActions candidateActions : Actions) :
    PlanImpactView :=
  let baseCompletion := (base.routes.map (·.plannedEndAt)).max?
  let candidateCompletion := (candidate.routes.map (·.plannedEndAt)).max?
  let baseDistance := (base.routes.map (·.distanceMeters)).sum
  let candidateDistance := (candidate.routes.map (·.distanceMeters)).sum
  let unchanged := baseActions.filter fun (key, _) ↦
    unchangedAction baseActions candidateActions key
  { planDistanceMeters := ⟨baseDistance, candidateDistance⟩
    plannedDistanceDeltaMeters := (candidateDistance : Int) - baseDistance
    completionAt := ⟨baseCompletion, candidateCompletion⟩
    plannedCompletionDeltaSeconds :=
      match baseCompletion, candidateCompletion with
      | some old, some new => some (Recovery.roundSeconds (new - old))
      | _, _ => none
    completedStopsProtected := (unchanged.filter (·.2.1.status == .completed)).length
    unchangedRouteTasks := unchanged.length }

/-- `compare_plan_snapshots`, `comparison.py:185`, with everything it returns. -/
def planComparisonView (recoveryPlanId : UUID) (comparisonAt : Instant)
    (base candidate : DeliveryPlan) (reviewable : Bool) : Except AppError PlanComparisonView := do
  let baseActions ← planActions base
  let candidateActions ← planActions candidate
  let orders := orderViews base candidate baseActions candidateActions
  let routes := routeChanges base candidate baseActions candidateActions
  return {
    recoveryPlanId, comparisonAt, reviewable, orders
    planIds := ⟨base.id, candidate.id⟩
    businessDate := base.businessDate
    planStatuses := ⟨base.status, candidate.status⟩
    stopChanges := stopChanges baseActions candidateActions
    routeChanges := routes
    reassignedOrderCount := (orders.filter (·.reassigned)).length
    affectedVehicleIds := sortedSet id (routes.map (·.vehicleId) ++ orders.flatMap (·.affected))
    frozenCompletedOrderIds := frozenOrderIds baseActions candidateActions
    remainingMetricsReason := "NO_COMPARABLE_REMAINDER_SNAPSHOT"
    planImpact := planImpact base candidate baseActions candidateActions }

end PenroseRoute.Planning
