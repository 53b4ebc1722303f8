import PenroseRoute.Decisions.Snapshot
import PenroseRoute.Optimization.ValidatorAccepts
import PenroseRoute.Recovery.CandidateRoutes

/-!
# Memberships of a candidate

When the memberships of a candidate agree with its stops. `route_by_order` keeps the last
route that stops for an order, so they agree exactly when, for every order, that last route is
the one that delivers it; the module says what this means for the base plan and the result.
-/

namespace PenroseRoute.Recovery

open PenroseRoute.Db PenroseRoute.Lib PenroseRoute.Optimization PenroseRoute.Decisions

/-- A base route keeps a stop of an order. -/
def keeps (context : RecoveryContext) (orderId : UUID) (route : VehicleRoute) : Bool :=
  (preservedStops context route).any (·.orderId == orderId)

/-- A base route keeps the delivery of an order. -/
def keepsDelivery (context : RecoveryContext) (orderId : UUID) (route : VehicleRoute) : Bool :=
  (preservedStops context route).any fun stop ↦
    stop.orderId == orderId && stop.stopType == .delivery

/-- The last base route, by route number, that keeps a stop of an order. -/
def lastKeeper (context : RecoveryContext) (orderId : UUID) : Option VehicleRoute :=
  context.routes.reverse.find? (keeps context orderId)

/-- The memberships will agree with the stops. An order that the solver does not touch is
delivered by the last base route that holds a stop of it, and by no other. An order that the
solver serves on a vehicle keeps no stop on a base route behind that vehicle's own one, and no
delivery on the base route of another vehicle. -/
structure LastRouteDelivers (context : RecoveryContext) (result : SolverResult)
    (orderId : UUID) : Prop where
  untouched : (∀ solver ∈ result.routes, ¬ solver.Visits orderId) →
    ∀ route, lastKeeper context orderId = some route →
      keepsDelivery context orderId route = true ∧
        ∀ other ∈ context.routes, keepsDelivery context orderId other = true →
          other.vehicleId = route.vehicleId
  replanned : ∀ solver ∈ result.routes, solver.Visits orderId →
    (∀ other ∈ context.routes, keepsDelivery context orderId other = true →
      other.vehicleId = solver.vehicleId) ∧
    ∀ own ∈ context.routes, own.vehicleId = solver.vehicleId →
      ∀ other ∈ context.routes, keeps context orderId other = true →
        other.routeNo ≤ own.routeNo

namespace RouteTask

/-- The orders and types of the stops that a pass makes, in sequence. -/
def stopKeys (context : RecoveryContext) (task : RouteTask) : List (UUID × StopType) :=
  ((task.kept context).map fun stop ↦ (stop.orderId, stop.stopType)) ++
    task.solved.map fun stop ↦ (stop.orderId, stop.stopType)

/-- The pass makes a stop for an order. -/
def holds (context : RecoveryContext) (orderId : UUID) (task : RouteTask) : Bool :=
  (task.stopKeys context).any (·.1 == orderId)

/-- The pass makes a delivery of an order. -/
def delivers (context : RecoveryContext) (orderId : UUID) (task : RouteTask) : Bool :=
  (task.stopKeys context).any fun key ↦ key.1 == orderId && key.2 == .delivery

end RouteTask

/-! ### From routes to passes -/

/-- The stops of a route have the orders and types of its pass. -/
theorem BuiltFrom.stopKeys {context : RecoveryContext} {task : RouteTask} {route : VehicleRoute}
    (h : BuiltFrom context task route) :
    (route.stops.map fun stop ↦ (stop.orderId, stop.stopType)) = task.stopKeys context := by
  obtain ⟨copies, solved, he, hc, hs⟩ := h.stops.parts
  rw [he, List.map_append, RouteTask.stopKeys]
  congr 1
  · refine (map_eq_map_of_forall₂ (fun snapshot stop hcopy ↦ ?_) hc).symm
    rw [hcopy]
  · refine (map_eq_map_of_forall₂ (fun solverStop stop hsolved ↦ ?_) hs).symm
    obtain ⟨order, -, he⟩ := hsolved
    rw [he]
    rfl

/-- A route holds a stop of an order when its pass makes one. -/
theorem BuiltFrom.holds {context : RecoveryContext} {task : RouteTask}
    {route : VehicleRoute} (h : BuiltFrom context task route) (orderId : UUID) :
    task.holds context orderId = route.holds orderId := by
  rw [RouteTask.holds, ← h.stopKeys, List.any_map, VehicleRoute.holds, List.contains_eq_any_beq,
    List.any_map]
  congr 1
  funext stop
  exact Bool.beq_comm

/-- A route delivers an order when its pass does. -/
theorem BuiltFrom.delivers {context : RecoveryContext} {task : RouteTask}
    {route : VehicleRoute} (h : BuiltFrom context task route) (orderId : UUID) :
    task.delivers context orderId = route.delivers orderId := by
  rw [RouteTask.delivers, ← h.stopKeys, List.any_map, VehicleRoute.delivers]
  rfl

/-- `route_by_order`: the last route that holds a stop of the order. -/
theorem lastWrite_routeByOrderWrites (routes : List VehicleRoute) (orderId : UUID) :
    lastWrite (routeByOrderWrites routes) orderId =
      (routes.reverse.find? (·.holds orderId)).map (·.id) := by
  have h := lastWrite_flatMap routes (fun route ↦ route.stops.map (·.orderId)) (·.id) orderId
  simp only [List.map_map] at h
  exact h

/-- An assigned membership points at the last route that holds a stop of its order, an
unassigned one belongs to an order without stops. -/
theorem candidateMembership_ok {routes : List VehicleRoute} {result : SolverResult}
    {snapshot membership : DeliveryPlanOrder}
    (h : candidateMembership routes result snapshot = .ok membership) :
    membership.orderId = snapshot.orderId ∧
      ((membership.assignmentStatus = .assigned ∧ ∃ route,
          routes.reverse.find? (·.holds snapshot.orderId) = some route ∧
            membership.vehicleRouteId = some route.id) ∨
        (membership.assignmentStatus = .unassigned ∧ membership.vehicleRouteId = none ∧
          routes.reverse.find? (·.holds snapshot.orderId) = none)) := by
  unfold candidateMembership at h
  rw [lastWrite_routeByOrderWrites] at h
  cases hf : routes.reverse.find? (·.holds snapshot.orderId) with
  | some route =>
    rw [hf] at h
    cases h
    exact ⟨rfl, .inl ⟨rfl, route, rfl, rfl⟩⟩
  | none =>
    rw [hf] at h
    obtain ⟨reason, -, h⟩ := bind_eq_ok.mp h
    cases h
    exact ⟨rfl, .inr ⟨rfl, rfl, rfl⟩⟩

/-! ### The passes of a result -/

/-- With one route per vehicle, a base route pops exactly the solver route of its vehicle. -/
theorem lastWrite_solverRouteWrites {result : SolverResult}
    (hv : (result.routes.map (·.vehicleId)).Nodup) (vehicleId : UUID) (solver : SolverRoute) :
    lastWrite (solverRouteWrites result) vehicleId = some solver ↔
      solver ∈ result.routes ∧ solver.vehicleId = vehicleId := by
  have hk : ((solverRouteWrites result).map (·.1)).Nodup := by
    simpa [solverRouteWrites, Function.comp_def] using hv
  rw [lastWrite_eq_some_iff hk]
  simp only [solverRouteWrites, List.mem_map, Prod.mk.injEq]
  constructor
  · rintro ⟨route, hr, he, rfl⟩
    exact ⟨hr, he⟩
  · rintro ⟨hr, he⟩
    exact ⟨solver, hr, he, rfl⟩

/-- The solver route that a base route pops. -/
def popped (result : SolverResult) (route : VehicleRoute) : Option SolverRoute :=
  lastWrite (solverRouteWrites result) route.vehicleId

/-- The pass of a base route, if it makes a route. -/
def baseTask (context : RecoveryContext) (result : SolverResult) (route : VehicleRoute) :
    Option RouteTask :=
  if preservedStops context route = [] ∧ popped result route = none then none
  else some (.base route (popped result route))

/-- The solver routes that no base route pops. -/
def leftOver (context : RecoveryContext) (result : SolverResult) : List SolverRoute :=
  result.routes.filter fun solver ↦ !(context.routes.map (·.vehicleId)).contains solver.vehicleId

/-- With one route per vehicle, the passes are those of the base routes and then those of the
left-over solver routes. -/
theorem routeTasks_eq {context : RecoveryContext} {result : SolverResult}
    (hv : (result.routes.map (·.vehicleId)).Nodup) :
    routeTasks context result = context.routes.filterMap (baseTask context result) ++
      (leftOver context result).map .extra := by
  have hk : ((solverRouteWrites result).map (·.1)).Nodup := by
    simpa [solverRouteWrites, Function.comp_def] using hv
  rw [routeTasks, dictEntries_of_nodup hk]
  congr 1
  rw [solverRouteWrites, List.filter_map, List.map_map, leftOver]
  rfl

/-- A solver route stops for an order. -/
def serves (orderId : UUID) (solver : SolverRoute) : Bool :=
  solver.stops.any (·.orderId == orderId)

/-- A solver route delivers an order. -/
def servesDelivery (orderId : UUID) (solver : SolverRoute) : Bool :=
  solver.stops.any fun stop ↦ stop.orderId == orderId && stop.stopType == .delivery

/-- A route serves the orders that it visits. -/
theorem serves_iff (orderId : UUID) (solver : SolverRoute) :
    serves orderId solver = true ↔ solver.Visits orderId := by
  simp [serves, SolverRoute.Visits]

/-- A copied route holds the orders that it keeps and those that its solver route serves. -/
@[simp] theorem holds_base (context : RecoveryContext) (route : VehicleRoute)
    (solver : Option SolverRoute) (orderId : UUID) :
    (RouteTask.base route solver).holds context orderId =
      (keeps context orderId route || solver.any (serves orderId)) := by
  cases solver <;>
    simp [RouteTask.holds, RouteTask.stopKeys, RouteTask.kept, RouteTask.solved, keeps, serves,
      Function.comp_def]

/-- A copied route delivers what it keeps to deliver and what its solver route delivers. -/
@[simp] theorem delivers_base (context : RecoveryContext) (route : VehicleRoute)
    (solver : Option SolverRoute) (orderId : UUID) :
    (RouteTask.base route solver).delivers context orderId =
      (keepsDelivery context orderId route || solver.any (servesDelivery orderId)) := by
  cases solver <;>
    simp [RouteTask.delivers, RouteTask.stopKeys, RouteTask.kept, RouteTask.solved,
      keepsDelivery, servesDelivery, Function.comp_def]

/-- A new route holds the orders that it serves. -/
@[simp] theorem holds_extra (context : RecoveryContext) (solver : SolverRoute) (orderId : UUID) :
    (RouteTask.extra solver).holds context orderId = serves orderId solver := by
  simp [RouteTask.holds, RouteTask.stopKeys, RouteTask.kept, RouteTask.solved, serves,
    Function.comp_def]

/-- A new route delivers the orders that it serves to the end. -/
@[simp] theorem delivers_extra (context : RecoveryContext) (solver : SolverRoute)
    (orderId : UUID) :
    (RouteTask.extra solver).delivers context orderId = servesDelivery orderId solver := by
  simp [RouteTask.delivers, RouteTask.stopKeys, RouteTask.kept, RouteTask.solved,
    servesDelivery, Function.comp_def]

/-- A base route that keeps a stop or pops a route makes a route. -/
theorem baseTask_eq_some {context : RecoveryContext} {result : SolverResult}
    {route : VehicleRoute} (orderId : UUID)
    (h : (keeps context orderId route || (popped result route).any (serves orderId)) = true) :
    baseTask context result route = some (.base route (popped result route)) := by
  rw [baseTask, if_neg]
  rintro ⟨hp, hn⟩
  simp [keeps, hp, hn] at h

/-- The passes that a base route or a left-over solver route makes. -/
theorem mem_routeTasks {context : RecoveryContext} {result : SolverResult}
    (hv : (result.routes.map (·.vehicleId)).Nodup) (task : RouteTask) :
    task ∈ routeTasks context result ↔
      (∃ route ∈ context.routes, baseTask context result route = some task) ∨
        ∃ solver ∈ leftOver context result, task = .extra solver := by
  rw [routeTasks_eq hv, List.mem_append, List.mem_filterMap, List.mem_map]
  constructor
  · rintro (h | ⟨solver, hs, rfl⟩)
    · exact .inl h
    · exact .inr ⟨solver, hs, rfl⟩
  · rintro (h | ⟨solver, hs, rfl⟩)
    · exact .inl h
    · exact .inr ⟨solver, hs, rfl⟩

/-- The last pass with a stop of an order: a left-over solver route that serves it, else the
last base route that keeps a stop of it or pops a route that serves it. -/
theorem find?_routeTasks {context : RecoveryContext} {result : SolverResult}
    (hv : (result.routes.map (·.vehicleId)).Nodup) (orderId : UUID) :
    (routeTasks context result).reverse.find? (·.holds context orderId) =
      (((leftOver context result).reverse.find? (serves orderId)).map .extra).or
        ((context.routes.reverse.find? fun route ↦
            keeps context orderId route || (popped result route).any (serves orderId)).map
          fun route ↦ .base route (popped result route)) := by
  have hbase : ∀ route, (baseTask context result route).any (·.holds context orderId) =
      (keeps context orderId route || (popped result route).any (serves orderId)) := by
    intro route
    cases hp : keeps context orderId route || (popped result route).any (serves orderId) with
    | true => rw [baseTask_eq_some orderId hp, Option.any_some, holds_base, hp]
    | false =>
      rw [baseTask]
      split
      · rfl
      · rw [Option.any_some, holds_base, hp]
  rw [routeTasks_eq hv, List.reverse_append, List.find?_append, ← List.map_reverse,
    List.find?_map, ← List.filterMap_reverse, List.find?_filterMap]
  congr 1
  · congr 2
    funext solver
    exact holds_extra context solver orderId
  · simp only [hbase]
    cases hf : context.routes.reverse.find? fun route ↦
        keeps context orderId route || (popped result route).any (serves orderId) with
    | none => rfl
    | some route =>
      have hp := List.find?_some hf
      rw [Option.bind_some, baseTask_eq_some orderId hp, Option.map_some]

/-! ### The last pass of an order -/

/-- The last pass with a stop of an order delivers it, and no pass of another vehicle does. -/
def LastPassDelivers (context : RecoveryContext) (tasks : List RouteTask) (orderId : UUID) :
    Prop :=
  ∀ last, tasks.reverse.find? (·.holds context orderId) = some last →
    last.delivers context orderId = true ∧
      ∀ task ∈ tasks, task.delivers context orderId = true → task.vehicleId = last.vehicleId

private theorem keepsDelivery_keeps {context : RecoveryContext} {orderId : UUID}
    {route : VehicleRoute} (h : keepsDelivery context orderId route = true) :
    keeps context orderId route = true := by
  simp only [keepsDelivery, keeps, List.any_eq_true, Bool.and_eq_true] at h ⊢
  obtain ⟨stop, hs, ho, -⟩ := h
  exact ⟨stop, hs, ho⟩

private theorem servesDelivery_serves {orderId : UUID} {solver : SolverRoute}
    (h : servesDelivery orderId solver = true) : serves orderId solver = true := by
  simp only [servesDelivery, serves, List.any_eq_true, Bool.and_eq_true] at h ⊢
  obtain ⟨stop, hs, ho, -⟩ := h
  exact ⟨stop, hs, ho⟩

/-- A base route that delivers an order by a kept stop or by its solver route. -/
theorem delivering_pass {context : RecoveryContext} {result : SolverResult}
    (hv : (result.routes.map (·.vehicleId)).Nodup) {orderId : UUID} {task : RouteTask}
    (ht : task ∈ routeTasks context result) (hd : task.delivers context orderId = true) :
    (∃ route ∈ context.routes, keepsDelivery context orderId route = true ∧
        task.vehicleId = route.vehicleId) ∨
      ∃ solver ∈ result.routes, solver.Visits orderId ∧ task.vehicleId = solver.vehicleId := by
  rcases (mem_routeTasks hv task).mp ht with ⟨route, hr, hb⟩ | ⟨solver, hs, rfl⟩
  · rw [baseTask] at hb
    split at hb
    · cases hb
    · cases hb
      rw [delivers_base, Bool.or_eq_true] at hd
      rcases hd with hk | hsd
      · exact .inl ⟨route, hr, hk, rfl⟩
      · obtain ⟨solver, hp, hsd⟩ := (Option.any_eq_true _ _).mp hsd
        obtain ⟨hm, he⟩ := (lastWrite_solverRouteWrites hv _ _).mp hp
        exact .inr ⟨solver, hm, (serves_iff _ _).mp (servesDelivery_serves hsd), he.symm⟩
  · rw [delivers_extra] at hd
    exact .inr ⟨solver, (List.mem_filter.mp hs).1,
      (serves_iff _ _).mp (servesDelivery_serves hd), rfl⟩

private theorem lastPassDelivers_untouched {context : RecoveryContext} {result : SolverResult}
    (hv : (result.routes.map (·.vehicleId)).Nodup) {orderId : UUID}
    (hn : ∀ solver ∈ result.routes, ¬ solver.Visits orderId) :
    LastPassDelivers context (routeTasks context result) orderId ↔
      ∀ route, lastKeeper context orderId = some route →
        keepsDelivery context orderId route = true ∧
          ∀ other ∈ context.routes, keepsDelivery context orderId other = true →
            other.vehicleId = route.vehicleId := by
  have hserves : ∀ solver ∈ result.routes, serves orderId solver = false := by
    intro solver hs
    rw [Bool.eq_false_iff, ne_eq, serves_iff]
    exact hn solver hs
  have hpopped : ∀ route, (popped result route).any (serves orderId) = false := by
    intro route
    cases hp : popped result route with
    | none => rfl
    | some solver => exact hserves solver ((lastWrite_solverRouteWrites hv _ _).mp hp).1
  have hdelivers : ∀ route,
      (popped result route).any (servesDelivery orderId) = false := by
    intro route
    cases hp : popped result route with
    | none => rfl
    | some solver =>
      rw [Option.any_some, Bool.eq_false_iff]
      intro hd
      have hs := hserves solver ((lastWrite_solverRouteWrites hv _ _).mp hp).1
      rw [servesDelivery_serves hd] at hs
      cases hs
  have hlast : (routeTasks context result).reverse.find? (·.holds context orderId) =
      (lastKeeper context orderId).map fun route ↦ .base route (popped result route) := by
    have hleft : (leftOver context result).reverse.find? (serves orderId) = none := by
      rw [List.find?_eq_none]
      intro solver hs
      rw [hserves solver (List.mem_filter.mp (List.mem_reverse.mp hs)).1]
      simp
    rw [find?_routeTasks hv, hleft, Option.map_none, Option.none_or, lastKeeper]
    simp only [hpopped, Bool.or_false]
  constructor
  · intro h route hroute
    have hkeep := List.find?_some hroute
    obtain ⟨hd, ho⟩ := h (.base route (popped result route)) (by rw [hlast, hroute]; rfl)
    rw [delivers_base, hdelivers, Bool.or_false] at hd
    refine ⟨hd, ?_⟩
    intro other hother hk
    have hb : baseTask context result other = some (.base other (popped result other)) := by
      apply baseTask_eq_some orderId
      rw [keepsDelivery_keeps hk, Bool.true_or]
    refine ho (.base other (popped result other))
      ((mem_routeTasks hv _).mpr (.inl ⟨other, hother, hb⟩)) ?_
    rw [delivers_base, hk, Bool.true_or]
  · intro h last hl
    rw [hlast, Option.map_eq_some_iff] at hl
    obtain ⟨route, hroute, rfl⟩ := hl
    obtain ⟨hd, ho⟩ := h route hroute
    refine ⟨by rw [delivers_base, hd, Bool.true_or], ?_⟩
    intro task ht hdt
    rcases delivering_pass hv ht hdt with ⟨other, hm, hk, he⟩ | ⟨solver, hs, hvis, -⟩
    · rw [he]
      exact ho other hm hk
    · exact absurd hvis (hn solver hs)

-- For an order that one solver route serves, that route has to be the last one with a stop
-- of the order.
private theorem lastPassDelivers_replanned {context : RecoveryContext} {result : SolverResult}
    (hveh : (context.routes.map (·.vehicleId)).Nodup)
    (hno : context.routes.Pairwise fun a b ↦ a.routeNo < b.routeNo)
    (hv : (result.routes.map (·.vehicleId)).Nodup) {orderId : UUID} {solver : SolverRoute}
    (hs : solver ∈ result.routes) (hd : servesDelivery orderId solver = true)
    (hu : ∀ other ∈ result.routes, other.Visits orderId → other = solver) :
    LastPassDelivers context (routeTasks context result) orderId ↔
      (∀ other ∈ context.routes, keepsDelivery context orderId other = true →
        other.vehicleId = solver.vehicleId) ∧
      ∀ own ∈ context.routes, own.vehicleId = solver.vehicleId →
        ∀ other ∈ context.routes, keeps context orderId other = true →
          other.routeNo ≤ own.routeNo := by
  have hserves := servesDelivery_serves hd
  have hpopped : ∀ route, (popped result route).any (serves orderId) = true ↔
      popped result route = some solver := by
    intro route
    rw [Option.any_eq_true]
    constructor
    · rintro ⟨other, hp, ho⟩
      rw [hp, hu other ((lastWrite_solverRouteWrites hv _ _).mp hp).1 ((serves_iff _ _).mp ho)]
    · intro hp
      exact ⟨solver, hp, hserves⟩
  have hown : ∀ route : VehicleRoute, popped result route = some solver ↔
      route.vehicleId = solver.vehicleId := by
    intro route
    rw [popped, lastWrite_solverRouteWrites hv]
    exact ⟨fun h ↦ h.2.symm, fun h ↦ ⟨hs, h.symm⟩⟩
  -- A pass of another vehicle delivers the order exactly when its base route keeps a delivery.
  have hothers : ∀ last : RouteTask, last.vehicleId = solver.vehicleId →
      ((∀ task ∈ routeTasks context result, task.delivers context orderId = true →
          task.vehicleId = last.vehicleId) ↔
        ∀ other ∈ context.routes, keepsDelivery context orderId other = true →
          other.vehicleId = solver.vehicleId) := by
    intro last hlast
    rw [hlast]
    constructor
    · intro h other hother hk
      have hb : baseTask context result other = some (.base other (popped result other)) := by
        apply baseTask_eq_some orderId
        rw [keepsDelivery_keeps hk, Bool.true_or]
      refine h (.base other (popped result other))
        ((mem_routeTasks hv _).mpr (.inl ⟨other, hother, hb⟩)) ?_
      rw [delivers_base, hk, Bool.true_or]
    · intro h task ht hdt
      rcases delivering_pass hv ht hdt with ⟨other, hm, hk, he⟩ | ⟨other, hm, hvis, he⟩
      · rw [he]
        exact h other hm hk
      · rw [he, hu other hm hvis]
  have hleft : ∀ other, (leftOver context result).reverse.find? (serves orderId) = some other →
      other = solver ∧ solver.vehicleId ∉ context.routes.map (·.vehicleId) := by
    intro other hf
    obtain ⟨hm, hn⟩ := List.mem_filter.mp (List.mem_reverse.mp (List.mem_of_find?_eq_some hf))
    have he := hu other hm ((serves_iff _ _).mp (List.find?_some hf))
    subst he
    exact ⟨rfl, by simpa using hn⟩
  cases hf : (leftOver context result).reverse.find? (serves orderId) with
  | some extra =>
    obtain ⟨rfl, hfree⟩ := hleft extra hf
    have hlast : (routeTasks context result).reverse.find? (·.holds context orderId) =
        some (.extra extra) := by
      rw [find?_routeTasks hv, hf]
      rfl
    have hnone : ∀ own ∈ context.routes, own.vehicleId ≠ extra.vehicleId := by
      intro own ho he
      exact hfree (List.mem_map.mpr ⟨own, ho, he⟩)
    constructor
    · intro h
      exact ⟨(hothers (.extra extra) rfl).mp (h _ hlast).2,
        fun own ho he ↦ absurd he (hnone own ho)⟩
    · rintro ⟨h, -⟩ last hl
      rw [hlast] at hl
      cases hl
      exact ⟨by rw [delivers_extra, hd], (hothers (.extra extra) rfl).mpr h⟩
  | none =>
    -- Some base route belongs to the vehicle, since its solver route is not left over.
    have hexists : ∃ own ∈ context.routes, own.vehicleId = solver.vehicleId := by
      apply Classical.byContradiction
      intro hn
      have hm : solver ∈ (leftOver context result).reverse := by
        rw [List.mem_reverse, leftOver, List.mem_filter]
        refine ⟨hs, ?_⟩
        simp only [Bool.not_eq_true', List.contains_eq_mem, decide_eq_false_iff_not,
          List.mem_map, not_exists, not_and]
        intro own ho he
        exact hn ⟨own, ho, he⟩
      have := List.find?_eq_none.mp hf solver hm
      exact this hserves
    obtain ⟨own, hownm, howne⟩ := hexists
    have hpick : ∀ route : VehicleRoute,
        (keeps context orderId route || (popped result route).any (serves orderId)) = true ↔
          keeps context orderId route = true ∨ route.vehicleId = solver.vehicleId := by
      intro route
      rw [Bool.or_eq_true, hpopped, hown]
    cases hr : context.routes.reverse.find? fun route ↦
        keeps context orderId route || (popped result route).any (serves orderId) with
    | none =>
      have hno' := List.find?_eq_none.mp hr own (List.mem_reverse.mpr hownm)
      exact absurd ((hpick own).mpr (.inr howne)) hno'
    | some route =>
      have hmem : route ∈ context.routes :=
        List.mem_reverse.mp (List.mem_of_find?_eq_some hr)
      have hmax : ∀ other ∈ context.routes,
          (keeps context orderId other = true ∨ other.vehicleId = solver.vehicleId) →
            other.routeNo ≤ route.routeNo :=
        fun other ho hc ↦ le_of_find?_reverse hno hr ho ((hpick other).mpr hc)
      have hlast : (routeTasks context result).reverse.find? (·.holds context orderId) =
          some (.base route (popped result route)) := by
        rw [find?_routeTasks hv, hf, hr]
        rfl
      by_cases hroute : route.vehicleId = solver.vehicleId
      · have hsame : ∀ other ∈ context.routes, other.vehicleId = solver.vehicleId →
            other = route := fun other ho he ↦ eq_of_key_eq hveh ho hmem (he.trans hroute.symm)
        constructor
        · intro h
          refine ⟨(hothers (.base route _) hroute).mp (h _ hlast).2, ?_⟩
          intro own' ho he other hother hk
          rw [hsame own' ho he]
          exact hmax other hother (.inl hk)
        · rintro ⟨h, -⟩ last hl
          rw [hlast] at hl
          cases hl
          refine ⟨?_, (hothers (.base route _) hroute).mpr h⟩
          rw [delivers_base, (hown route).mpr hroute, Option.any_some, hd, Bool.or_true]
      · -- The last pass belongs to another vehicle, so the memberships go wrong.
        have hlt : own.routeNo < route.routeNo := by
          have hle := hmax own hownm (.inr howne)
          have hne : own.routeNo ≠ route.routeNo := by
            intro he
            have hnos : (context.routes.map (·.routeNo)).Nodup := by
              rw [List.nodup_iff_pairwise_ne, List.pairwise_map]
              exact hno.imp fun hab ↦ Nat.ne_of_lt hab
            exact hroute ((eq_of_key_eq hnos hownm hmem he) ▸ howne)
          omega
        constructor
        · intro h
          have ho := (h _ hlast).2
          have hb : baseTask context result own = some (.base own (popped result own)) :=
            baseTask_eq_some orderId ((hpick own).mpr (.inr howne))
          have he := ho (.base own (popped result own))
            ((mem_routeTasks hv _).mpr (.inl ⟨own, hownm, hb⟩))
            (by rw [delivers_base, (hown own).mpr howne, Option.any_some, hd, Bool.or_true])
          exact absurd (he.symm.trans howne) hroute
        · rintro ⟨-, h⟩
          have hkeeps : keeps context orderId route = true := by
            have hpicked := List.find?_some hr
            rcases (hpick route).mp hpicked with hk | he
            · exact hk
            · exact absurd he hroute
          have := h own hownm howne route hmem hkeeps
          omega

/-- When the last pass of every order delivers it, in terms of base routes and result. -/
theorem lastPassDelivers_iff {context : RecoveryContext} {result : SolverResult}
    (hveh : (context.routes.map (·.vehicleId)).Nodup)
    (hno : context.routes.Pairwise fun a b ↦ a.routeNo < b.routeNo)
    (hv : (result.routes.map (·.vehicleId)).Nodup) (orderId : UUID)
    (hd : ∀ solver ∈ result.routes, solver.Visits orderId →
      servesDelivery orderId solver = true ∧
        ∀ other ∈ result.routes, other.Visits orderId → other = solver) :
    LastPassDelivers context (routeTasks context result) orderId ↔
      LastRouteDelivers context result orderId := by
  by_cases hn : ∀ solver ∈ result.routes, ¬ solver.Visits orderId
  · rw [lastPassDelivers_untouched hv hn]
    constructor
    · intro h
      exact ⟨fun _ ↦ h, fun solver hs hvis ↦ absurd hvis (hn solver hs)⟩
    · intro h
      exact h.untouched hn
  · simp only [not_forall, not_not] at hn
    obtain ⟨solver, hs, hvis⟩ := hn
    obtain ⟨hsd, hu⟩ := hd solver hs hvis
    rw [lastPassDelivers_replanned hveh hno hv hs hsd hu]
    constructor
    · intro h
      refine ⟨fun hn ↦ absurd hvis (hn solver hs), ?_⟩
      intro other ho hvis'
      rw [hu other ho hvis']
      exact h
    · intro h
      exact h.replanned solver hs hvis

end PenroseRoute.Recovery
