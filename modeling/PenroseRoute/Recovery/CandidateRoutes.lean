import PenroseRoute.Recovery.Candidate

/-!
# What candidate routes are made of

One lemma for each function that builds a candidate: every route of a candidate is the copy of
the kept stops of a base route followed by the stops of a solver route, and every membership
follows the last route that stops for its order.
-/

namespace PenroseRoute.Recovery

open PenroseRoute.Db PenroseRoute.Lib PenroseRoute.Operations PenroseRoute.Optimization

/-! ### Stops -/

/-- A stop that copies another one: only its id, its place and its precedence are its own. -/
def CopyOf (snapshot stop : RouteStop) : Prop :=
  stop = { snapshot with
    id := stop.id
    sequenceNo := stop.sequenceNo
    precedenceStopId := stop.precedenceStopId }

/-- A copy agrees with its original in everything but id, place and precedence. -/
theorem CopyOf.field {snapshot stop : RouteStop} (h : CopyOf snapshot stop) {α : Type}
    (f : RouteStop → α)
    (hf : ∀ (stop : RouteStop) (id sequenceNo : Nat) (precedence : Option UUID),
      f { stop with id := id, sequenceNo := sequenceNo, precedenceStopId := precedence } = f stop) :
    f stop = f snapshot :=
  (congrArg f h).trans (hf snapshot _ _ _)

/-- So do lists of copies. -/
theorem map_copyOf {α : Type} (f : RouteStop → α)
    (hf : ∀ (stop : RouteStop) (id sequenceNo : Nat) (precedence : Option UUID),
      f { stop with id := id, sequenceNo := sequenceNo, precedenceStopId := precedence } = f stop)
    {snapshots copies : List RouteStop} (h : List.Forall₂ CopyOf snapshots copies) :
    copies.map f = snapshots.map f :=
  (map_eq_map_of_forall₂ (fun _ _ hcopy ↦ (hcopy.field f hf).symm) h).symm

/-- A new stop for a stop of the solver. -/
def SolvedAs (context : RecoveryContext) (solverStop : SolverStop) (stop : RouteStop) : Prop :=
  ∃ order, context.targetOrder? solverStop.orderId = some order ∧
    stop = newStop context order solverStop stop.id stop.sequenceNo stop.precedenceStopId

/-- Kept stops are copied one by one. -/
theorem copyPreserved_copyOf (nextId sequence : Nat) (copiedIds : List (UUID × UUID))
    (preserved : List RouteStop) :
    List.Forall₂ CopyOf preserved (copyPreserved nextId sequence copiedIds preserved) := by
  induction preserved generalizing nextId sequence copiedIds with
  | nil => exact .nil
  | cons stop rest ih => exact .cons rfl (ih _ _ _)

/-- Every preserved stop is copied. -/
@[simp] theorem length_copyPreserved (nextId sequence : Nat) (copiedIds : List (UUID × UUID))
    (preserved : List RouteStop) :
    (copyPreserved nextId sequence copiedIds preserved).length = preserved.length :=
  (copyPreserved_copyOf nextId sequence copiedIds preserved).length_eq.symm

/-- Copies take the next ids. -/
theorem copyPreserved_ids (nextId sequence : Nat) (copiedIds : List (UUID × UUID))
    (preserved : List RouteStop) :
    (copyPreserved nextId sequence copiedIds preserved).map (·.id) =
      List.range' nextId preserved.length := by
  induction preserved generalizing nextId sequence copiedIds with
  | nil => rfl
  | cons stop rest ih => simp [copyPreserved, ih, List.range'_succ]

/-- Copies are numbered from the place they start at. -/
theorem copyPreserved_sequence (nextId sequence : Nat) (copiedIds : List (UUID × UUID))
    (preserved : List RouteStop) :
    (copyPreserved nextId sequence copiedIds preserved).map (·.sequenceNo) =
      List.range' (sequence + 1) preserved.length := by
  induction preserved generalizing nextId sequence copiedIds with
  | nil => rfl
  | cons stop rest ih => simp [copyPreserved, ih, List.range'_succ]

/-- One solver stop: its order is a target, and a delivery has an origin before it. -/
theorem appendSolved_cons {context : RecoveryContext} {nextId sequence : Nat}
    {originIds : List (UUID × UUID)} {solverStop : SolverStop} {rest : List SolverStop}
    {stops : List RouteStop}
    (h : appendSolved context nextId sequence originIds (solverStop :: rest) = .ok stops) :
    ∃ order precedence tail, context.targetOrder? solverStop.orderId = some order ∧
      stops = newStop context order solverStop nextId (sequence + 1) precedence :: tail ∧
      ((solverStop.stopType = .delivery ∧ precedence = lastWrite originIds solverStop.orderId ∧
          precedence.isSome ∧
          appendSolved context (nextId + 1) (sequence + 1) originIds rest = .ok tail) ∨
        (solverStop.stopType ≠ .delivery ∧ precedence = none ∧
          appendSolved context (nextId + 1) (sequence + 1)
            (originIds ++ [(solverStop.orderId, nextId)]) rest = .ok tail)) := by
  obtain ⟨order, ho, h⟩ := bind_eq_ok.mp h
  rw [orRaise_eq_ok] at ho
  split at h
  · next hd =>
    obtain ⟨origin, hor, h⟩ := bind_eq_ok.mp h
    rw [orRaise_eq_ok] at hor
    obtain ⟨tail, ht, h⟩ := bind_eq_ok.mp h
    cases h
    exact ⟨order, some origin, tail, ho, rfl, .inl ⟨hd, hor.symm, rfl, ht⟩⟩
  · next hd =>
    obtain ⟨tail, ht, h⟩ := bind_eq_ok.mp h
    cases h
    exact ⟨order, none, tail, ho, rfl, .inr ⟨hd, rfl, ht⟩⟩

/-- Every solver stop becomes one new stop. -/
theorem appendSolved_solvedAs {context : RecoveryContext} {nextId sequence : Nat}
    {originIds : List (UUID × UUID)} {solverStops : List SolverStop} {stops : List RouteStop}
    (h : appendSolved context nextId sequence originIds solverStops = .ok stops) :
    List.Forall₂ (SolvedAs context) solverStops stops ∧
      stops.map (·.id) = List.range' nextId solverStops.length ∧
      stops.map (·.sequenceNo) = List.range' (sequence + 1) solverStops.length := by
  induction solverStops generalizing nextId sequence originIds stops with
  | nil =>
    cases h
    exact ⟨.nil, rfl, rfl⟩
  | cons solverStop rest ih =>
    obtain ⟨order, precedence, tail, ho, rfl, hcase⟩ := appendSolved_cons h
    have htail : ∃ originIds',
        appendSolved context (nextId + 1) (sequence + 1) originIds' rest = .ok tail := by
      rcases hcase with ⟨-, -, -, ht⟩ | ⟨-, -, ht⟩
      · exact ⟨_, ht⟩
      · exact ⟨_, ht⟩
    obtain ⟨originIds', ht⟩ := htail
    obtain ⟨hs, hid, hseq⟩ := ih ht
    refine ⟨.cons ⟨order, ho, rfl⟩ hs, ?_, ?_⟩
    · simp [hid, newStop, List.range'_succ]
    · simp [hseq, newStop, List.range'_succ]

/-- The stops of a route: copies of the kept stops, then the solved ones. -/
structure StopsFrom (context : RecoveryContext) (preserved : List RouteStop)
    (solverStops : List SolverStop) (stops : List RouteStop) : Prop where
  parts : ∃ copies solved, stops = copies ++ solved ∧ List.Forall₂ CopyOf preserved copies ∧
    List.Forall₂ (SolvedAs context) solverStops solved
  sequence : stops.map (·.sequenceNo) = List.range' 1 stops.length

/-- `_persist_stops` builds exactly these stops. -/
theorem persistStops_ok {context : RecoveryContext} {nextId : Nat} {preserved : List RouteStop}
    {solverStops : List SolverStop} {stops : List RouteStop}
    (h : persistStops context nextId preserved solverStops = .ok stops) :
    StopsFrom context preserved solverStops stops ∧
      stops.map (·.id) = List.range' nextId stops.length := by
  obtain ⟨solved, hs, h⟩ := bind_eq_ok.mp h
  cases h
  obtain ⟨hall, hid, hseq⟩ := appendSolved_solvedAs hs
  have hcopies := copyPreserved_copyOf nextId 0 [] preserved
  refine ⟨⟨⟨_, _, rfl, hcopies, hall⟩, ?_⟩, ?_⟩
  · rw [List.map_append, copyPreserved_sequence, hseq, List.length_append,
      length_copyPreserved, ← hall.length_eq, ← List.range'_append_1, Nat.add_comm 1]
  · rw [List.map_append, copyPreserved_ids, hid, List.length_append, length_copyPreserved,
      ← hall.length_eq, ← List.range'_append_1]

/-! ### Routes -/

namespace RouteTask

/-- The vehicle of the pass. -/
def vehicleId : RouteTask → UUID
  | .base route _ => route.vehicleId
  | .extra solver => solver.vehicleId

/-- The stops that the pass keeps. -/
def kept (context : RecoveryContext) : RouteTask → List RouteStop
  | .base route _ => preservedStops context route
  | .extra _ => []

/-- The solver stops that the pass adds. -/
def solved : RouteTask → List SolverStop
  | .base _ solver => solver.elim [] (·.stops)
  | .extra solver => solver.stops

/-- The capacity that the pass records. -/
def capacity (context : RecoveryContext) : RouteTask → Nat
  | .base route _ =>
    ((context.vehicleFact? route.vehicleId).map (·.capacityLoadUnits)).getD
      route.capacityLoadUnits
  | .extra solver => ((context.vehicleFact? solver.vehicleId).map (·.capacityLoadUnits)).getD 0

end RouteTask

/-- A vehicle fact is found under its own id. -/
theorem vehicleFact?_vehicleId {context : RecoveryContext} {vehicleId : UUID}
    {fact : RecoveryVehicleFact} (h : context.vehicleFact? vehicleId = some fact) :
    fact ∈ context.vehicles ∧ fact.vehicleId = vehicleId := by
  have hm := mem_of_lastWrite h
  simp only [List.mem_map, Prod.mk.injEq] at hm
  obtain ⟨fact', hf, he, rfl⟩ := hm
  exact ⟨hf, he⟩

/-- The row that a pass makes, whatever the road, the end and the stops. -/
def RowFrom (context : RecoveryContext) (route : VehicleRoute) : RouteTask → Prop
  | .base base solver => ∃ road endLocationId,
    route = { rebuiltRoute context road base solver route.id route.routeNo endLocationId with
      stops := route.stops }
  | .extra solver => ∃ road pair last, context.vehicleFact? solver.vehicleId = some pair ∧
    solver.stops.getLast? = some last ∧
    route = { extraRoute context road solver pair last route.id route.routeNo with
      stops := route.stops }

/-- What one pass makes. -/
structure BuiltFrom (context : RecoveryContext) (task : RouteTask) (route : VehicleRoute) :
    Prop where
  row : RowFrom context route task
  vehicleId : route.vehicleId = task.vehicleId
  capacity : route.capacityLoadUnits = task.capacity context
  preservedCount : route.routeMetrics.map (·.preservedStopCount) = some (task.kept context).length
  stops : StopsFrom context (task.kept context) task.solved route.stops
  stopIds : route.stops.map (·.id) = List.range' (route.id + 1) route.stops.length

/-- One pass of the loops of `_persist_candidate_routes`. -/
theorem persistRoute_ok {context : RecoveryContext} {roads : RoadRoutes} {id routeNo : Nat}
    {task : RouteTask} {route : VehicleRoute}
    (h : persistRoute context roads id routeNo task = .ok route) :
    BuiltFrom context task route ∧ route.id = id ∧ route.routeNo = routeNo := by
  cases task with
  | base base solver =>
    obtain ⟨endLocationId, -, h⟩ := bind_eq_ok.mp h
    obtain ⟨stops, hs, h⟩ := bind_eq_ok.mp h
    cases h
    obtain ⟨hfrom, hids⟩ := persistStops_ok hs
    exact ⟨⟨⟨_, _, rfl⟩, rfl, rfl, rfl, hfrom, hids⟩, rfl, rfl⟩
  | extra solver =>
    obtain ⟨pair, hp, h⟩ := bind_eq_ok.mp h
    obtain ⟨last, hl, h⟩ := bind_eq_ok.mp h
    obtain ⟨stops, hs, h⟩ := bind_eq_ok.mp h
    cases h
    rw [orRaise_eq_ok] at hp hl
    obtain ⟨hfrom, hids⟩ := persistStops_ok hs
    exact ⟨⟨⟨_, pair, last, hp, hl, rfl⟩, (vehicleFact?_vehicleId hp).2,
      by simp [RouteTask.capacity, hp, extraRoute], rfl,
      hfrom, hids⟩, rfl, rfl⟩

/-- The passes one after the other: the routes of the tasks, numbered in order, each followed
by the rows of its stops. -/
theorem persistRoutes_ok {context : RecoveryContext} {roads : RoadRoutes} {nextId routeNo : Nat}
    {tasks : List RouteTask} {routes : List VehicleRoute}
    (h : persistRoutes context roads nextId routeNo tasks = .ok routes) :
    List.Forall₂ (BuiltFrom context) tasks routes ∧
      routes.map (·.routeNo) = List.range' (routeNo + 1) routes.length ∧
      (routes.flatMap fun route ↦ route.id :: route.stops.map (·.id)) =
        List.range' nextId (rowCount routes) := by
  induction tasks generalizing nextId routeNo routes with
  | nil =>
    cases h
    exact ⟨.nil, rfl, rfl⟩
  | cons task rest ih =>
    obtain ⟨route, hr, h⟩ := bind_eq_ok.mp h
    obtain ⟨tail, ht, h⟩ := bind_eq_ok.mp h
    cases h
    obtain ⟨hb, hid, hno⟩ := persistRoute_ok hr
    obtain ⟨hall, hnos, hids⟩ := ih ht
    refine ⟨.cons hb hall, ?_, ?_⟩
    · simp [hno, hnos, List.range'_succ]
    · have hrows : rowCount (route :: tail) = route.stops.length + 1 + rowCount tail := by
        rw [rowCount, List.map_cons, List.sum_cons, Nat.add_comm 1]
        rfl
      have hnext : nextId + 1 + route.stops.length = nextId + (route.stops.length + 1) := by omega
      rw [List.flatMap_cons, hids, hb.stopIds, hid, ← List.range'_succ, hrows, hnext,
        List.range'_append_1]

/-! ### The plan -/

/-- Everything `_create_candidate` makes: the routes of the passes, one membership for each
membership of the base plan, and the plan row over them. -/
structure Created (db : Database) (context : RecoveryContext) (result : SolverResult)
    (plan : DeliveryPlan) : Prop where
  row : plan = candidatePlan db context plan.routes plan.planOrders
  routes : List.Forall₂ (BuiltFrom context) (routeTasks context result) plan.routes
  routeNos : plan.routes.map (·.routeNo) = List.range' 1 plan.routes.length
  ids : (plan.routes.flatMap fun route ↦ route.id :: route.stops.map (·.id)) =
    List.range' (db.nextId + 1) (rowCount plan.routes)
  planOrders : List.Forall₂
    (fun snapshot membership ↦ candidateMembership plan.routes result snapshot = .ok membership)
    context.planOrders plan.planOrders
  constraints : plan.constraintsHold db = true
  persisted : ∃ roads, persistCandidateRoutes context result roads (db.nextId + 1) = .ok plan.routes

/-- A created candidate is appended to the plans, and its rows take the next ids. -/
theorem createCandidate_ok {db db' : Database} {context : RecoveryContext}
    {result : SolverResult} {roads : RoadRoutes} {plan : DeliveryPlan}
    (h : createCandidate db context result roads = .ok (db', plan)) :
    Created db context result plan ∧
      db' = { db with
        plans := db.plans ++ [plan]
        nextId := db.nextId + 1 + rowCount plan.routes } := by
  obtain ⟨routes, hr, h⟩ := bind_eq_ok.mp h
  obtain ⟨planOrders, hm, h⟩ := bind_eq_ok.mp h
  obtain ⟨hc, h⟩ := unit_bind_eq_ok.mp h
  cases h
  obtain ⟨hall, hnos, hids⟩ := persistRoutes_ok hr
  rw [raiseFirst_cons_eq_ok, Bool.not_eq_false'] at hc
  exact ⟨⟨rfl, hall, hnos, hids, mapM_eq_ok_iff.mp hm, hc.1, roads, hr⟩, rfl⟩

end PenroseRoute.Recovery
