import PenroseRoute.Optimization.SolverSound

/-!
# The verdict of `validate`

An accepted solution serves every order, its tasks in their order on one route. The only exception
that escapes is an overflow, which needs a double in the solution; without doubles Python's
arithmetic is exact.
-/

namespace PenroseRoute.Optimization.Solver

open Lib Lib.Python

variable {data : Payload} {field : IntegerField} {solutionPayload : Option Json}

/-! ### Every order is served -/

private theorem eq_singleton_of_all {α : Type} {a : α} {xs : List α} (hnodup : xs.Nodup)
    (hall : ∀ x ∈ xs, x = a) (hmem : a ∈ xs) : xs = [a] := by
  cases xs with
  | nil => cases hmem
  | cons x rest =>
    have hx := hall x List.mem_cons_self
    cases rest with
    | nil => rw [hx]
    | cons y rest =>
      have hy := hall y (List.mem_cons_of_mem _ List.mem_cons_self)
      rw [List.nodup_cons, hx, ← hy] at hnodup
      exact absurd List.mem_cons_self hnodup.1

private theorem eq_pair_of_before {α : Type} {a b : α} {before after : List α}
    (hnodup : (before ++ b :: after).Nodup) (hall : ∀ x ∈ before ++ b :: after, x = a ∨ x = b)
    (ha : a ∈ before) : before ++ b :: after = [a, b] := by
  obtain ⟨hbefore, hrest, hdisjoint⟩ := List.nodup_append.mp hnodup
  have hb : b ∈ b :: after := List.mem_cons_self
  have hb' : before = [a] := by
    refine eq_singleton_of_all hbefore (fun x hx ↦ ?_) ha
    rcases hall x (List.mem_append_left _ hx) with h | h
    · exact h
    · exact absurd h (hdisjoint x hx b hb)
  have hafter : after = [] := by
    cases after with
    | nil => rfl
    | cons y rest =>
      have hy : y ∈ b :: y :: rest := List.mem_cons_of_mem _ List.mem_cons_self
      rcases hall y (List.mem_append_right _ hy) with h | h
      · exact absurd h.symm (hdisjoint a ha y hy)
      · rw [List.nodup_cons, h] at hrest
        exact absurd List.mem_cons_self hrest.1
  rw [hb', hafter]
  rfl

/-- Every stop of a drive is one of its legs. -/
theorem Drives.leg_of_mem {arithmetic : Arithmetic} {v : Vehicle} {p last : Position}
    {stops : List Stop} {meters : Int} (h : Drives arithmetic data v p stops meters last)
    {stop : Stop} (hstop : stop ∈ stops) : ∃ p m q, Leg arithmetic data v p stop m q := by
  induction h with
  | done => cases hstop
  | leg hleg _ ih =>
    cases hstop with
    | head => exact ⟨_, _, _, hleg⟩
    | tail _ hstop => exact ih hstop

/-- A stop of an order is one of its tasks, on a vehicle that may serve it. -/
theorem FeasibleRoute.task_of_mem {arithmetic : Arithmetic} {v : Vehicle} {route : Route}
    {meters : Int} (hids : (data.orders.map (·.id)).Nodup)
    (h : FeasibleRoute arithmetic data v route meters) {o : Order} (ho : o ∈ data.orders)
    {stop : Stop} (hstop : stop ∈ route.stops) (hid : stop.orderId = o.id) :
    route.vehicleId ∈ o.allowedVehicleIds ∧ stop.kind ∈ o.tasks.map (·.kind) := by
  obtain ⟨last, hdrives, -⟩ := h.drives
  obtain ⟨p, m, q, hleg⟩ := hdrives.leg_of_mem hstop
  obtain ⟨o', ho', hid', hallowed, task, htask, hkind, -⟩ := hleg.task
  have hsame : o' = o := List.inj_on_of_nodup_map hids ho' ho (hid'.trans hid)
  subst hsame
  exact ⟨h.vehicle.2 ▸ hallowed, List.mem_map.mpr ⟨task, htask, hkind⟩⟩

/-- A visit is one of the stops. -/
theorem mem_visits {vehicleId : String} {stops : List Stop} {entry : (String × Key) × Key} :
    entry ∈ visits vehicleId stops ↔
      ∃ stop ∈ stops, entry = ((stop.orderId, .text stop.kind), .text vehicleId) := by
  rw [visits, List.mem_map]
  constructor
  · rintro ⟨stop, hstop, rfl⟩
    exact ⟨stop, hstop, rfl⟩
  · rintro ⟨stop, hstop, rfl⟩
    exact ⟨stop, hstop, rfl⟩

/-- The tasks that the accepted routes perform. -/
def seenOf (routes : List Route) : Seen :=
  routes.flatMap fun route ↦ visits route.vehicleId route.stops

/-- The visits of every route are seen. -/
theorem mem_seenOf {routes : List Route} {route : Route} (hroute : route ∈ routes) {stop : Stop}
    (hstop : stop ∈ route.stops) :
    ((stop.orderId, .text stop.kind), .text route.vehicleId) ∈ seenOf routes :=
  List.mem_flatMap.mpr ⟨route, hroute, mem_visits.mpr ⟨stop, hstop, rfl⟩⟩

/-- The kinds of an order's stops on a route do not repeat. -/
theorem kinds_nodup {routes : List Route} (hnodup : ((seenOf routes).map (·.1)).Nodup)
    {route : Route} (hroute : route ∈ routes) (orderId : String) :
    ((route.stops.filter (·.orderId == orderId)).map (·.kind)).Nodup := by
  have hvisits : ((visits route.vehicleId route.stops).map (·.1)).Nodup := by
    refine List.Nodup.sublist (List.Sublist.map _ ?_) hnodup
    rw [seenOf, List.flatMap_def]
    exact List.sublist_flatten_of_mem (List.mem_map.mpr ⟨route, hroute, rfl⟩)
  rw [visits, List.map_map] at hvisits
  refine List.pairwise_map.mpr (((List.pairwise_map.mp hvisits).filter _).imp_of_mem ?_)
  intro a b ha hb hne hkind
  rw [List.mem_filter, beq_iff_eq] at ha hb
  refine hne ?_
  rw [Function.comp_apply, Function.comp_apply, ha.2, hb.2, hkind]

/-- An order whose stops keep the loop's rules is served. -/
theorem served_of_seen (hids : (data.orders.map (·.id)).Nodup)
    {routes : List Route} {meters : List Int}
    (hfeasible : List.Forall₂ (fun route m ↦ ∃ v, FeasibleRoute pythonArithmetic data v route m)
      routes meters)
    (hnodup : ((seenOf routes).map (·.1)).Nodup)
    (horigin : ∀ route ∈ routes, ∀ before stop after, route.stops = before ++ stop :: after →
      OriginBefore data route.vehicleId (visits route.vehicleId before) stop)
    {o : Order} (ho : o ∈ data.orders) (hkind : o.pickupKindOrDefault ≠ "DELIVERY")
    (hserved : requireServed (seenOf routes) o = .ok ()) : Served routes o := by
  have htask : ∀ route ∈ routes, ∀ stop ∈ route.stops, stop.orderId = o.id →
      route.vehicleId ∈ o.allowedVehicleIds ∧ stop.kind ∈ o.tasks.map (·.kind) := by
    intro route hroute stop hstop hid
    obtain ⟨m, -, v, hv⟩ := exists_of_forall₂_left hfeasible hroute
    exact hv.task_of_mem hids ho hstop hid
  -- the delivery
  obtain ⟨hdelivered, -⟩ := unit_bind_eq_ok.mp hserved
  obtain ⟨entry, hentry, hmatch⟩ := List.any_eq_true.mp (require_eq_ok.mp hdelivered)
  rw [Bool.and_eq_true, beq_iff_eq, Key.text_equals] at hmatch
  obtain ⟨route, hroute, hvisit⟩ := List.mem_flatMap.mp hentry
  obtain ⟨stop, hstop, rfl⟩ := mem_visits.mp hvisit
  obtain ⟨hid, hdelivery⟩ := hmatch
  dsimp only at hid
  rw [Key.text.injEq] at hdelivery
  obtain ⟨before, after, hsplit⟩ := List.append_of_mem hstop
  have hkinds : (route.stops.filter (·.orderId == o.id)).map (·.kind) =
      (before.filter (·.orderId == o.id)).map (·.kind) ++
        "DELIVERY" :: (after.filter (·.orderId == o.id)).map (·.kind) := by
    rw [hsplit, List.filter_append, List.filter_cons, if_pos (beq_iff_eq.mpr hid), List.map_append,
      List.map_cons, hdelivery]
  have hall : ∀ kind ∈ (route.stops.filter (·.orderId == o.id)).map (·.kind),
      kind ∈ o.tasks.map (·.kind) := by
    intro kind hk
    obtain ⟨other, hother, rfl⟩ := List.mem_map.mp hk
    rw [List.mem_filter, beq_iff_eq] at hother
    exact (htask route hroute other hother.1 hother.2).2
  have hsame : (route.stops.filter (·.orderId == o.id)).map (·.kind) = o.tasks.map (·.kind) := by
    have hno := kinds_nodup hnodup hroute o.id
    cases hpickup : o.pickup with
    | none =>
      have htasks : o.tasks.map (·.kind) = ["DELIVERY"] := by
        rw [Order.tasks, Order.originTask, hpickup]
        rfl
      rw [htasks] at hall ⊢
      refine eq_singleton_of_all hno (fun x hx ↦ List.mem_singleton.mp (hall x hx)) ?_
      rw [hkinds]
      exact List.mem_append_right _ List.mem_cons_self
    | some pickup =>
      have htasks : o.tasks.map (·.kind) = [o.pickupKindOrDefault, "DELIVERY"] := by
        rw [Order.tasks, Order.originTask, hpickup]
        rfl
      rw [htasks] at hall ⊢
      have hcollected := horigin route hroute before stop after hsplit o ho hid.symm
        (hdelivery ▸ hkind.symm) (by rw [hpickup]; rfl)
      obtain ⟨origin, hin, heq⟩ := mem_visits.mp hcollected
      rw [Prod.mk.injEq, Prod.mk.injEq, Key.text.injEq] at heq
      rw [hkinds] at hno hall ⊢
      refine eq_pair_of_before hno (fun x hx ↦ ?_) ?_
      · have := hall x hx
        rwa [List.mem_cons, List.mem_singleton] at this
      · rw [heq.1.2]
        exact List.mem_map.mpr ⟨origin, List.mem_filter.mpr ⟨hin, beq_iff_eq.mpr heq.1.1.symm⟩, rfl⟩
  refine ⟨route, hroute, (htask route hroute stop hstop hid).1, hsame, ?_⟩
  intro other hother hne stop' hstop' hid'
  have hk := (htask other hother stop' hstop' hid').2
  rw [← hsame] at hk
  obtain ⟨twin, htwin, hkindEq⟩ := List.mem_map.mp hk
  rw [List.mem_filter, beq_iff_eq] at htwin
  have h₁ := mem_seenOf hroute htwin.1
  have h₂ := mem_seenOf hother hstop'
  rw [htwin.2, hkindEq] at h₁
  rw [hid'] at h₂
  have heq := List.inj_on_of_nodup_map hnodup h₁ h₂ rfl
  rw [Prod.mk.injEq, Key.text.injEq] at heq
  exact hne heq.2.symm

/-! ### Whole times -/

/-- A stop without doubles. -/
structure Stop.Whole (stop : Stop) : Prop where
  arrival : ¬ stop.arrival.IsFloat
  departure : ¬ stop.departure.IsFloat

/-- A route without doubles. -/
structure Route.Whole (route : Route) : Prop where
  start : ¬ route.start.IsFloat
  «end» : ¬ route.end.IsFloat
  duration : ¬ route.durationSeconds.IsFloat
  stops : ∀ stop ∈ route.stops, stop.Whole

/-- A stop that is read from integers is whole. -/
theorem ReadsStop.whole {json : Json} {stop : Stop} (h : ReadsStop json stop)
    (hfree : json.FloatFree) : stop.Whole := by
  obtain ⟨arrival, harrival, hnumber⟩ := h.arrival
  obtain ⟨departure, hdeparture, hnumber'⟩ := h.departure
  exact ⟨(hfree.getItem harrival).number hnumber, (hfree.getItem hdeparture).number hnumber'⟩

/-- A route that is read from integers is whole. -/
theorem ReadsRoute.whole {json : Json} {route : Route} (h : ReadsRoute json route)
    (hfree : json.FloatFree) : route.Whole := by
  obtain ⟨start, hstart, hnumber⟩ := h.start
  obtain ⟨finish, hfinish, hnumber'⟩ := h.end
  obtain ⟨duration, hduration, hnumber''⟩ := h.durationSeconds
  obtain ⟨value, items, hvalue, hitems, hstops⟩ := h.stops
  refine ⟨(hfree.getItem hstart).number hnumber, (hfree.getItem hfinish).number hnumber',
    (hfree.getItem hduration).number hnumber'', fun stop hstop ↦ ?_⟩
  obtain ⟨item, hitem, hreads⟩ := exists_of_forall₂_right hstops hstop
  exact hreads.whole ((hfree.getItem hvalue).iter hitems item hitem)

/-- A number that is no float is an integer. -/
theorem exists_int {n : Number} (h : ¬ n.IsFloat) : ∃ k, n = .int k := by
  cases n with
  | int k => exact ⟨k, rfl⟩
  | float x => exact absurd ⟨x, rfl⟩ h

/-- Sums without floats are exact. -/
theorem plus_exact {a b : Number} (ha : ¬ a.IsFloat) (hb : ¬ b.IsFloat) :
    exactArithmetic.plus a b = pythonArithmetic.plus a b := by
  obtain ⟨m, rfl⟩ := exists_int ha
  obtain ⟨n, rfl⟩ := exists_int hb
  exact congrArg (some ∘ Quantity.rational) (Rat.intCast_add m n).symm

/-- Differences without floats are exact. -/
theorem minus_exact {a b : Number} (ha : ¬ a.IsFloat) (hb : ¬ b.IsFloat) :
    exactArithmetic.minus a b = pythonArithmetic.minus a b := by
  obtain ⟨m, rfl⟩ := exists_int ha
  obtain ⟨n, rfl⟩ := exists_int hb
  exact congrArg (some ∘ Quantity.rational) (Rat.intCast_sub m n).symm

private theorem foldlM_add_ints (ns : List Int) (start : Int) :
    (ns.map Number.int).foldlM Number.add (.int start) = .ok (.int (start + ns.sum)) := by
  induction ns generalizing start with
  | nil => rw [List.sum_nil, Int.add_zero]; rfl
  | cons n ns ih =>
    rw [List.map_cons, List.foldlM_cons, Number.int_add_int, List.sum_cons, ← Int.add_assoc]
    exact ih (start + n)

private theorem mapM_rational_ints (ns : List Int) :
    (ns.map Number.int).mapM rational? = some (ns.map Rat.ofInt) := by
  induction ns with
  | nil => rfl
  | cons n ns ih =>
    rw [List.map_cons, List.mapM_cons, ih]
    rfl

private theorem sum_map_ofInt (ns : List Int) : (ns.map Rat.ofInt).sum = (ns.sum : Rat) := by
  induction ns with
  | nil => rfl
  | cons n ns ih =>
    rw [List.map_cons, List.sum_cons, List.sum_cons, ih, Rat.intCast_add]
    rfl

/-- Totals without floats are exact. -/
theorem total_exact {ds : List Number} (h : ∀ d ∈ ds, ¬ d.IsFloat) :
    exactArithmetic.total ds = pythonArithmetic.total ds := by
  obtain ⟨ns, rfl⟩ : ∃ ns : List Int, ds = ns.map Number.int := by
    induction ds with
    | nil => exact ⟨[], rfl⟩
    | cons d rest ih =>
      obtain ⟨n, rfl⟩ := exists_int (h d List.mem_cons_self)
      obtain ⟨ns, rfl⟩ := ih fun d hd ↦ h d (List.mem_cons_of_mem _ hd)
      exact ⟨n :: ns, rfl⟩
  simp only [exactArithmetic, pythonArithmetic, mapM_rational_ints, foldlM_add_ints,
    Except.toOption, Option.bind_some, Number.value_int, Int.zero_add]
  exact congrArg (some ∘ Quantity.rational) (sum_map_ofInt ns)

variable {v : Vehicle}

/-- A leg without floats is exact. -/
theorem Leg.exact {p q : Position} {stop : Stop} {meters : Int}
    (h : Leg pythonArithmetic data v p stop meters q) (hp : ¬ p.time.IsFloat)
    (hstop : stop.Whole) : Leg exactArithmetic data v p stop meters q := by
  have hint : ∀ n : Int, ¬ (Number.int n).IsFloat := by
    rintro n ⟨x, hx⟩
    cases hx
  refine ⟨?_, ?_, h.distance, h.time, h.location, h.load⟩
  · simp only [plus_exact hstop.arrival (hint _)]
    exact h.task
  · simp only [plus_exact hp (hint _)]
    exact h.travel

/-- A drive without floats is exact. -/
theorem Drives.exact {p last : Position} {stops : List Stop} {meters : Int}
    (h : Drives pythonArithmetic data v p stops meters last) (hp : ¬ p.time.IsFloat)
    (hstops : ∀ stop ∈ stops, stop.Whole) :
    Drives exactArithmetic data v p stops meters last := by
  induction h with
  | done p => exact .done p
  | leg hleg _ ih =>
    have hstop := hstops _ List.mem_cons_self
    refine .leg (hleg.exact hp hstop) (ih ?_ fun stop hs ↦ hstops stop (List.mem_cons_of_mem _ hs))
    rw [hleg.time]
    exact hstop.departure

/-- A route without floats is feasible exactly. -/
theorem FeasibleRoute.exact {route : Route} {meters : Int}
    (h : FeasibleRoute pythonArithmetic data v route meters) (hwhole : route.Whole) :
    FeasibleRoute exactArithmetic data v route meters := by
  obtain ⟨last, hdrives, hlast⟩ := h.drives
  refine ⟨h.vehicle, h.starts, h.loadAtStart,
    ⟨last, hdrives.exact hwhole.start hwhole.stops, hlast⟩,
    h.ends, h.distance, ?_⟩
  rw [minus_exact hwhole.end hwhole.start]
  exact h.duration

/-- Without doubles Python's sums are exact. -/
theorem Feasible.exact {routes : List Route} {summary : VerifiedSummary}
    (h : Feasible pythonArithmetic data routes summary) (hwhole : ∀ route ∈ routes, route.Whole) :
    Feasible exactArithmetic data routes summary := by
  obtain ⟨meters, hroutes, hsum⟩ := h.drivable
  refine ⟨h.vehicles, h.served, ⟨meters, ?_, hsum⟩, ?_, h.assigned, h.changed⟩
  · refine (forall₂_and_mem hroutes).imp ?_
    rintro route m ⟨hroute, -, v, hv⟩
    exact ⟨v, hv.exact (hwhole route hroute)⟩
  · rw [total_exact]
    · exact h.duration
    · intro d hd
      obtain ⟨route, hroute, rfl⟩ := List.mem_map.mp hd
      exact (hwhole route hroute).duration

/-! ### The exception that escapes -/

/-- An integer that no double holds, in a solution with a double. -/
def Escapes (hasFloat : Prop) (n : Int) : Prop := (Float.ofInt n).isFinite = false ∧ hasFloat

section Overflow

variable {hasFloat : Prop} {vid : Key}

private theorem overflowsOnly_require (condition : Bool) :
    OverflowsOnly (Escapes hasFloat) (require condition) := by
  intro n h
  cases condition <;> cases h

private theorem overflowsOnly_requireEqual (value : Json) (n : Number) :
    OverflowsOnly (Escapes hasFloat) (requireEqual value n) := by
  intro m h
  unfold requireEqual at h
  split at h
  · split at h <;> cases h
  · cases h

private theorem overflowsOnly_order (key : Key) :
    OverflowsOnly (Escapes hasFloat) (data.order key) := by
  intro n h
  unfold Payload.order at h
  split at h <;> cases h

private theorem overflowsOnly_vehicle (key : Key) :
    OverflowsOnly (Escapes hasFloat) (data.vehicle key) := by
  intro n h
  unfold Payload.vehicle at h
  split at h <;> cases h

private theorem overflowsOnly_cell (matrix : List (List Int)) (a b : Json) :
    OverflowsOnly (Escapes hasFloat) (cell matrix a b) := by
  refine .bind (.index a) fun i _ ↦ .bind (.listItem _ _) fun row _ ↦ ?_
  exact .bind (.index b) fun j _ ↦ .listItem _ _

private theorem overflowsOnly_stopTask (o : Order) (kind : Key) (seen : Seen) (stop : Json) :
    OverflowsOnly (Escapes hasFloat) (stopTask o vid kind seen stop) := by
  unfold stopTask
  split
  · split
    · exact fun n h ↦ (by cases h)
    · refine .bind (.getItem _ _) fun value _ ↦ .bind (overflowsOnly_require _) fun _ _ ↦ .of_ok _
  · split
    · refine .bind (.getItem _ _) fun value _ ↦ .bind (overflowsOnly_require _) fun _ _ ↦ ?_
      exact .bind (overflowsOnly_require _) fun _ _ ↦ .of_ok _
    · exact fun n h ↦ (by cases h)

private theorem hasFloat_of_number {json value : Json} {key : String} {n : Number}
    (hjson : ¬ json.FloatFree → hasFloat) (hvalue : json.getItem key = .ok value)
    (hn : value.number = .ok n) (hfloat : n.IsFloat) : hasFloat := by
  refine hjson fun hfree ↦ ?_
  exact (hfree.getItem hvalue).number hn hfloat

/-- Step: a stop overflows only in a solution with a double. -/
theorem checkStop_overflows {c : Cursor} {json : Json} (hc : c.previousTime.IsFloat → hasFloat)
    (hjson : ¬ json.FloatFree → hasFloat) :
    OverflowsOnly (Escapes hasFloat) (checkStop data vid v c json) ∧
      ∀ c', checkStop data vid v c json = .ok c' → c'.previousTime.IsFloat → hasFloat := by
  have hint : ∀ n : Int, ¬ (Number.int n).IsFloat := by
    rintro n ⟨x, hx⟩
    cases hx
  constructor
  · unfold checkStop
    refine .bind (.getItem _ _) fun orderId _ ↦ .bind (.hash _) fun key _ ↦ ?_
    refine .bind (overflowsOnly_order _) fun o _ ↦ .bind (overflowsOnly_require _) fun _ _ ↦ ?_
    refine .bind (.getItem _ _) fun kindValue _ ↦ .bind (.hash _) fun kind _ ↦ ?_
    refine .bind (overflowsOnly_require _) fun _ _ ↦ ?_
    refine .bind (overflowsOnly_stopTask _ _ _ _) fun task _ ↦ ?_
    refine .bind (overflowsOnly_require _) fun _ _ ↦ .bind (.getItem _ _) fun location _ ↦ ?_
    refine .bind (overflowsOnly_cell _ _ _) fun seconds _ ↦ ?_
    refine .bind (.combine fun n hn hmixed ↦ ⟨hn, hc (hmixed.resolve_right (hint _))⟩) fun _ _ ↦ ?_
    refine .bind (.getItem _ _) fun arrivalValue hvalue ↦
      .bind (.number _) fun arrival harrival ↦ ?_
    refine .bind (overflowsOnly_require _) fun _ _ ↦ .bind (.getItem _ _) fun _ _ ↦ ?_
    refine .bind (.combine fun n hn hmixed ↦ ⟨hn, ?_⟩) fun _ _ ↦ ?_
    · exact hasFloat_of_number hjson hvalue harrival (hmixed.resolve_right (hint _))
    · refine .bind (overflowsOnly_requireEqual _ _) fun _ _ ↦ ?_
      exact .bind (overflowsOnly_cell _ _ _) fun _ _ ↦ .of_ok _
  · intro c' h
    unfold checkStop at h
    obtain ⟨_, -, h⟩ := bind_eq_ok.mp h
    obtain ⟨_, -, h⟩ := bind_eq_ok.mp h
    obtain ⟨o, -, h⟩ := bind_eq_ok.mp h
    obtain ⟨-, h⟩ := unit_bind_eq_ok.mp h
    obtain ⟨_, -, h⟩ := bind_eq_ok.mp h
    obtain ⟨kind, -, h⟩ := bind_eq_ok.mp h
    obtain ⟨-, h⟩ := unit_bind_eq_ok.mp h
    obtain ⟨task, -, h⟩ := bind_eq_ok.mp h
    obtain ⟨-, h⟩ := unit_bind_eq_ok.mp h
    obtain ⟨location, -, h⟩ := bind_eq_ok.mp h
    obtain ⟨seconds, -, h⟩ := bind_eq_ok.mp h
    obtain ⟨reached, -, h⟩ := bind_eq_ok.mp h
    obtain ⟨_, -, h⟩ := bind_eq_ok.mp h
    obtain ⟨arrival, -, h⟩ := bind_eq_ok.mp h
    obtain ⟨-, h⟩ := unit_bind_eq_ok.mp h
    obtain ⟨departureValue, hvalue, h⟩ := bind_eq_ok.mp h
    obtain ⟨_, -, h⟩ := bind_eq_ok.mp h
    obtain ⟨departure, hdeparture, h⟩ := bind_eq_ok.mp h
    obtain ⟨meters, -, h⟩ := bind_eq_ok.mp h
    cases h
    exact hasFloat_of_number hjson hvalue (requireEqual_eq_ok.mp hdeparture).1

/-- Step: so does a route, and its duration is a double only in such a solution. -/
theorem checkRoute_overflows {t : Totals} {json : Json} (ht : t.totalDuration.IsFloat → hasFloat)
    (hjson : ¬ json.FloatFree → hasFloat) :
    OverflowsOnly (Escapes hasFloat) (checkRoute data t json) ∧
      ∀ t', checkRoute data t json = .ok t' → t'.totalDuration.IsFloat → hasFloat := by
  have hstops : ∀ {start : Number} {stopsValue : Json} {items : List Json} {v : Vehicle}
      {vid : Key},
      (start.IsFloat → hasFloat) → json.getItem "stops" = .ok stopsValue →
      stopsValue.iter = .ok items →
      OverflowsOnly (Escapes hasFloat) (items.foldlM (checkStop data vid v)
        ⟨start, .int v.location, v.loadAtStart, 0, t.seen⟩) ∧
      ∀ c, items.foldlM (checkStop data vid v)
        ⟨start, .int v.location, v.loadAtStart, 0, t.seen⟩ = .ok c →
          c.previousTime.IsFloat → hasFloat := by
    intro start stopsValue items v vid hstart hvalue hitems
    refine OverflowsOnly.foldlM (I := fun c : Cursor ↦ c.previousTime.IsFloat → hasFloat)
      (fun c item hitem hc ↦ checkStop_overflows hc fun hfloat ↦ hjson fun hfree ↦ ?_) hstart
    exact hfloat ((hfree.getItem hvalue).iter hitems item hitem)
  constructor
  · unfold checkRoute
    refine .bind (.getItem _ _) fun vehicleId _ ↦ .bind (.hash _) fun vid _ ↦ ?_
    refine .bind (overflowsOnly_require _) fun _ _ ↦ .bind (overflowsOnly_vehicle _) fun v _ ↦ ?_
    refine .bind (.getItem _ _) fun startValue hstartValue ↦ .bind (.number _) fun start hstart ↦ ?_
    have hstartFloat := hasFloat_of_number hjson hstartValue hstart
    refine .bind (overflowsOnly_require _) fun _ _ ↦ .bind (.getItem _ _) fun stopsValue hvalue ↦ ?_
    refine .bind (.iter _) fun items hitems ↦ ?_
    refine .bind (hstops hstartFloat hvalue hitems).1 fun c _ ↦ ?_
    refine .bind (overflowsOnly_require _) fun _ _ ↦
      .bind (.getItem _ _) fun endValue hendValue ↦ ?_
    refine .bind (overflowsOnly_requireEqual _ _) fun finish hfinish ↦ ?_
    refine .bind (overflowsOnly_require _) fun _ _ ↦ .bind (.getItem _ _) fun _ _ ↦ ?_
    refine .bind (overflowsOnly_requireEqual _ _) fun _ _ ↦ ?_
    refine .bind (.getItem _ _) fun durationValue hdurationValue ↦ ?_
    refine .bind (.combine fun n hn hmixed ↦ ⟨hn, ?_⟩) fun _ _ ↦ ?_
    · exact hmixed.elim
        (hasFloat_of_number hjson hendValue (requireEqual_eq_ok.mp hfinish).1) hstartFloat
    refine .bind (overflowsOnly_requireEqual _ _) fun duration hduration ↦ ?_
    refine .bind (.combine fun n hn hmixed ↦ ⟨hn, ?_⟩) fun _ _ ↦ .of_ok _
    exact hmixed.elim ht
      (hasFloat_of_number hjson hdurationValue (requireEqual_eq_ok.mp hduration).1)
  · intro t' h hfloat
    unfold checkRoute at h
    obtain ⟨_, -, h⟩ := bind_eq_ok.mp h
    obtain ⟨vid, -, h⟩ := bind_eq_ok.mp h
    obtain ⟨-, h⟩ := unit_bind_eq_ok.mp h
    obtain ⟨v, -, h⟩ := bind_eq_ok.mp h
    obtain ⟨_, -, h⟩ := bind_eq_ok.mp h
    obtain ⟨start, -, h⟩ := bind_eq_ok.mp h
    obtain ⟨-, h⟩ := unit_bind_eq_ok.mp h
    obtain ⟨_, -, h⟩ := bind_eq_ok.mp h
    obtain ⟨items, -, h⟩ := bind_eq_ok.mp h
    obtain ⟨c, -, h⟩ := bind_eq_ok.mp h
    obtain ⟨-, h⟩ := unit_bind_eq_ok.mp h
    obtain ⟨_, -, h⟩ := bind_eq_ok.mp h
    obtain ⟨finish, -, h⟩ := bind_eq_ok.mp h
    obtain ⟨-, h⟩ := unit_bind_eq_ok.mp h
    obtain ⟨_, -, h⟩ := bind_eq_ok.mp h
    obtain ⟨_, -, h⟩ := bind_eq_ok.mp h
    obtain ⟨durationValue, hvalue, h⟩ := bind_eq_ok.mp h
    obtain ⟨_, -, h⟩ := bind_eq_ok.mp h
    obtain ⟨duration, hduration, h⟩ := bind_eq_ok.mp h
    obtain ⟨total, htotal, h⟩ := bind_eq_ok.mp h
    cases h
    by_cases hmixed : t.totalDuration.IsFloat ∨ duration.IsFloat
    · exact hmixed.elim ht
        (hasFloat_of_number hjson hvalue (requireEqual_eq_ok.mp hduration).1)
    · rw [not_or] at hmixed
      obtain ⟨m, hm⟩ := exists_int hmixed.1
      obtain ⟨n, hn⟩ := exists_int hmixed.2
      rw [hm, hn, Number.int_add_int] at htotal
      cases htotal
      obtain ⟨x, hx⟩ := hfloat
      cases hx

/-- Run: an overflow escapes only from a solution with a double. -/
theorem check_overflows :
    OverflowsOnly (Escapes (∃ output, solutionPayload = some output ∧ ¬ output.FloatFree))
      (check field data solutionPayload) := by
  unfold check
  cases solutionPayload with
  | none => exact .bind (fun n h ↦ (by cases h)) fun _ h ↦ (by cases h)
  | some output =>
    refine .bind (.of_ok _) fun output' houtput ↦ ?_
    cases houtput
    refine .bind (.getItem _ _) fun routes hroutes ↦ .bind (.iter _) fun items hitems ↦ ?_
    have hrun := OverflowsOnly.foldlM (P := Escapes (∃ output', some output = some output' ∧
        ¬ output'.FloatFree)) (f := checkRoute data) (s := ⟨[], [], 0, .int 0⟩)
      (I := fun t : Totals ↦ t.totalDuration.IsFloat → ∃ output', some output = some output' ∧
        ¬ output'.FloatFree)
      (fun t item hitem ht ↦ checkRoute_overflows ht fun hfloat ↦ ⟨output, rfl, fun hfree ↦
        hfloat ((hfree.getItem hroutes).iter hitems item hitem)⟩) (by rintro ⟨x, hx⟩; cases hx)
    refine .bind hrun.1 fun t _ ↦ .bind (.forM fun o ↦ ?_) fun _ _ ↦ ?_
    · exact .bind (overflowsOnly_require _) fun _ _ ↦ overflowsOnly_require _
    · refine .bind (.len _) fun _ _ ↦ ?_
      have hget : ∀ n, OverflowsOnly (Escapes (∃ output', some output = some output' ∧
          ¬ output'.FloatFree)) (field.get n) := by
        intro n m h
        unfold IntegerField.get at h
        split at h <;> cases h
      exact .bind (hget _) fun _ _ ↦ .bind (hget _) fun _ _ ↦ .of_ok _

end Overflow

/-! ### The verdict -/

/-- Only an overflow of the check escapes. -/
theorem validate_eq_error {e : Exception} (h : validate field data solutionPayload = .error e) :
    ∃ n, e = .overflowError n ∧ check field data solutionPayload = .error (.overflowError n) := by
  unfold validate at h
  split at h
  · cases h
  · next n hn =>
    cases h
    exact ⟨n, rfl, hn⟩
  · cases h

/-- A result is valid when the check returns its summary. -/
theorem validate_eq_valid {summary : VerifiedSummary}
    (h : validate field data solutionPayload = .ok (.valid summary)) :
    check field data solutionPayload = .ok summary := by
  unfold validate at h
  split at h
  · next hcheck =>
    cases h
    exact hcheck
  · cases h
  · cases h

private theorem iter_length {value : Json} {items : List Json} {n : Nat}
    (hitems : value.iter = .ok items) (hn : value.len = .ok n) : items.length = n := by
  cases value with
  | arr xs =>
    cases hitems
    cases hn
    rfl
  | obj members =>
    cases hitems
    cases hn
    exact List.length_map _
  | str s =>
    cases hitems
    cases hn
    rw [List.length_map, String.length_toList]
  | _ => cases hitems

private theorem get_eq_ok {n : Number} {k : Nat} (h : field.get n = .ok k) :
    n.equals (.int k) = true := by
  unfold IntegerField.get at h
  split at h
  · next k' hk =>
    cases h
    exact field.exact _ _ hk
  · cases h

/-- What the loops accept is a feasible routing, in Python's arithmetic. -/
theorem check_feasible (hc : data.Contract) {summary : VerifiedSummary}
    (h : check field data solutionPayload = .ok summary) :
    ∃ output routes, solutionPayload = some output ∧ ReadsSolution output routes ∧
      Feasible pythonArithmetic data routes summary := by
  unfold check at h
  cases solutionPayload with
  | none => cases h
  | some output =>
    obtain ⟨output', houtput, h⟩ := bind_eq_ok.mp h
    cases houtput
    obtain ⟨value, hvalue, h⟩ := bind_eq_ok.mp h
    obtain ⟨items, hitems, h⟩ := bind_eq_ok.mp h
    obtain ⟨t, ht, h⟩ := bind_eq_ok.mp h
    obtain ⟨hserved, h⟩ := unit_bind_eq_ok.mp h
    obtain ⟨count, hcount, h⟩ := bind_eq_ok.mp h
    obtain ⟨distance, hdistance, h⟩ := bind_eq_ok.mp h
    obtain ⟨duration, hduration, h⟩ := bind_eq_ok.mp h
    cases h
    obtain ⟨routes, meters, hrun⟩ := checkRoutes_spec hc.orderIds
      (fun entry hentry ↦ by cases hentry) ht
    have hseen : t.seen = seenOf routes := hrun.seen
    have hnodup : ((seenOf routes).map (·.1)).Nodup := hseen ▸ hrun.nodup List.nodup_nil
    refine ⟨output, routes, rfl, ⟨value, items, hvalue, hitems, hrun.reads⟩, ?_⟩
    have hused : (routes.map fun route ↦ Key.text route.vehicleId).Nodup := by
      have := hrun.nodupUsed List.nodup_nil
      rwa [hrun.used] at this
    refine ⟨?_, ?_, ⟨meters, hrun.feasible, ?_⟩, ?_, rfl, ?_⟩
    · refine List.pairwise_map.mpr ((List.pairwise_map.mp hused).imp ?_)
      intro a b hne heq
      exact hne (congrArg Key.text heq)
    · intro o ho
      rw [forM_eq_ok_iff, hseen] at hserved
      exact served_of_seen hc.orderIds hrun.feasible hnodup hrun.origin ho (hc.pickupKinds o ho)
        (hserved o ho)
    · have := get_eq_ok hdistance
      rw [Number.int_equals_int, decide_eq_true_eq, hrun.distance, Int.zero_add] at this
      exact this.symm
    · obtain ⟨q, hq, hk⟩ := Number.equals_iff.mp (get_eq_ok hduration)
      rw [Number.value_int, Option.some.injEq] at hk
      rw [← hk] at hq
      simp only [pythonArithmetic, hrun.duration, Except.toOption, Option.bind_some, hq]
      rfl
    · rw [← iter_length hitems hcount]
      exact hrun.reads.length_eq

/-- For every payload that keeps its contract and every solution: no exception escapes but the
overflow of an integer that no double holds, and that only from a solution with a double; what is
reported VALID is a feasible routing in Python's arithmetic, which is exact without doubles. -/
theorem validate_sound (hc : data.Contract) :
    (∀ e, validate field data solutionPayload = .error e →
      ∃ n output, e = .overflowError n ∧ (Float.ofInt n).isFinite = false ∧
        solutionPayload = some output ∧ ¬ output.FloatFree) ∧
    ∀ summary, validate field data solutionPayload = .ok (.valid summary) →
      ∃ output routes, solutionPayload = some output ∧ ReadsSolution output routes ∧
        Feasible pythonArithmetic data routes summary ∧
        (output.FloatFree → Feasible exactArithmetic data routes summary) := by
  constructor
  · intro e h
    obtain ⟨n, rfl, hcheck⟩ := validate_eq_error h
    obtain ⟨hfinite, output, houtput, hfloat⟩ := check_overflows n hcheck
    exact ⟨n, output, rfl, hfinite, houtput, hfloat⟩
  · intro summary h
    obtain ⟨output, routes, houtput, hreads, hfeasible⟩ := check_feasible hc (validate_eq_valid h)
    refine ⟨output, routes, houtput, hreads, hfeasible, fun hfree ↦ hfeasible.exact ?_⟩
    obtain ⟨value, items, hvalue, hitems, hroutes⟩ := hreads
    intro route hroute
    obtain ⟨item, hitem, hread⟩ := exists_of_forall₂_right hroutes hroute
    exact hread.whole ((hfree.getItem hvalue).iter hitems item hitem)

-- Integers are taken over as they are, doubles when they are whole.
private def wholeField : IntegerField where
  read n :=
    match n.value with
    | some (.rational q) => if q = q.num.toNat then some q.num.toNat else none
    | _ => none
  exact n k h := by
    split at h
    · next q hq =>
      split at h
      · next hwhole =>
        cases h
        exact Number.equals_iff.mpr ⟨_, hq, congrArg (some ∘ Quantity.rational) hwhole.symm⟩
      · cases h
    · cases h

/-! ### Two vehicles -/

-- A truck fetches one order and a van has another one aboard; the places are ten seconds from
-- each other.
private def fetchedAndCarried : Payload where
  orders := [⟨"fetched", some 1, none, 5, 2, 5, 20, 0, 100, 2, ["truck"]⟩,
    ⟨"aboard", none, none, 0, 1, 5, 0, 0, 50, 1, ["van", "truck"]⟩]
  vehicles := [⟨"truck", 0, 5, 0, 100, none⟩, ⟨"van", 2, 5, 0, 100, some 1⟩]
  distanceMatrix := [[0, 80, 160], [80, 0, 80], [160, 80, 0]]
  durationMatrix := [[0, 10, 20], [10, 0, 10], [20, 10, 0]]

-- A stop of a solution with its times.
private def stopJson (orderId kind : String) (location : Int) (arrival departure : Json) : Json :=
  .obj [("order_id", .str orderId), ("kind", .str kind), ("location", .int location),
    ("arrival", arrival), ("departure", departure)]

-- A route of a solution.
private def routeJson (vehicleId : String) (start : Json) (finish meters seconds : Int)
    (stops : List Json) : Json :=
  .obj [("vehicle_id", .str vehicleId), ("start", start), ("end", .int finish),
    ("distance_meters", .int meters), ("duration_seconds", .int seconds), ("stops", .arr stops)]

-- The truck waits for the goods at the first place.
private def fetchedSolution : Json :=
  .obj [("routes", .arr [
    routeJson "truck" (.int 0) 40 160 40 [stopJson "fetched" "PICKUP" 1 (.int 20) (.int 25),
      stopJson "fetched" "DELIVERY" 2 (.int 35) (.int 40)],
    routeJson "van" (.int 0) 15 80 15 [stopJson "aboard" "DELIVERY" 1 (.int 10) (.int 15)]])]

/-- An accepted solution in integers. -/
theorem delivery_valid : ∃ routes, ReadsSolution fetchedSolution routes ∧
    Feasible exactArithmetic fetchedAndCarried routes ⟨2, 2, 240, 55⟩ := by
  have hcontract : fetchedAndCarried.Contract := by
    refine ⟨?_, ?_, ⟨?_, ?_⟩, ⟨?_, ?_⟩, ?_⟩ <;> decide +kernel
  have hvalid : validate wholeField fetchedAndCarried (some fetchedSolution) =
      .ok (.valid ⟨2, 2, 240, 55⟩) := by
    decide +kernel
  obtain ⟨output, routes, houtput, hreads, -, hexact⟩ := (validate_sound hcontract).2 _ hvalid
  cases houtput
  exact ⟨routes, hreads, hexact (by simp [fetchedSolution, routeJson, stopJson])⟩

/-! ### Doubles, and a pickup of the wrong kind -/

-- A vehicle that carries one order to a place ten seconds away.
private def carriedOrder (deliveryService : Nat) : Payload where
  orders := [⟨"order", none, none, 0, 1, deliveryService, 0, 0, 50, 1, ["vehicle"]⟩]
  vehicles := [⟨"vehicle", 0, 5, 0, 100, some 1⟩]
  distanceMatrix := [[0, 80], [80, 0]]
  durationMatrix := [[0, 10], [10, 0]]

private theorem carriedOrder_contract (deliveryService : Nat) :
    (carriedOrder deliveryService).Contract := by
  refine ⟨?_, ?_, ⟨?_, ?_⟩, ⟨?_, ?_⟩, ?_⟩ <;> simp [carriedOrder, Order.pickupKindOrDefault]

-- The delivery at the tenth second, by a vehicle that leaves at `start`.
private def deliverySolution (start arrival : Json) : Json :=
  .obj [("routes", .arr [
    routeJson "vehicle" start 15 80 15 [stopJson "order" "DELIVERY" 1 arrival (.int 15)]])]

-- 2⁻⁶⁰ seconds.
private def tiny : Float := Float.ofBits 0x3C30000000000000

private theorem tiny_infeasible {routes : List Route} {summary : VerifiedSummary}
    (hreads : ReadsSolution (deliverySolution (.float tiny) (.int 10)) routes)
    (h : Feasible exactArithmetic (carriedOrder 5) routes summary) : False := by
  obtain ⟨value, items, hvalue, hitems, hroutes⟩ := hreads
  obtain ⟨meters, hdrivable, -⟩ := h.drivable
  simp only [deliverySolution, Json.getItem, List.find?_cons_of_pos, beq_self_eq_true,
    Except.ok.injEq] at hvalue
  subst hvalue
  cases hitems
  cases hroutes with
  | @cons _ route _ _ hroute hrest =>
    cases hrest
    cases hdrivable with
    | cons hv _ =>
      obtain ⟨v, hv⟩ := hv
      obtain rfl : v = ⟨"vehicle", 0, 5, 0, 100, some 1⟩ := List.mem_singleton.mp hv.vehicle.1
      obtain ⟨start, hstart, hstartNumber⟩ := hroute.start
      simp only [routeJson, Json.getItem, List.find?, String.reduceBEq, Except.ok.injEq] at hstart
      subst hstart
      obtain ⟨stopsValue, stopItems, hstopsValue, hstopItems, hstops⟩ := hroute.stops
      simp only [routeJson, Json.getItem, List.find?, String.reduceBEq, Except.ok.injEq]
        at hstopsValue
      subst hstopsValue
      cases hstopItems
      obtain ⟨last, hdrives, -⟩ := hv.drives
      generalize route.stops = stops at hstops hdrives
      cases hstops with
      | @cons _ stop _ _ hstop hrest =>
        obtain ⟨location, hlocation, hindex⟩ := hstop.location
        obtain ⟨arrival, harrival, harrivalNumber⟩ := hstop.arrival
        simp only [stopJson, Json.getItem, List.find?, String.reduceBEq, Except.ok.injEq]
          at hlocation harrival
        subst hlocation harrival
        cases hdrives with
        | leg hleg _ =>
          obtain ⟨seconds, reached, arrived, ⟨row, hrow, hseconds⟩, hreached, harrived, hle⟩ :=
            hleg.travel
          cases hrow
          rw [← Except.ok.inj hindex] at hseconds
          cases hseconds
          rw [← Except.ok.inj harrivalNumber] at harrived
          rw [← Except.ok.inj hstartNumber] at hreached
          have hsum : exactArithmetic.plus (.float tiny) (.int 10) =
              some (.rational (10 + 1 / 2 ^ 60)) := by
            decide +kernel
          cases hsum.symm.trans hreached
          cases harrived
          exact absurd hle (by decide +kernel)

-- The origin of the first order is called a delivery; the goods of the other one are aboard, but
-- the vehicle does not know it.
private def mislabelled : Payload where
  orders := [⟨"order", some 1, some "DELIVERY", 5, 0, 5, 0, 0, 50, 1, ["vehicle"]⟩,
    ⟨"aboard", none, none, 0, 1, 0, 0, 0, 50, 1, ["vehicle"]⟩]
  vehicles := [⟨"vehicle", 0, 5, 0, 100, none⟩]
  distanceMatrix := [[0, 80], [80, 0]]
  durationMatrix := [[0, 10], [10, 0]]

-- The first order is fetched and never delivered.
private def undeliveredSolution : Json :=
  .obj [("routes", .arr [
    routeJson "vehicle" (.int 0) 15 80 15 [stopJson "order" "DELIVERY" 1 (.int 10) (.int 15),
      stopJson "aboard" "DELIVERY" 1 (.int 15) (.int 15)]])]

private theorem undelivered_infeasible {routes : List Route} {summary : VerifiedSummary}
    (hreads : ReadsSolution undeliveredSolution routes)
    (h : Feasible exactArithmetic mislabelled routes summary) : False := by
  obtain ⟨value, items, hvalue, hitems, hroutes⟩ := hreads
  simp only [undeliveredSolution, Json.getItem, List.find?_cons_of_pos, beq_self_eq_true,
    Except.ok.injEq] at hvalue
  subst hvalue
  cases hitems
  obtain ⟨route, hr, -, hkinds, -⟩ := h.served _ List.mem_cons_self
  obtain ⟨item, hitem, hread⟩ := exists_of_forall₂_right hroutes hr
  obtain ⟨stopsValue, stopItems, hstopsValue, hstopItems, hstops⟩ := hread.stops
  rw [List.mem_singleton.mp hitem] at hstopsValue
  simp only [routeJson, Json.getItem, List.find?, String.reduceBEq, Except.ok.injEq]
    at hstopsValue
  subst hstopsValue
  cases hstopItems
  generalize route.stops = stops at hkinds hstops
  obtain _ | ⟨hfirst, _ | ⟨hsecond, _ | _⟩⟩ := hstops
  have hid := hfirst.orderId
  have hid' := hsecond.orderId
  simp only [stopJson, Json.getItem, List.find?, String.reduceBEq, Except.ok.injEq,
    Json.str.injEq] at hid hid'
  have hown : ("order" == "order") = true := rfl
  have hother : ¬ ("aboard" == "order") = true := by decide
  rw [List.filter_cons, ← hid, if_pos hown, List.filter_cons, ← hid', if_neg hother,
    List.filter_nil, List.map_singleton] at hkinds
  cases congrArg List.length hkinds

/-- Three solutions on which `validate` is wrong: a sum that is rounded down hides that the vehicle
leaves too late, a service time beyond the doubles meets a double, and an origin that is called a
delivery stands for the delivery. -/
theorem rounded_start_accepted :
    ((carriedOrder 5).Contract ∧
      validate wholeField (carriedOrder 5) (some (deliverySolution (.float tiny) (.int 10))) =
        .ok (.valid ⟨1, 1, 80, 15⟩) ∧
      ¬ ∃ routes, ReadsSolution (deliverySolution (.float tiny) (.int 10)) routes ∧
        Feasible exactArithmetic (carriedOrder 5) routes ⟨1, 1, 80, 15⟩) ∧
    ((carriedOrder (2 ^ 1024)).Contract ∧
      validate wholeField (carriedOrder (2 ^ 1024))
        (some (deliverySolution (.int 0) (.float 10))) = .error (.overflowError (2 ^ 1024))) ∧
    ((mislabelled.orders.map (·.id)).Nodup ∧ (mislabelled.vehicles.map (·.id)).Nodup ∧
      SquareNonNegative mislabelled.distanceMatrix ∧
      SquareNonNegative mislabelled.durationMatrix ∧
      validate wholeField mislabelled (some undeliveredSolution) = .ok (.valid ⟨2, 1, 80, 15⟩) ∧
      ¬ ∃ routes, ReadsSolution undeliveredSolution routes ∧
        Feasible exactArithmetic mislabelled routes ⟨2, 1, 80, 15⟩) := by
  refine ⟨⟨carriedOrder_contract 5, by decide +kernel, ?_⟩,
    ⟨carriedOrder_contract _, by decide +kernel⟩, by decide +kernel, by decide +kernel,
    ⟨by decide +kernel, by decide +kernel⟩, ⟨by decide +kernel, by decide +kernel⟩,
    by decide +kernel, ?_⟩
  · rintro ⟨routes, hreads, hfeasible⟩
    exact tiny_infeasible hreads hfeasible
  · rintro ⟨routes, hreads, hfeasible⟩
    exact undelivered_infeasible hreads hfeasible

end PenroseRoute.Optimization.Solver
