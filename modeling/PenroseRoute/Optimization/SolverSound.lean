import Mathlib.Data.List.Nodup
import PenroseRoute.Optimization.SolverFeasible

/-!
# What `validate` accepts

The loop over the stops keeps a position of the vehicle, the loop over the routes what has been
seen; from both together follows that an accepted solution is a feasible routing.
-/

namespace PenroseRoute.Optimization.Solver

open Lib Lib.Python

variable {data : Payload} {v : Vehicle} {vid : Key} {json : Json}

/-! ### Single steps -/

/-- An order that is found is one of the payload, and the key is its id. -/
theorem order_eq_ok {key : Key} {o : Order} (h : data.order key = .ok o) :
    o ∈ data.orders ∧ key = .text o.id := by
  unfold Payload.order at h
  split at h
  · next found hfound =>
    cases h
    exact ⟨List.mem_of_find?_eq_some hfound, Key.equals_text.mp
      (List.find?_some (p := fun o : Order ↦ key.equals (.text o.id)) hfound)⟩
  · cases h

/-- A vehicle that is found is one of the payload, and the key is its id. -/
theorem vehicle_eq_ok {key : Key} (h : data.vehicle key = .ok v) :
    v ∈ data.vehicles ∧ key = .text v.id := by
  unfold Payload.vehicle at h
  split at h
  · next found hfound =>
    cases h
    exact ⟨List.mem_of_find?_eq_some hfound, Key.equals_text.mp
      (List.find?_some (p := fun v : Vehicle ↦ key.equals (.text v.id)) hfound)⟩
  · cases h

/-- It passes a number of the same value. -/
theorem requireEqual_eq_ok {value : Json} {n m : Number} :
    requireEqual value n = .ok m ↔ value.number = .ok m ∧ m.equals n = true := by
  unfold requireEqual
  cases value.number with
  | error e => simp
  | ok k =>
    dsimp only
    split
    · next h =>
      constructor
      · intro hk
        cases hk
        exact ⟨rfl, h⟩
      · rintro ⟨hk, -⟩
        cases hk
        rfl
    · next h =>
      constructor
      · intro hk
        cases hk
      · rintro ⟨hk, heq⟩
        cases hk
        exact absurd heq h

/-- A cell that is read is the travel to some place. -/
theorem cell_eq_ok {matrix : List (List Int)} {a b : Json} {i n : Int} (ha : a.index = .ok i)
    (h : cell matrix a b = .ok n) : ∃ j, b.index = .ok j ∧ travels matrix i j n := by
  unfold cell at h
  obtain ⟨i', hi, h⟩ := bind_eq_ok.mp h
  obtain ⟨row, hrow, h⟩ := bind_eq_ok.mp h
  obtain ⟨j, hj, h⟩ := bind_eq_ok.mp h
  rw [ha, Except.ok.injEq] at hi
  exact ⟨j, hj, row, hi ▸ hrow, h⟩

/-- A location that indexes a matrix and equals a location of the payload is that location. -/
theorem index_eq_of_equals {value : Json} {i n : Int} (hi : value.index = .ok i)
    (h : value.equals (.int n) = true) : i = n := by
  cases value with
  | bool b =>
    cases hi
    exact of_decide_eq_true ((Number.int_equals_int _ _).symm.trans h)
  | int m =>
    cases hi
    exact of_decide_eq_true ((Number.int_equals_int _ _).symm.trans h)
  | _ => cases hi

/-- A task that is looked up among the seen ones is there. -/
theorem mem_of_servedBy {seen : Seen} {orderId kind : String} {vehicleId : String}
    (h : seen.servedBy orderId kind (.text vehicleId) = true) :
    ((orderId, .text kind), .text vehicleId) ∈ seen := by
  unfold Seen.servedBy at h
  split at h
  · next entry hentry =>
    have hp := List.find?_some hentry
    rw [Bool.and_eq_true, beq_iff_eq, Key.text_equals] at hp
    have he : entry = ((orderId, .text kind), .text vehicleId) := by
      rw [← hp.1, ← hp.2, ← Key.equals_text.mp h]
    exact he ▸ List.mem_of_find?_eq_some hentry
  · cases h

/-- The branches on the kind choose a task of the order; a delivery has its origin behind it. -/
theorem stopTask_eq_ok {o : Order} {kind : Key} {seen : Seen} {task : Task} {location : Int}
    {value : Json} (h : stopTask o (.text v.id) kind seen json = .ok task)
    (hvalue : json.getItem "location" = .ok value) (hlocation : value.index = .ok location) :
    ∃ name, kind = .text name ∧ ⟨name, location, task.earliest, task.service, task.load⟩ ∈ o.tasks ∧
      (name ≠ o.pickupKindOrDefault → o.pickup.isSome = true →
        ((o.id, .text o.pickupKindOrDefault), .text v.id) ∈ seen) := by
  unfold stopTask at h
  split at h
  · next hkind =>
    split at h
    · cases h
    · next pickup hpickup =>
      obtain ⟨value', hvalue', h⟩ := bind_eq_ok.mp h
      obtain ⟨hrequire, h⟩ := unit_bind_eq_ok.mp h
      rw [hvalue, Except.ok.injEq] at hvalue'
      rw [require_eq_ok, ← hvalue'] at hrequire
      cases h
      refine ⟨_, Key.equals_text.mp hkind, ?_, fun hne ↦ absurd rfl hne⟩
      rw [index_eq_of_equals hlocation hrequire, Order.tasks, Order.originTask, hpickup]
      exact List.mem_append_left _ (List.mem_singleton.mpr rfl)
  · split at h
    · next hkind =>
      obtain ⟨value', hvalue', h⟩ := bind_eq_ok.mp h
      obtain ⟨hrequire, h⟩ := unit_bind_eq_ok.mp h
      obtain ⟨hserved, h⟩ := unit_bind_eq_ok.mp h
      rw [hvalue, Except.ok.injEq] at hvalue'
      rw [require_eq_ok, ← hvalue'] at hrequire
      rw [require_eq_ok, Bool.or_eq_true] at hserved
      cases h
      refine ⟨_, Key.equals_text.mp hkind, ?_, fun _ hpickup ↦ ?_⟩
      · rw [index_eq_of_equals hlocation hrequire]
        exact List.mem_append_right _ (List.mem_singleton.mpr rfl)
      · rcases hserved with hnone | hserved
        · rw [Option.isNone_iff_eq_none] at hnone
          rw [hnone] at hpickup
          cases hpickup
        · exact mem_of_servedBy hserved
    · cases h

/-! ### The loop over the stops -/

/-- What the stops of a vehicle add to the tasks seen. -/
def visits (vehicleId : String) (stops : List Stop) : Seen :=
  stops.map fun stop ↦ ((stop.orderId, .text stop.kind), .text vehicleId)

/-- The cursor knows where the vehicle is and when. -/
structure Cursor.At (c : Cursor) (p : Position) : Prop where
  time : c.previousTime = p.time ∧ ∃ q, p.time.value = some q
  location : c.location.index = .ok p.location
  load : c.load = p.load

/-- The order of a stop comes after its origin. -/
def OriginBefore (data : Payload) (vehicleId : String) (seen : Seen) (stop : Stop) : Prop :=
  ∀ o ∈ data.orders, o.id = stop.orderId → stop.kind ≠ o.pickupKindOrDefault →
    o.pickup.isSome = true → ((o.id, .text o.pickupKindOrDefault), .text vehicleId) ∈ seen

/-- One accepted stop. -/
structure StopChecked (data : Payload) (v : Vehicle) (c : Cursor) (p : Position) (json : Json)
    (c' : Cursor) (stop : Stop) (meters : Int) (q : Position) : Prop where
  reads : ReadsStop json stop
  leg : Leg pythonArithmetic data v p stop meters q
  at' : c'.At q
  meters : c'.meters = c.meters + meters
  seen : c'.seen = c.seen ++ visits v.id [stop]
  fresh : (stop.orderId, .text stop.kind) ∉ c.seen.map (·.1)
  origin : OriginBefore data v.id c.seen stop

/-- Step: what the body of the inner loop accepts is a leg of the vehicle. -/
theorem checkStop_spec (hids : (data.orders.map (·.id)).Nodup) {c c' : Cursor} {p : Position}
    (hc : c.At p) (h : checkStop data (.text v.id) v c json = .ok c') :
    ∃ stop meters q, StopChecked data v c p json c' stop meters q := by
  unfold checkStop at h
  obtain ⟨orderIdValue, horderIdValue, h⟩ := bind_eq_ok.mp h
  obtain ⟨orderKey, horderKey, h⟩ := bind_eq_ok.mp h
  obtain ⟨o, ho, h⟩ := bind_eq_ok.mp h
  obtain ⟨hallowed, h⟩ := unit_bind_eq_ok.mp h
  obtain ⟨kindValue, hkindValue, h⟩ := bind_eq_ok.mp h
  obtain ⟨kind, hkind, h⟩ := bind_eq_ok.mp h
  obtain ⟨hunseen, h⟩ := unit_bind_eq_ok.mp h
  obtain ⟨task, htask, h⟩ := bind_eq_ok.mp h
  obtain ⟨hload, h⟩ := unit_bind_eq_ok.mp h
  obtain ⟨locationValue, hlocationValue, h⟩ := bind_eq_ok.mp h
  obtain ⟨seconds, hseconds, h⟩ := bind_eq_ok.mp h
  obtain ⟨reached, hreached, h⟩ := bind_eq_ok.mp h
  obtain ⟨arrivalValue, harrivalValue, h⟩ := bind_eq_ok.mp h
  obtain ⟨arrival, harrival, h⟩ := bind_eq_ok.mp h
  obtain ⟨htimes, h⟩ := unit_bind_eq_ok.mp h
  obtain ⟨departureValue, hdepartureValue, h⟩ := bind_eq_ok.mp h
  obtain ⟨done, hdone, h⟩ := bind_eq_ok.mp h
  obtain ⟨departure, hdeparture, h⟩ := bind_eq_ok.mp h
  obtain ⟨meters, hmeters, h⟩ := bind_eq_ok.mp h
  cases h
  obtain ⟨homem, rfl⟩ := order_eq_ok ho
  obtain ⟨id, hid, hidv⟩ := List.any_eq_true.mp (require_eq_ok.mp hallowed)
  rw [Key.text_equals, Key.text.injEq] at hidv
  rw [require_eq_ok, Bool.and_eq_true, decide_eq_true_eq, decide_eq_true_eq] at hload
  rw [require_eq_ok, Bool.and_eq_true] at htimes
  obtain ⟨location, hlocation, hseconds⟩ := cell_eq_ok hc.location hseconds
  obtain ⟨location', hlocation', hmeters⟩ := cell_eq_ok hc.location hmeters
  rw [hlocation, Except.ok.injEq] at hlocation'
  obtain ⟨name, rfl, hmem, horigin⟩ := stopTask_eq_ok htask hlocationValue hlocation
  obtain ⟨htime, start, hstart⟩ := hc.time
  rw [htime] at hreached
  obtain ⟨reach, hreach⟩ := Number.value_add_int hstart hreached
  rw [Number.max_le_iff (Number.value_int _) hreach] at htimes
  obtain ⟨⟨hearliest, hreachLe⟩, hdeadline⟩ := htimes
  obtain ⟨reach', at', hreach', hat, hle⟩ := Number.le_iff.mp hreachLe
  rw [hreach, Option.some.injEq] at hreach'
  rw [requireEqual_eq_ok] at hdeparture
  obtain ⟨leave, hleave, hdone'⟩ := Number.equals_iff.mp hdeparture.2
  rw [hc.load] at hload
  refine ⟨⟨o.id, name, location, arrival, departure⟩, meters,
    ⟨departure, location, p.load + task.load⟩, ?_, ?_, ?_, rfl, rfl, ?_, ?_⟩
  · exact ⟨Json.hash_eq_text horderKey ▸ horderIdValue, Json.hash_eq_text hkind ▸ hkindValue,
      ⟨_, hlocationValue, hlocation⟩, ⟨_, harrivalValue, harrival⟩,
      ⟨_, hdepartureValue, hdeparture.1⟩⟩
  · refine ⟨⟨o, homem, rfl, hidv ▸ hid, _, hmem, rfl, rfl, hearliest, hdeadline,
      ⟨leave, ?_, hleave⟩, rfl⟩, ⟨seconds, reach, at', hseconds, ?_, hat, hreach' ▸ hle⟩,
      hlocation' ▸ hmeters, rfl, rfl, hload⟩
    · simp only [pythonArithmetic, hdone, Except.toOption, Option.bind_some, hdone']
    · simp only [pythonArithmetic, hreached, Except.toOption, Option.bind_some, hreach]
  · exact ⟨⟨rfl, leave, hleave⟩, hlocation, congrArg (· + task.load) hc.load⟩
  · intro hseen
    obtain ⟨entry, hentry, heq⟩ := List.mem_map.mp hseen
    have hnone := require_eq_ok.mp hunseen
    rw [Bool.not_eq_true', List.any_eq_false] at hnone
    refine hnone entry hentry ?_
    rw [heq, beq_self_eq_true, Bool.true_and, Key.equals_text]
  · intro other hother hsame hkindNe hpickup
    have hoeq : other = o := List.inj_on_of_nodup_map hids hother homem hsame
    subst hoeq
    rcases List.mem_append.mp (horigin hkindNe hpickup) with hbefore | hown
    · exact hbefore
    · rw [List.mem_singleton, Prod.mk.injEq, Prod.mk.injEq, Key.text.injEq] at hown
      exact absurd hown.1.2.symm hkindNe

/-- Run: what the inner loop accepts is a drive of the vehicle. -/
structure StopsChecked (data : Payload) (v : Vehicle) (c : Cursor) (p : Position)
    (items : List Json) (c' : Cursor) (stops : List Stop) (meters : Int) (last : Position) :
    Prop where
  reads : List.Forall₂ ReadsStop items stops
  drives : Drives pythonArithmetic data v p stops meters last
  at' : c'.At last
  meters : c'.meters = c.meters + meters
  seen : c'.seen = c.seen ++ visits v.id stops
  nodup : (c.seen.map (·.1)).Nodup → (c'.seen.map (·.1)).Nodup
  origin : ∀ before stop after, stops = before ++ stop :: after →
    OriginBefore data v.id (c.seen ++ visits v.id before) stop

/-- A loop over the stops that passes has checked a drive along them. -/
theorem checkStops_spec (hids : (data.orders.map (·.id)).Nodup) {items : List Json}
    {c c' : Cursor} {p : Position} (hc : c.At p)
    (h : items.foldlM (checkStop data (.text v.id) v) c = .ok c') :
    ∃ stops meters last, StopsChecked data v c p items c' stops meters last := by
  induction items generalizing c p with
  | nil =>
    cases h
    refine ⟨[], 0, p, .nil, .done p, hc, by omega, ?_, id, ?_⟩
    · exact (List.append_nil _).symm
    · intro before stop after hsplit
      cases before <;> cases hsplit
  | cons json rest ih =>
    rw [List.foldlM_cons] at h
    obtain ⟨next, hnext, h⟩ := bind_eq_ok.mp h
    obtain ⟨stop, meters, q, hstop⟩ := checkStop_spec hids hc hnext
    obtain ⟨stops, further, last, hrest⟩ := ih hstop.at' h
    refine ⟨stop :: stops, meters + further, last, .cons hstop.reads hrest.reads,
      .leg hstop.leg hrest.drives, hrest.at', ?_, ?_, ?_, ?_⟩
    · rw [hrest.meters, hstop.meters, Int.add_assoc]
    · rw [hrest.seen, hstop.seen, List.append_assoc]
      rfl
    · intro hnodup
      refine hrest.nodup ?_
      rw [hstop.seen, List.map_append]
      refine List.nodup_append.mpr ⟨hnodup, List.nodup_singleton _, ?_⟩
      intro a ha b hb hab
      rw [hab, List.mem_singleton.mp hb] at ha
      exact hstop.fresh ha
    · intro before later after hsplit
      cases before with
      | nil =>
        cases hsplit
        rw [visits, List.map_nil, List.append_nil]
        exact hstop.origin
      | cons first before =>
        rw [List.cons_append, List.cons.injEq] at hsplit
        obtain ⟨rfl, hsplit⟩ := hsplit
        have := hrest.origin before later after hsplit
        rw [hstop.seen, List.append_assoc] at this
        exact this

/-! ### The loop over the routes -/

/-- Tasks were seen only of vehicles that have a route. -/
def Totals.SeenUsed (t : Totals) : Prop := ∀ entry ∈ t.seen, entry.2 ∈ t.used

/-- One accepted route. -/
structure RouteChecked (data : Payload) (t : Totals) (json : Json) (t' : Totals) (route : Route)
    (meters : Int) : Prop where
  reads : ReadsRoute json route
  feasible : ∃ v, FeasibleRoute pythonArithmetic data v route meters
  seen : t'.seen = t.seen ++ visits route.vehicleId route.stops
  used : t'.used = t.used ++ [.text route.vehicleId]
  fresh : .text route.vehicleId ∉ t.used
  distance : t'.totalDistance = t.totalDistance + meters
  duration : t.totalDuration.add route.durationSeconds = .ok t'.totalDuration
  nodup : (t.seen.map (·.1)).Nodup → (t'.seen.map (·.1)).Nodup
  origin : ∀ before stop after, route.stops = before ++ stop :: after →
    OriginBefore data route.vehicleId (visits route.vehicleId before) stop

/-- Step: what the body of the outer loop accepts is a feasible route of a new vehicle. -/
theorem checkRoute_spec (hids : (data.orders.map (·.id)).Nodup) {t t' : Totals}
    (hused : t.SeenUsed) (h : checkRoute data t json = .ok t') :
    ∃ route meters, RouteChecked data t json t' route meters := by
  unfold checkRoute at h
  obtain ⟨vehicleIdValue, hvehicleIdValue, h⟩ := bind_eq_ok.mp h
  obtain ⟨vid, hvid, h⟩ := bind_eq_ok.mp h
  obtain ⟨hunused, h⟩ := unit_bind_eq_ok.mp h
  obtain ⟨v, hv, h⟩ := bind_eq_ok.mp h
  obtain ⟨startValue, hstartValue, h⟩ := bind_eq_ok.mp h
  obtain ⟨start, hstart, h⟩ := bind_eq_ok.mp h
  obtain ⟨hstarts, h⟩ := unit_bind_eq_ok.mp h
  obtain ⟨stopsValue, hstopsValue, h⟩ := bind_eq_ok.mp h
  obtain ⟨items, hitems, h⟩ := bind_eq_ok.mp h
  obtain ⟨c, hc, h⟩ := bind_eq_ok.mp h
  obtain ⟨hempty, h⟩ := unit_bind_eq_ok.mp h
  obtain ⟨endValue, hendValue, h⟩ := bind_eq_ok.mp h
  obtain ⟨finish, hfinish, h⟩ := bind_eq_ok.mp h
  obtain ⟨hends, h⟩ := unit_bind_eq_ok.mp h
  obtain ⟨distanceValue, hdistanceValue, h⟩ := bind_eq_ok.mp h
  obtain ⟨distance, hdistance, h⟩ := bind_eq_ok.mp h
  obtain ⟨durationValue, hdurationValue, h⟩ := bind_eq_ok.mp h
  obtain ⟨difference, hdifference, h⟩ := bind_eq_ok.mp h
  obtain ⟨duration, hduration, h⟩ := bind_eq_ok.mp h
  obtain ⟨total, htotal, h⟩ := bind_eq_ok.mp h
  cases h
  obtain ⟨hmem, rfl⟩ := vehicle_eq_ok hv
  rw [require_eq_ok, Bool.and_eq_true, Bool.and_eq_true, Bool.and_eq_true, decide_eq_true_eq,
    decide_eq_true_eq] at hstarts
  obtain ⟨hwindow, hload⟩ := hstarts
  obtain ⟨-, value, -, hvalue, -⟩ := Number.le_iff.mp hwindow.1
  obtain ⟨stops, meters, last, hstops⟩ := checkStops_spec (p := ⟨start, v.location, v.loadAtStart⟩)
    hids ⟨⟨rfl, value, hvalue⟩, rfl, rfl⟩ hc
  have hmeters : c.meters = meters := by rw [hstops.meters, Int.zero_add]
  rw [requireEqual_eq_ok] at hfinish hdistance hduration
  obtain ⟨d, hd, hd'⟩ := Number.equals_iff.mp hduration.2
  have hnew : Key.text v.id ∉ t.used := by
    intro hin
    have hnone := require_eq_ok.mp hunused
    rw [Bool.not_eq_true', List.any_eq_false] at hnone
    exact hnone _ hin (Key.text_equals.mpr rfl)
  refine ⟨⟨v.id, start, finish, distance, duration, stops⟩, meters, ?_, ⟨v, ?_⟩, ?_, rfl, hnew, ?_,
    htotal, hstops.nodup, ?_⟩
  · exact ⟨Json.hash_eq_text hvid ▸ hvehicleIdValue, ⟨_, hstartValue, hstart⟩,
      ⟨_, hendValue, hfinish.1⟩, ⟨_, hdistanceValue, hdistance.1⟩,
      ⟨_, hdurationValue, hduration.1⟩, ⟨_, _, hstopsValue, hitems, hstops.reads⟩⟩
  · refine ⟨⟨hmem, rfl⟩, hwindow, hload, ⟨last, hstops.drives, ?_, ?_⟩, require_eq_ok.mp hends,
      hmeters ▸ hdistance.2, d, ?_, hd⟩
    · rw [← hstops.at'.load]
      exact eq_of_beq (require_eq_ok.mp hempty)
    · rw [← hstops.at'.time.1]
      exact hfinish.2
    · simp only [pythonArithmetic, hdifference, Except.toOption, Option.bind_some, hd']
  · exact hstops.seen
  · rw [← hmeters]
  · intro before stop after hsplit o ho hid hkind hpickup
    rcases List.mem_append.mp (hstops.origin before stop after hsplit o ho hid hkind hpickup) with
      hearlier | hown
    · exact absurd (hused _ hearlier) hnew
    · exact hown

/-- Run: the routes that the outer loop accepts. -/
structure RoutesChecked (data : Payload) (t : Totals) (items : List Json) (t' : Totals)
    (routes : List Route) (meters : List Int) : Prop where
  reads : List.Forall₂ ReadsRoute items routes
  feasible : List.Forall₂ (fun route m ↦ ∃ v, FeasibleRoute pythonArithmetic data v route m)
    routes meters
  seen : t'.seen = t.seen ++ routes.flatMap fun route ↦ visits route.vehicleId route.stops
  used : t'.used = t.used ++ routes.map fun route ↦ .text route.vehicleId
  distance : t'.totalDistance = t.totalDistance + meters.sum
  duration : (routes.map (·.durationSeconds)).foldlM Number.add t.totalDuration =
    .ok t'.totalDuration
  nodup : (t.seen.map (·.1)).Nodup → (t'.seen.map (·.1)).Nodup
  nodupUsed : t.used.Nodup → t'.used.Nodup
  origin : ∀ route ∈ routes, ∀ before stop after, route.stops = before ++ stop :: after →
    OriginBefore data route.vehicleId (visits route.vehicleId before) stop

/-- A loop over the routes that passes has checked every one. -/
theorem checkRoutes_spec (hids : (data.orders.map (·.id)).Nodup) {items : List Json}
    {t t' : Totals} (hused : t.SeenUsed) (h : items.foldlM (checkRoute data) t = .ok t') :
    ∃ routes meters, RoutesChecked data t items t' routes meters := by
  induction items generalizing t with
  | nil =>
    cases h
    refine ⟨[], [], .nil, .nil, ?_, ?_, ?_, rfl, id, id, fun _ hr ↦ (by cases hr)⟩
    · exact (List.append_nil _).symm
    · exact (List.append_nil _).symm
    · exact (Int.add_zero _).symm
  | cons json rest ih =>
    rw [List.foldlM_cons] at h
    obtain ⟨next, hnext, h⟩ := bind_eq_ok.mp h
    obtain ⟨route, m, hroute⟩ := checkRoute_spec hids hused hnext
    have hused' : next.SeenUsed := by
      intro entry hentry
      rw [hroute.used]
      rw [hroute.seen] at hentry
      rcases List.mem_append.mp hentry with hold | hown
      · exact List.mem_append_left _ (hused entry hold)
      · obtain ⟨stop, -, rfl⟩ := List.mem_map.mp hown
        exact List.mem_append_right _ (List.mem_singleton.mpr rfl)
    obtain ⟨routes, meters, hrest⟩ := ih hused' h
    refine ⟨route :: routes, m :: meters, .cons hroute.reads hrest.reads,
      .cons hroute.feasible hrest.feasible, ?_, ?_, ?_, ?_, fun hn ↦ hrest.nodup (hroute.nodup hn),
      ?_, ?_⟩
    · rw [hrest.seen, hroute.seen, List.append_assoc, List.flatMap_cons]
    · rw [hrest.used, hroute.used, List.append_assoc, List.map_cons, List.singleton_append]
    · rw [hrest.distance, hroute.distance, List.sum_cons, Int.add_assoc]
    · rw [List.map_cons, List.foldlM_cons, hroute.duration]
      exact hrest.duration
    · intro hnodup
      refine hrest.nodupUsed ?_
      rw [hroute.used]
      refine List.nodup_append.mpr ⟨hnodup, List.nodup_singleton _, ?_⟩
      intro a ha b hb hab
      rw [hab, List.mem_singleton.mp hb] at ha
      exact hroute.fresh ha
    · intro other hother
      cases hother with
      | head => exact hroute.origin
      | tail _ hother => exact hrest.origin other hother

end PenroseRoute.Optimization.Solver
