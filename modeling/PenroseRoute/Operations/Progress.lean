import PenroseRoute.Lib.WorkOrder
import PenroseRoute.Operations.Execution

/-!
# Stops in order

A route is worked off stop by stop: COMPLETED stops come first, then at most one stop that is
ARRIVED or IN_SERVICE, then PLANNED ones, and no stop is reached before the one before it was
left. Every transition that `StopExecutionService` lets through keeps this order.
-/

namespace PenroseRoute.Db

open Lib

/-- The stop is ARRIVED or IN_SERVICE. -/
def RouteStop.InProgress (stop : RouteStop) : Prop :=
  stop.status = .arrived ∨ stop.status = .inService

/-- How far a stop has got, when its status and its actual times fit. -/
def RouteStop.stage (stop : RouteStop) : Option Stage :=
  match stop.status, stop.actualArrivalAt, stop.actualDepartureAt with
  | .planned, none, none => some .waiting
  | .arrived, some arrival, none => some (.begun arrival)
  | .inService, some arrival, none => some (.begun arrival)
  | .completed, some arrival, some departure => some (.ended arrival departure)
  | _, _, _ => none

/-- A route whose stops are worked off in order. -/
structure VehicleRoute.Executed (route : VehicleRoute) : Prop where
  stopIds : (route.stops.map (·.id)).Nodup
  sorted : route.stops.Pairwise fun a b ↦ a.sequenceNo < b.sequenceNo
  inOrder : InOrder RouteStop.stage none route.stops

end PenroseRoute.Db

namespace PenroseRoute.Operations

open PenroseRoute.Db PenroseRoute.Lib

/-! ### Stages of stops -/

variable {stop : RouteStop}

/-- A stop waits when it is PLANNED and has no actual times. -/
theorem stage_eq_waiting : stop.stage = some .waiting ↔
    stop.status = .planned ∧ stop.actualArrivalAt = none ∧ stop.actualDepartureAt = none := by
  rw [RouteStop.stage]
  split
  · next h₁ h₂ h₃ => simp [h₁, h₂, h₃]
  · next h₁ h₂ h₃ => simp [h₁]
  · next h₁ h₂ h₃ => simp [h₁]
  · next h₁ h₂ h₃ => simp [h₁]
  · next h₁ h₂ h₃ h₄ =>
    refine ⟨nofun, fun h ↦ absurd h.2.2 ?_⟩
    exact fun hd ↦ h₁ h.1 h.2.1 hd

/-- A stop is begun when it is in progress and has only arrived. -/
theorem stage_eq_begun {start : Int} : stop.stage = some (.begun start) ↔
    stop.InProgress ∧ stop.actualArrivalAt = some start ∧ stop.actualDepartureAt = none := by
  rw [RouteStop.stage, RouteStop.InProgress]
  split
  · next h₁ h₂ h₃ => simp [h₁]
  · next h₁ h₂ h₃ => simp [h₁, h₂, h₃]
  · next h₁ h₂ h₃ => simp [h₁, h₂, h₃]
  · next h₁ h₂ h₃ => simp [h₁]
  · next h₁ h₂ h₃ h₄ =>
    refine ⟨nofun, fun h ↦ ?_⟩
    rcases h.1 with hs | hs
    · exact absurd h.2.2 (h₂ _ hs h.2.1)
    · exact absurd h.2.2 (h₃ _ hs h.2.1)

/-- A stop is ended when it is COMPLETED and has both actual times. -/
theorem stage_eq_ended {start finish : Int} : stop.stage = some (.ended start finish) ↔
    stop.status = .completed ∧ stop.actualArrivalAt = some start ∧
      stop.actualDepartureAt = some finish := by
  rw [RouteStop.stage]
  split
  · next h₁ h₂ h₃ => simp [h₁]
  · next h₁ h₂ h₃ => simp [h₁]
  · next h₁ h₂ h₃ => simp [h₁]
  · next h₁ h₂ h₃ => simp [h₁, h₂, h₃]
  · next h₁ h₂ h₃ h₄ =>
    refine ⟨nofun, fun h ↦ absurd h.2.2 ?_⟩
    exact fun hd ↦ h₄ _ _ h.1 h.2.1 hd

/-- A stop with a stage is COMPLETED exactly when it has been ended. -/
theorem ended_of_completed (h : stop.stage ≠ none) (hs : stop.status = .completed) :
    InOrder.Ended RouteStop.stage stop := by
  cases hstage : stop.stage with
  | none => exact absurd hstage h
  | some stage =>
    cases stage with
    | waiting =>
      rw [(stage_eq_waiting.mp hstage).1] at hs
      cases hs
    | begun start =>
      rcases (stage_eq_begun.mp hstage).1 with hb | hb
      · rw [hb] at hs
        cases hs
      · rw [hb] at hs
        cases hs
    | ended start finish => exact ⟨start, finish, hstage⟩

/-! ### One transition -/

namespace StopExecutionService

/-- The three transitions. -/
inductive StopAction where
  | arrive
  | startService
  | complete
  deriving DecidableEq, Repr

/-- The status that a transition starts from. -/
def StopAction.expected : StopAction → StopStatus
  | .arrive => .planned
  | .startService => .arrived
  | .complete => .inService

/-- The status that a transition leads to. -/
def StopAction.target : StopAction → StopStatus
  | .arrive => .arrived
  | .startService => .inService
  | .complete => .completed

/-- A locked stop is one of the database. -/
theorem lockedStop?_mem {db : Database} {stopId : UUID} {plan : DeliveryPlan}
    {route : VehicleRoute} (h : db.lockedStop? stopId = some (plan, route, stop)) :
    plan ∈ db.plans ∧ route ∈ plan.routes ∧ stop ∈ route.stops ∧ stop.id = stopId := by
  obtain ⟨plan', hplan, h⟩ := List.exists_of_findSome?_eq_some h
  obtain ⟨route', hroute, h⟩ := List.exists_of_findSome?_eq_some h
  obtain ⟨stop', hstop, h⟩ := Option.map_eq_some_iff.mp h
  cases h
  have hid : stop.id = stopId := by simpa using List.find?_some hstop
  exact ⟨hplan, hroute, List.mem_of_find?_eq_some hstop, hid⟩

/-- The `previous` stop of `_validate_event_time` is the one right before. -/
theorem previous_eq {pre post : List RouteStop}
    (h : (pre ++ stop :: post).Pairwise fun a b ↦ a.sequenceNo < b.sequenceNo) :
    (pre ++ stop :: post).reverse.find? (·.sequenceNo < stop.sequenceNo) = pre.getLast? := by
  rw [List.pairwise_append, List.pairwise_cons] at h
  obtain ⟨-, ⟨hpost, -⟩, hpre⟩ := h
  have hbehind : post.reverse.find? (fun other ↦ decide (other.sequenceNo < stop.sequenceNo)) =
      none := by
    rw [List.find?_eq_none]
    intro other ho
    rw [decide_eq_true_eq, Nat.not_lt]
    exact Nat.le_of_lt (hpost other (List.mem_reverse.mp ho))
  rw [List.reverse_append, List.reverse_cons, List.append_assoc, List.find?_append, hbehind,
    Option.none_or, List.singleton_append, List.find?_cons_of_neg (by simp)]
  cases hl : pre.reverse with
  | nil =>
    rw [List.reverse_eq_nil_iff.mp hl]
    rfl
  | cons last rest =>
    have hlast : last ∈ pre := List.mem_reverse.mp (hl ▸ List.mem_cons_self)
    rw [List.find?_cons_of_pos (by simpa using hpre last hlast stop List.mem_cons_self),
      ← List.head?_reverse, hl]
    rfl

/-- A transition moves its stop to the next stage, after `since`. -/
theorem InOrder.advance {action : StopAction} {eventTime : Instant} {since : Option Int}
    {rest : List RouteStop} (h : InOrder RouteStop.stage since (stop :: rest))
    (he : stop.status = action.expected) (hs : ∀ t ∈ since, t ≤ eventTime)
    (hown : ∀ arrival, action = .complete → stop.actualArrivalAt = some arrival →
      arrival ≤ eventTime) :
    InOrder RouteStop.stage since (advanceStop action.target eventTime stop :: rest) := by
  cases action with
  | arrive =>
    rcases h.stage_of_mem List.mem_cons_self with hw | ⟨start, hb, -⟩ | ⟨start, finish, hd, -⟩
    · refine h.begin hw (stage_eq_begun.mpr ⟨.inl rfl, rfl, ?_⟩) hs
      exact (stage_eq_waiting.mp hw).2.2
    · rcases (stage_eq_begun.mp hb).1 with hp | hp
      · rw [hp] at he
        cases he
      · rw [hp] at he
        cases he
    · rw [(stage_eq_ended.mp hd).1] at he
      cases he
  | startService =>
    rcases h.stage_of_mem List.mem_cons_self with hw | ⟨start, hb, -⟩ | ⟨start, finish, hd, -⟩
    · rw [(stage_eq_waiting.mp hw).1] at he
      cases he
    · have hserved : (advanceStop StopAction.startService.target eventTime stop).stage =
          some (.begun start) := stage_eq_begun.mpr ⟨.inr rfl, (stage_eq_begun.mp hb).2⟩
      refine h.congr ?_
      rw [List.map_cons, List.map_cons, hserved, hb]
    · rw [(stage_eq_ended.mp hd).1] at he
      cases he
  | complete =>
    rcases h.stage_of_mem List.mem_cons_self with hw | ⟨start, hb, -⟩ | ⟨start, finish, hd, -⟩
    · rw [(stage_eq_waiting.mp hw).1] at he
      cases he
    · have harrival := (stage_eq_begun.mp hb).2.1
      exact h.finish hb (stage_eq_ended.mpr ⟨rfl, harrival, rfl⟩) (hown start rfl harrival)
    · rw [(stage_eq_ended.mp hd).1] at he
      cases he

/-- The stops behind a checked transition stay in order. -/
theorem Checked.executed {db : Database} {stopId : UUID} {action : StopAction}
    {eventTime : Instant} {plan : DeliveryPlan} {route : VehicleRoute}
    (h : Checked db stopId action.expected action.target eventTime plan route stop)
    (hroute : route.Executed) : (advanceRoute stop.id action.target eventTime route).Executed := by
  obtain ⟨-, -, hmem, -⟩ := lockedStop?_mem h.locked
  obtain ⟨pre, post, hsplit⟩ := List.append_of_mem hmem
  have hids := hroute.stopIds
  have hsorted := hroute.sorted
  have horder := hroute.inOrder
  have hearlier := h.sequence
  have htime := h.inTime
  rw [hsplit] at hids hsorted horder hearlier htime
  have hstops : (advanceRoute stop.id action.target eventTime route).stops =
      pre ++ advanceStop action.target eventTime stop :: post := by
    have hupdate : updateWhere (pre ++ stop :: post) (·.id == stop.id)
        (advanceStop action.target eventTime) =
        pre ++ advanceStop action.target eventTime stop :: post := updateWhere_split hids _
    rw [← hsplit] at hupdate
    rw [advanceRoute]
    split <;> split <;> exact hupdate
  have hsame : ∀ {α : Type} (f : RouteStop → α), (∀ other, f (advanceStop action.target eventTime
      other) = f other) → (pre ++ advanceStop action.target eventTime stop :: post).map f =
        (pre ++ stop :: post).map f := by
    intro α f hf
    rw [List.map_append, List.map_cons, hf, List.map_append, List.map_cons]
  have hid : ∀ other, (advanceStop action.target eventTime other).id = other.id := by
    intro other
    cases action <;> rfl
  have hsequence : ∀ other, (advanceStop action.target eventTime other).sequenceNo =
      other.sequenceNo := by
    intro other
    cases action <;> rfl
  have hended : ∀ other ∈ pre, InOrder.Ended RouteStop.stage other := by
    intro other ho
    have hall := List.mem_append_left (stop :: post) ho
    have hlt := (List.pairwise_append.mp hsorted).2.2 other ho stop List.mem_cons_self
    refine ended_of_completed (fun hn ↦ ?_) (hearlier other hall hlt)
    rcases horder.stage_of_mem hall with hw | ⟨start, hb, -⟩ | ⟨start, finish, he, -⟩
    · rw [hn] at hw
      cases hw
    · rw [hn] at hb
      cases hb
    · rw [hn] at he
      cases he
  refine ⟨?_, ?_, ?_⟩
  · rw [hstops, hsame _ hid]
    exact hids
  · have hpairs : ((pre ++ stop :: post).map (·.sequenceNo)).Pairwise (· < ·) :=
      List.pairwise_map.mpr hsorted
    rw [← hsame _ hsequence, ← hstops] at hpairs
    exact List.pairwise_map.mp hpairs
  · rw [hstops]
    obtain ⟨hrest, hput⟩ := horder.split hended
    rw [validateEventTime, previous_eq hsorted] at htime
    rw [raiseFirst_cons_eq_ok, raiseFirst_cons_eq_ok, Bool.and_eq_false_iff] at htime
    obtain ⟨hleft, hown, -⟩ := htime
    refine hput _ (InOrder.advance hrest h.expected ?_ ?_)
    · rcases List.eq_nil_or_concat pre with rfl | ⟨init, last, hconcat⟩
      · exact fun t ht ↦ (by cases ht)
      · rw [List.concat_eq_append] at hconcat
        subst hconcat
        obtain ⟨start, finish, hlast⟩ := hended last (List.mem_append_right _ List.mem_cons_self)
        rw [List.getLast?_concat, Option.bind_some, (stage_eq_ended.mp hlast).2.2,
          Option.any_some, decide_eq_false_iff_not, Int.not_lt] at hleft
        intro t ht
        rw [InOrder.leftAt_concat hlast] at ht
        cases ht
        exact hleft
    · intro arrival ha harrival
      rcases hown with hne | htoo
      · rw [ha] at hne
        cases hne
      · rw [harrival, Option.any_some, decide_eq_false_iff_not, Int.not_lt] at htoo
        exact htoo

end StopExecutionService

end PenroseRoute.Operations
