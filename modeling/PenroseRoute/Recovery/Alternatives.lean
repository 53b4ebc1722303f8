import PenroseRoute.Optimization.OrToolsSolver
import PenroseRoute.Optimization.ValidatorAccepts
import PenroseRoute.Recovery.Options

/-!
# The search for alternatives

`solve_alternatives` of `backend/app/modules/recovery/options.py` for a solver that answers each
call as it likes: the calls that the search makes, what becomes of their answers, and how far the
results differ. A signature also counts the routes without stops, so two results may only differ in
these.
-/

namespace PenroseRoute.Optimization

open PenroseRoute.Lib

variable {source : SolverInput} {excluded : List UUID} {result : SolverResult}

/-! ### Fewer vehicles -/

private theorem reaches_withoutVehicles {location : UUID} {departure : Nat}
    {stops : List SolverStop} :
    Reaches (source.withoutVehicles excluded) location departure stops ↔
      Reaches source location departure stops := by
  induction stops generalizing location departure with
  | nil => rfl
  | cons stop rest ih => exact and_congr Iff.rfl ih

private theorem pathDistance_withoutVehicles {location : UUID} {stops : List SolverStop} :
    SolverResultValidator.pathDistance (source.withoutVehicles excluded) location stops =
      SolverResultValidator.pathDistance source location stops := by
  induction stops generalizing location with
  | nil => rfl
  | cons stop rest ih => exact congrArg (source.distance location stop.locationId + ·) ih

/-- A routing for fewer vehicles is one for all. -/
theorem RoutingUpToEmptyRoutes.of_withoutVehicles
    (h : RoutingUpToEmptyRoutes (source.withoutVehicles excluded) result) :
    RoutingUpToEmptyRoutes source result where
  drivable := by
    intro route hroute
    obtain ⟨vehicle, hvehicle, hid, hdrivable, htotals⟩ := h.drivable route hroute
    refine ⟨vehicle, (List.mem_filter.mp hvehicle).1, hid, ?_, fun hne ↦ ?_⟩
    · exact ⟨hdrivable.sequence, hdrivable.load, hdrivable.available,
        reaches_withoutVehicles.mp hdrivable.reaches⟩
    · refine ⟨?_, (htotals hne).duration⟩
      rw [← pathDistance_withoutVehicles]
      exact (htotals hne).distance
  vehicles := h.vehicles
  known := h.known
  knownUnassigned := h.knownUnassigned
  accounted := h.accounted
  frozen := h.frozen
  totalDistance := h.totalDistance
  totalDuration := h.totalDuration

/-- What the validator accepts for fewer vehicles, it accepts for all. -/
theorem validate_of_withoutVehicles
    (h : SolverResultValidator.validate (source.withoutVehicles excluded) result = []) :
    SolverResultValidator.validate source result = [] := by
  by_cases hstatus : result.status = .feasible
  · rw [validate_eq_nil result hstatus] at h ⊢
    exact h.of_withoutVehicles
  · simp only [SolverResultValidator.validate, ne_eq, hstatus, not_false_eq_true, if_true] at h ⊢
    exact h

end PenroseRoute.Optimization

namespace PenroseRoute.Recovery

open PenroseRoute.Db PenroseRoute.Lib PenroseRoute.Optimization

variable {source : SolverInput} {result : SolverResult} {answer : Nat → SolverInput → SolverResult}

/-! ### What a result does -/

/-- The stops that a vehicle makes in a result, in order. -/
def visits (result : SolverResult) (vehicleId : UUID) : List (UUID × StopType × UUID) :=
  (result.routes.find? (·.vehicleId == vehicleId)).elim [] fun route ↦
    route.stops.map fun stop ↦ (stop.orderId, stop.stopType, stop.locationId)

-- The entries of a signature before they are sorted.
private def entries (result : SolverResult) : List (UUID × List (UUID × StopType × UUID)) :=
  result.routes.map fun route ↦ (route.vehicleId, route.stops.map fun stop ↦
    (stop.orderId, stop.stopType, stop.locationId))

private theorem mem_entries (hnodup : (result.routes.map (·.vehicleId)).Nodup) {vehicleId : UUID}
    {stops : List (UUID × StopType × UUID)} :
    (vehicleId, stops) ∈ entries result ↔
      vehicleId ∈ result.routes.map (·.vehicleId) ∧ visits result vehicleId = stops := by
  rw [entries, List.mem_map, List.mem_map]
  constructor
  · rintro ⟨route, hroute, heq⟩
    obtain ⟨rfl, rfl⟩ := Prod.mk.inj heq
    refine ⟨⟨route, hroute, rfl⟩, ?_⟩
    rw [visits, (find?_key_eq_some_iff hnodup).mpr ⟨hroute, rfl⟩]
    rfl
  · rintro ⟨⟨route, hroute, rfl⟩, rfl⟩
    refine ⟨route, hroute, ?_⟩
    rw [visits, (find?_key_eq_some_iff hnodup).mpr ⟨hroute, rfl⟩]
    rfl

private theorem visits_eq_nil {vehicleId : UUID}
    (h : vehicleId ∉ result.routes.map (·.vehicleId)) : visits result vehicleId = [] := by
  have hnone : result.routes.find? (·.vehicleId == vehicleId) = none := by
    rw [find?_key_eq_none_iff]
    exact fun route hroute hid ↦ h (List.mem_map.mpr ⟨route, hroute, hid⟩)
  rw [visits, hnone]
  rfl

/-- Two results have the same signature exactly when their routes are of the same vehicles and each
of these makes the same stops. -/
theorem resultSignature_eq_iff {other : SolverResult}
    (hnodup : (result.routes.map (·.vehicleId)).Nodup)
    (hother : (other.routes.map (·.vehicleId)).Nodup) :
    resultSignature result = resultSignature other ↔
      (∀ vehicleId, vehicleId ∈ result.routes.map (·.vehicleId) ↔
        vehicleId ∈ other.routes.map (·.vehicleId)) ∧ visits result = visits other := by
  change (entries result).insertionSort _ = (entries other).insertionSort _ ↔ _
  have hkeys : ∀ r : SolverResult, (entries r).map (·.1) = r.routes.map (·.vehicleId) := by
    intro r
    rw [entries, List.map_map]
    rfl
  constructor
  · intro heq
    have hperm : (entries result).Perm (entries other) :=
      ((List.perm_insertionSort _ _).symm.trans (.of_eq heq)).trans (List.perm_insertionSort _ _)
    have hvehicles : ∀ vehicleId, vehicleId ∈ result.routes.map (·.vehicleId) ↔
        vehicleId ∈ other.routes.map (·.vehicleId) := by
      intro vehicleId
      rw [← hkeys, ← hkeys]
      exact (hperm.map _).mem_iff
    refine ⟨hvehicles, funext fun vehicleId ↦ ?_⟩
    by_cases hin : vehicleId ∈ result.routes.map (·.vehicleId)
    · have hmem := hperm.mem_iff.mp ((mem_entries hnodup).mpr ⟨hin, rfl⟩)
      exact ((mem_entries hother).mp hmem).2.symm
    · rw [visits_eq_nil hin, visits_eq_nil fun ho ↦ hin ((hvehicles vehicleId).mpr ho)]
  · rintro ⟨hvehicles, hvisits⟩
    have hperm : (entries result).Perm (entries other) := by
      refine (List.perm_ext_iff_of_nodup ?_ ?_).mpr ?_
      · exact List.Nodup.of_map (·.1) (by rw [hkeys]; exact hnodup)
      · exact List.Nodup.of_map (·.1) (by rw [hkeys]; exact hother)
      · rintro ⟨vehicleId, stops⟩
        rw [mem_entries hnodup, mem_entries hother, hvehicles, hvisits]
    have htotal : Std.Total fun a b : UUID × List (UUID × StopType × UUID) ↦ a.1 ≤ b.1 :=
      ⟨fun a b ↦ le_total a.1 b.1⟩
    have htrans : IsTrans (UUID × List (UUID × StopType × UUID)) fun a b ↦ a.1 ≤ b.1 :=
      ⟨fun _ _ _ ↦ le_trans⟩
    refine List.Perm.eq_of_pairwise ?_ (List.pairwise_insertionSort _ _)
      (List.pairwise_insertionSort _ _)
      (((List.perm_insertionSort _ _).trans hperm).trans (List.perm_insertionSort _ _).symm)
    intro a b ha hb hab hba
    rw [List.mem_insertionSort] at ha hb
    exact eq_of_key_eq (by rw [hkeys]; exact hother) (hperm.mem_iff.mp ha) hb (le_antisymm hab hba)

/-! ### The calls of a search -/

/-- A call of the solver: the vehicles that its problem leaves out, and the answer. -/
structure SolverCall where
  excluded : List UUID
  result : SolverResult

namespace SolverCall

/-- The problem that was solved. -/
def problem (source : SolverInput) (call : SolverCall) : SolverInput :=
  source.withoutVehicles call.excluded

/-- The answer serves all orders. -/
abbrev Complete (call : SolverCall) : Prop :=
  call.result.status = .feasible ∧ call.result.unassignedOrders = []

/-- The search can go on after the answer. -/
def Usable (source : SolverInput) (call : SolverCall) : Prop :=
  call.result.status ≠ .error ∧
    (call.Complete → SolverResultValidator.validate (call.problem source) call.result = [])

end SolverCall

/-- Keep an answer with a new signature. -/
def addDistinct (results : List SolverResult) (result : SolverResult) : List SolverResult :=
  if (results.map resultSignature).contains (resultSignature result) then results
  else results ++ [result]

/-- The loop of `solve_alternatives`, `options.py:57`, for a solver that answers every call by
itself, with the calls that are left and the calls that are made. -/
def searchAlternatives (answer : Nat → SolverInput → SolverResult) (source : SolverInput)
    (maxCandidates : Nat) : (calls : Nat) → (queue seen : List (List UUID)) →
      (results : List SolverResult) → List SolverCall × Except AppError (List SolverResult)
  | 0, _, _, results => ([], .ok results)
  | calls + 1, queue, seen, results =>
    if results.length ≥ maxCandidates then ([], .ok results)
    else match nextExcluded source queue seen with
      | none => ([], .ok results)
      | some (excluded, queue, seen) =>
        let problem := source.withoutVehicles excluded
        let result := answer calls problem
        if result.status = .error then
          ([⟨excluded, result⟩], .error (.integration "RECOVERY_SOLVER_ERROR"))
        else if result.status ≠ .feasible ∨ result.unassignedOrders ≠ [] then
          let later := searchAlternatives answer source maxCandidates calls queue seen results
          (⟨excluded, result⟩ :: later.1, later.2)
        else if SolverResultValidator.validate problem result ≠ [] ∨
            SolverResultValidator.validate source result ≠ [] then
          ([⟨excluded, result⟩], .error (.integration "RECOVERY_VALIDATION_FAILED"))
        else
          let optional := ((result.routes.map (·.vehicleId)).filter
            (!(requiredVehicles source).contains ·)).dedup.insertionSort (· ≤ ·)
          let wider := (optional.map fun vehicleId ↦
            excluded.orderedInsert (· ≤ ·) vehicleId).filter (!seen.contains ·)
          let later := searchAlternatives answer source maxCandidates calls (queue ++ wider) seen
            (addDistinct results result)
          (⟨excluded, result⟩ :: later.1, later.2)

/-- A solver that depends on its problem only makes it the loop of the workflow. -/
theorem searchAlternatives_eq (services : Services) (maxCandidates calls : Nat)
    (queue seen : List (List UUID)) (results : List SolverResult) :
    (searchAlternatives (fun _ ↦ services.solve) source maxCandidates calls queue seen results).2 =
      exploreAlternatives services source maxCandidates calls queue seen results := by
  induction calls generalizing queue seen results with
  | zero => rfl
  | succ calls ih =>
    rw [searchAlternatives, exploreAlternatives]
    split
    · rfl
    · cases nextExcluded source queue seen with
      | none => rfl
      | some next =>
        dsimp only
        split
        · rfl
        · split
          · exact ih _ _ _
          · split
            · rfl
            · exact ih _ _ _

/-- The next problem has all required vehicles. -/
theorem nextExcluded_required {queue queue' seen seen' : List (List UUID)} {excluded : List UUID}
    (h : nextExcluded source queue seen = some (excluded, queue', seen')) :
    ∀ vehicleId ∈ requiredVehicles source,
      vehicleId ∈ (source.withoutVehicles excluded).vehicles.map (·.vehicleId) := by
  induction queue generalizing seen with
  | nil => cases h
  | cons first queue ih =>
    rw [nextExcluded] at h
    split at h
    · exact ih h
    · split at h
      · next hall =>
        cases h
        intro vehicleId hv
        rw [List.all_eq_true] at hall
        exact List.contains_iff_mem.mp (hall vehicleId hv)
      · exact ih h

/-- What the search makes of the calls: there are no more than it may make, their problems have all
required vehicles, and it returns their complete answers as long as they are usable. -/
structure SearchSpec (answer : Nat → SolverInput → SolverResult) (source : SolverInput)
    (maxCandidates calls : Nat) (results : List SolverResult)
    (search : List SolverCall × Except AppError (List SolverResult)) : Prop where
  calls : search.1.length ≤ calls
  answered : ∀ call ∈ search.1, ∃ left, call.result = answer left (call.problem source)
  required : ∀ call ∈ search.1, ∀ vehicleId ∈ requiredVehicles source,
    vehicleId ∈ (call.problem source).vehicles.map (·.vehicleId)
  usable : (∀ call ∈ search.1, call.Usable source) →
    search.2 = .ok (((search.1.filter (·.Complete)).map (·.result)).foldl addDistinct results)
  unusable : ∀ call ∈ search.1, ¬ call.Usable source → ∀ all, search.2 ≠ .ok all
  bounded : results.length ≤ maxCandidates → ∀ all, search.2 = .ok all →
    all.length ≤ maxCandidates

private theorem SearchSpec.idle {maxCandidates calls : Nat} {results : List SolverResult} :
    SearchSpec answer source maxCandidates calls results ([], .ok results) where
  calls := Nat.zero_le _
  answered := fun _ hc ↦ (by cases hc)
  required := fun _ hc ↦ (by cases hc)
  usable := fun _ ↦ rfl
  unusable := fun _ hc ↦ (by cases hc)
  bounded := by
    intro hle all hall
    cases hall
    exact hle

private theorem SearchSpec.raise {maxCandidates calls : Nat} {results : List SolverResult}
    {call : SolverCall} {error : AppError}
    (hanswer : ∃ left, call.result = answer left (call.problem source))
    (hrequired : ∀ vehicleId ∈ requiredVehicles source,
      vehicleId ∈ (call.problem source).vehicles.map (·.vehicleId))
    (hcall : ¬ call.Usable source) :
    SearchSpec answer source maxCandidates (calls + 1) results ([call], .error error) where
  calls := Nat.succ_le_succ (Nat.zero_le _)
  answered := by
    intro other ho
    rw [List.mem_singleton.mp ho]
    exact hanswer
  required := by
    intro other ho
    rw [List.mem_singleton.mp ho]
    exact hrequired
  usable := fun h ↦ absurd (h call List.mem_cons_self) hcall
  unusable := fun _ _ _ _ hall ↦ (by cases hall)
  bounded := fun _ _ hall ↦ (by cases hall)

private theorem SearchSpec.cons {maxCandidates calls : Nat} {results kept : List SolverResult}
    {call : SolverCall} {later : List SolverCall × Except AppError (List SolverResult)}
    (hlater : SearchSpec answer source maxCandidates calls kept later)
    (hanswer : ∃ left, call.result = answer left (call.problem source))
    (hrequired : ∀ vehicleId ∈ requiredVehicles source,
      vehicleId ∈ (call.problem source).vehicles.map (·.vehicleId))
    (hcall : call.Usable source)
    (hkept : kept = if call.Complete then addDistinct results call.result else results)
    (hbound : kept.length ≤ maxCandidates) :
    SearchSpec answer source maxCandidates (calls + 1) results (call :: later.1, later.2) where
  calls := Nat.succ_le_succ hlater.calls
  answered := by
    intro other ho
    cases ho with
    | head => exact hanswer
    | tail _ ho => exact hlater.answered other ho
  required := by
    intro other ho
    cases ho with
    | head => exact hrequired
    | tail _ ho => exact hlater.required other ho
  usable := by
    intro h
    rw [hlater.usable fun other ho ↦ h other (List.mem_cons_of_mem _ ho), hkept, List.filter_cons]
    by_cases hc : call.Complete
    · rw [if_pos hc, if_pos (decide_eq_true hc)]
      rfl
    · rw [if_neg hc, if_neg (by simpa using hc)]
  unusable := by
    intro other ho hno
    cases ho with
    | head => exact absurd hcall hno
    | tail _ ho => exact hlater.unusable other ho hno
  bounded := fun _ ↦ hlater.bounded hbound

/-- At most one result is added. -/
theorem length_addDistinct (results : List SolverResult) :
    (addDistinct results result).length ≤ results.length + 1 := by
  unfold addDistinct
  split
  · omega
  · rw [List.length_append, List.length_singleton]

/-- The search does what is specified, whatever the answers. -/
theorem searchAlternatives_spec (answer : Nat → SolverInput → SolverResult)
    (maxCandidates calls : Nat) (queue seen : List (List UUID)) (results : List SolverResult)
    (hbound : results.length ≤ maxCandidates) :
    SearchSpec answer source maxCandidates calls results
      (searchAlternatives answer source maxCandidates calls queue seen results) := by
  induction calls generalizing queue seen results with
  | zero => exact .idle
  | succ calls ih =>
    rw [searchAlternatives]
    split
    · exact .idle
    · next hlength =>
      cases hnext : nextExcluded source queue seen with
      | none => exact .idle
      | some next =>
        obtain ⟨excluded, queue, seen⟩ := next
        have hrequired := nextExcluded_required hnext
        dsimp only
        split
        · next herror => exact .raise ⟨_, rfl⟩ hrequired fun h ↦ h.1 herror
        · next herror =>
          split
          · next hincomplete =>
            have hno : ¬ (⟨excluded, answer calls (source.withoutVehicles excluded)⟩ :
                SolverCall).Complete := by
              rintro ⟨hstatus, hassigned⟩
              exact hincomplete.elim (· hstatus) (· hassigned)
            exact (ih queue seen results hbound).cons ⟨_, rfl⟩ hrequired
              ⟨herror, fun h ↦ absurd h hno⟩
              (if_neg hno).symm hbound
          · next hcomplete =>
            rw [not_or, not_ne_iff, not_ne_iff] at hcomplete
            split
            · next hinvalid =>
              refine .raise ⟨_, rfl⟩ hrequired fun h ↦ ?_
              have hvalid := h.2 hcomplete
              exact hinvalid.elim (· hvalid) (· (validate_of_withoutVehicles hvalid))
            · next hvalid =>
              rw [not_or, not_ne_iff, not_ne_iff] at hvalid
              have hle :=
                @length_addDistinct (answer calls (source.withoutVehicles excluded)) results
              refine (ih _ seen _ (by omega)).cons ⟨_, rfl⟩ hrequired ⟨herror, fun _ ↦ hvalid.1⟩
                (if_pos hcomplete).symm (by omega)

/-! ### Different results -/

/-- The results that are kept are answers, have different signatures, and every answer has the
signature of one that is kept. -/
theorem foldl_addDistinct (answers results : List SolverResult)
    (hresults : results.Pairwise fun a b ↦ resultSignature a ≠ resultSignature b) :
    (∀ r ∈ answers.foldl addDistinct results, r ∈ results ∨ r ∈ answers) ∧
      (answers.foldl addDistinct results).Pairwise
        (fun a b ↦ resultSignature a ≠ resultSignature b) ∧
      ∀ r, r ∈ results ∨ r ∈ answers →
        ∃ kept ∈ answers.foldl addDistinct results, resultSignature kept = resultSignature r := by
  induction answers generalizing results with
  | nil =>
    refine ⟨fun r hr ↦ .inl hr, hresults, fun r hr ↦ ⟨r, ?_, rfl⟩⟩
    exact hr.elim id fun h ↦ (by cases h)
  | cons answer answers ih =>
    rw [List.foldl_cons]
    by_cases hknown : (results.map resultSignature).contains (resultSignature answer)
    · have hsame : addDistinct results answer = results := if_pos hknown
      rw [hsame]
      obtain ⟨hfrom, hdistinct, hcover⟩ := ih results hresults
      refine ⟨fun r hr ↦ (hfrom r hr).imp id (List.mem_cons_of_mem _), hdistinct, ?_⟩
      intro r hr
      rcases hr with hr | hr
      · exact hcover r (.inl hr)
      · cases hr with
        | head =>
          obtain ⟨kept, hkept, hsig⟩ := List.mem_map.mp (List.contains_iff_mem.mp hknown)
          obtain ⟨other, ho, hother⟩ := hcover kept (.inl hkept)
          exact ⟨other, ho, hother.trans hsig⟩
        | tail _ hr => exact hcover r (.inr hr)
    · have hnew : addDistinct results answer = results ++ [answer] := if_neg hknown
      rw [hnew]
      have hpairwise : (results ++ [answer]).Pairwise
          fun a b ↦ resultSignature a ≠ resultSignature b := by
        rw [List.pairwise_append]
        refine ⟨hresults, List.pairwise_singleton _ _, fun a ha b hb hab ↦ hknown ?_⟩
        rw [List.mem_singleton.mp hb] at hab
        exact List.contains_iff_mem.mpr (List.mem_map.mpr ⟨a, ha, hab⟩)
      obtain ⟨hfrom, hdistinct, hcover⟩ := ih _ hpairwise
      refine ⟨fun r hr ↦ ?_, hdistinct, fun r hr ↦ hcover r ?_⟩
      · rcases hfrom r hr with h | h
        · rcases List.mem_append.mp h with h | h
          · exact .inl h
          · exact .inr (List.mem_singleton.mp h ▸ List.mem_cons_self)
        · exact .inr (List.mem_cons_of_mem _ h)
      · rcases hr with hr | hr
        · exact .inl (List.mem_append_left _ hr)
        · cases hr with
          | head => exact .inl (List.mem_append_right _ List.mem_cons_self)
          | tail _ hr => exact .inr hr

/-- Every order is served. -/
def FullyAssigned (source : SolverInput) (result : SolverResult) : Prop :=
  result.unassignedOrders = [] ∧
    ∀ order ∈ source.orders, ∃ route ∈ result.routes, ServedOn order route

/-- A complete answer that is accepted serves every order. -/
theorem fullyAssigned_of_accepted (hstatus : result.status = .feasible)
    (hassigned : result.unassignedOrders = [])
    (hvalid : SolverResultValidator.validate source result = []) :
    FullyAssigned source result := by
  refine ⟨hassigned, fun order ho ↦ ?_⟩
  rcases ((validate_eq_nil result hstatus).mp hvalid).accounted order ho with
    ⟨hcount, -⟩ | ⟨-, route, hroute, hserved, -⟩
  · rw [SolverResult.unassignedCount, hassigned] at hcount
    exact absurd hcount (by simp)
  · exact ⟨route, hroute, hserved⟩

/-- What is asked of a search: it ends after three calls at most and returns no more results than
asked for, each of which serves all orders and is accepted for its own problem and for the whole
one; any two of them differ in the stops of some vehicle. No problem omits a required vehicle, and
the second validation never fails alone. -/
structure SearchSound (source : SolverInput) (maxCandidates : Nat)
    (search : List SolverCall × Except AppError (List SolverResult)) : Prop where
  calls : search.1.length ≤ 3
  bounded : ∀ all, search.2 = .ok all → all.length ≤ maxCandidates
  accepted : ∀ all, search.2 = .ok all → ∀ result ∈ all, FullyAssigned source result ∧
    ∃ call ∈ search.1, call.result = result ∧
      SolverResultValidator.validate (call.problem source) result = [] ∧
      SolverResultValidator.validate source result = []
  distinct : ∀ all, search.2 = .ok all → all.Pairwise fun a b ↦ visits a ≠ visits b
  required : ∀ call ∈ search.1, ∀ vehicleId ∈ requiredVehicles source,
    vehicleId ∈ (call.problem source).vehicles.map (·.vehicleId)
  second : ∀ excluded result,
    SolverResultValidator.validate (source.withoutVehicles excluded) result = [] →
      SolverResultValidator.validate source result = []

/-- Complete answers with the same stops also have routes of the same vehicles, unless one of the
answers cannot be used. -/
def EmptyRoutesAgree (source : SolverInput) (calls : List SolverCall) : Prop :=
  (∀ call ∈ calls, call.Usable source) → ∀ a ∈ calls, ∀ b ∈ calls, a.Complete → b.Complete →
    visits a.result = visits b.result → ∀ vehicleId,
      vehicleId ∈ a.result.routes.map (·.vehicleId) ↔ vehicleId ∈ b.result.routes.map (·.vehicleId)

/-- The search is sound for every solver whose answers agree in their empty routes, and for no
other. -/
theorem solveAlternatives_sound_iff (answer : Nat → SolverInput → SolverResult)
    (source : SolverInput) (maxCandidates : CandidateLimit) :
    SearchSound source maxCandidates
        (searchAlternatives answer source maxCandidates 3 [[]] [] []) ↔
      EmptyRoutesAgree source
        (searchAlternatives answer source maxCandidates 3 [[]] [] []).1 := by
  have hspec := @searchAlternatives_spec source answer maxCandidates 3 [[]] [] [] (Nat.zero_le _)
  generalize searchAlternatives answer source maxCandidates 3 [[]] [] [] = search at hspec ⊢
  obtain ⟨hfrom, hdistinct, hcover⟩ := foldl_addDistinct
    ((search.1.filter (·.Complete)).map (·.result)) [] .nil
  have hok : ∀ all, search.2 = .ok all → (∀ call ∈ search.1, call.Usable source) ∧
      all = ((search.1.filter (·.Complete)).map (·.result)).foldl addDistinct [] := by
    intro all hall
    have husable : ∀ call ∈ search.1, call.Usable source := by
      intro call hcall
      apply Classical.byContradiction
      exact fun hno ↦ hspec.unusable call hcall hno all hall
    exact ⟨husable, Except.ok.inj (hall.symm.trans (hspec.usable husable))⟩
  have hcomplete : ∀ r, r ∈ (search.1.filter (·.Complete)).map (·.result) ↔
      ∃ call ∈ search.1, call.Complete ∧ call.result = r := by
    intro r
    simp only [List.mem_map, List.mem_filter, decide_eq_true_eq, and_assoc]
  have hvehicles : ∀ call ∈ search.1, call.Usable source → call.Complete →
      (call.result.routes.map (·.vehicleId)).Nodup := by
    intro call _ husable hc
    exact ((validate_eq_nil call.result hc.1).mp (husable.2 hc)).vehicles
  constructor
  · intro h husable a ha b hb hca hcb hvisits
    have hall := hspec.usable husable
    obtain ⟨keptA, hkeptA, hsigA⟩ := hcover a.result (.inr ((hcomplete _).mpr ⟨a, ha, hca, rfl⟩))
    obtain ⟨keptB, hkeptB, hsigB⟩ := hcover b.result (.inr ((hcomplete _).mpr ⟨b, hb, hcb, rfl⟩))
    have hkept : ∀ kept ∈ ((search.1.filter (·.Complete)).map (·.result)).foldl addDistinct [],
        (kept.routes.map (·.vehicleId)).Nodup := by
      intro kept hkept
      obtain ⟨call, hcall, hc, rfl⟩ := (hcomplete kept).mp
        ((hfrom kept hkept).resolve_left fun hin ↦ by cases hin)
      exact hvehicles call hcall (husable call hcall) hc
    obtain ⟨hroutesA, hvisitsA⟩ := (resultSignature_eq_iff (hkept keptA hkeptA)
      (hvehicles a ha (husable a ha) hca)).mp hsigA
    obtain ⟨hroutesB, hvisitsB⟩ := (resultSignature_eq_iff (hkept keptB hkeptB)
      (hvehicles b hb (husable b hb) hcb)).mp hsigB
    have hsame : keptA = keptB := by
      refine List.inj_on_of_nodup_map (List.pairwise_map.mpr (h.distinct _ hall)) hkeptA hkeptB ?_
      rw [hvisitsA, hvisitsB, hvisits]
    intro vehicleId
    rw [← hroutesA, hsame, hroutesB]
  · intro h
    refine ⟨hspec.calls, hspec.bounded (Nat.zero_le _), ?_, ?_, hspec.required,
      fun _ _ ↦ validate_of_withoutVehicles⟩
    · intro all hall result hresult
      obtain ⟨husable, rfl⟩ := hok all hall
      obtain ⟨call, hcall, hc, rfl⟩ := (hcomplete result).mp
        ((hfrom result hresult).resolve_left fun hin ↦ by cases hin)
      have hvalid := (husable call hcall).2 hc
      have hsource := validate_of_withoutVehicles hvalid
      exact ⟨fullyAssigned_of_accepted hc.1 hc.2 hsource, call, hcall, rfl, hvalid, hsource⟩
    · intro all hall
      obtain ⟨husable, rfl⟩ := hok all hall
      refine hdistinct.imp_of_mem ?_
      intro a b ha hb hsig hvisits
      obtain ⟨callA, hcallA, hcA, rfl⟩ := (hcomplete a).mp
        ((hfrom a ha).resolve_left fun hin ↦ by cases hin)
      obtain ⟨callB, hcallB, hcB, rfl⟩ := (hcomplete b).mp
        ((hfrom b hb).resolve_left fun hin ↦ by cases hin)
      refine hsig ((resultSignature_eq_iff (hvehicles callA hcallA (husable _ hcallA) hcA)
        (hvehicles callB hcallB (husable _ hcallB) hcB)).mpr ⟨?_, hvisits⟩)
      exact h husable callA hcallA callB hcallB hcA hcB hvisits

/-- Without empty routes, the vehicles with a route are those that make stops. -/
theorem visits_ne_nil_iff (hempty : result.NoEmptyRoute) {vehicleId : UUID} :
    visits result vehicleId ≠ [] ↔ vehicleId ∈ result.routes.map (·.vehicleId) := by
  constructor
  · intro hne
    by_contra hnone
    exact hne (visits_eq_nil hnone)
  · intro hin
    obtain ⟨route, hroute, hid⟩ := List.mem_map.mp hin
    cases hfound : result.routes.find? (·.vehicleId == vehicleId) with
    | none => exact absurd hid (find?_key_eq_none_iff.mp hfound route hroute)
    | some found =>
      rw [visits, hfound]
      simpa using hempty found (List.mem_of_find?_eq_some hfound)

/-- The search is sound for every solver without empty routes. -/
theorem solveAlternatives_sound (hanswer : ∀ left problem, (answer left problem).NoEmptyRoute)
    (source : SolverInput) (maxCandidates : CandidateLimit) :
    SearchSound source maxCandidates
      (searchAlternatives answer source maxCandidates 3 [[]] [] []) := by
  have hspec := @searchAlternatives_spec source answer maxCandidates 3 [[]] [] [] (Nat.zero_le _)
  refine (solveAlternatives_sound_iff answer source maxCandidates).mpr ?_
  intro _ a ha b hb _ _ hvisits vehicleId
  obtain ⟨_, hanswerA⟩ := hspec.answered a ha
  obtain ⟨_, hanswerB⟩ := hspec.answered b hb
  rw [← visits_ne_nil_iff (hanswerA ▸ hanswer _ _), hvisits,
    visits_ne_nil_iff (hanswerB ▸ hanswer _ _)]

/-- The OR-Tools solver returns no empty route. -/
theorem noEmptyRoute_solve (search : RoutingSearch ORToolsSolver.DimensionName)
    (input : SolverInput) : (ORToolsSolver.solve search input).NoEmptyRoute := by
  have hnone : ∀ r : SolverResult, r.routes = [] → r.NoEmptyRoute := by
    intro r hr route hroute
    rw [hr] at hroute
    cases hroute
  unfold ORToolsSolver.solve
  split
  · next result hsolve =>
    unfold ORToolsSolver.solveInput at hsolve
    split at hsolve
    · cases hsolve
      apply hnone
      unfold ORToolsSolver.withoutVehicles
      split <;> rfl
    · obtain ⟨grouped, -, hsolve⟩ := bind_eq_ok.mp hsolve
      obtain ⟨-, hsolve⟩ := unit_bind_eq_ok.mp hsolve
      obtain ⟨⟨own, orderNodes⟩, -, hsolve⟩ := bind_eq_ok.mp hsolve
      obtain ⟨found, -, hsolve⟩ := bind_eq_ok.mp hsolve
      cases found with
      | none =>
        cases hsolve
        exact hnone _ rfl
      | some a =>
        cases hsolve
        intro route hroute
        obtain ⟨⟨vehicle, k⟩, -, hbuilt⟩ := List.mem_filterMap.mp hroute
        dsimp only [ORToolsSolver.buildRoute] at hbuilt
        split at hbuilt
        · cases hbuilt
        · next last hlast =>
          cases hbuilt
          exact List.ne_nil_of_mem (List.mem_of_getLast? hlast)
  · exact hnone _ rfl

/-- The search is sound for the solver that it calls. -/
theorem solveAlternatives_sound_orTools (search : RoutingSearch ORToolsSolver.DimensionName)
    (source : SolverInput) (maxCandidates : CandidateLimit) :
    SearchSound source maxCandidates
      (searchAlternatives (fun _ ↦ ORToolsSolver.solve search) source maxCandidates 3 [[]] [] []) :=
  solveAlternatives_sound (fun _ problem ↦ noEmptyRoute_solve search problem) source maxCandidates

/-! ### Two results with the same stops -/

-- The first vehicle serves the order, and the second has a route without stops. Without the first
-- one there is no answer; without the second one the first serves the order again.
private def repeatingAnswer (calls : Nat) (_ : SolverInput) : SolverResult :=
  if calls = 2 then emptyRouteResult
  else if calls = 1 then ⟨.infeasible, [], [], 0, 0, none⟩
  else { emptyRouteResult with routes := [servingRoute], totalDistanceMeters := 100 }

/-- Both results let the first vehicle pick the order up and deliver it. -/
theorem alternatives_repeated :
    ¬ ∀ (answer : Nat → SolverInput → SolverResult) (source : SolverInput)
      (maxCandidates : CandidateLimit), SearchSound source maxCandidates
        (searchAlternatives answer source maxCandidates 3 [[]] [] []) := by
  intro hclaim
  have hsound := hclaim repeatingAnswer twoVehicleInput ⟨3, by decide⟩
  have hfound : (searchAlternatives repeatingAnswer twoVehicleInput 3 3 [[]] [] []).2 =
      .ok [repeatingAnswer 2 twoVehicleInput, repeatingAnswer 0 twoVehicleInput] := by
    decide +kernel
  have hdistinct := hsound.distinct _ hfound
  rw [List.pairwise_cons] at hdistinct
  refine hdistinct.1 _ List.mem_cons_self (funext fun vehicleId ↦ ?_)
  by_cases hfirst : vehicleId = 20
  · subst hfirst
    rfl
  · by_cases hsecond : vehicleId = 21
    · subst hsecond
      rfl
    · have hother : ∀ left, vehicleId ∉ (repeatingAnswer left twoVehicleInput).routes.map
          (·.vehicleId) := by
        intro left
        unfold repeatingAnswer
        split
        · simp [emptyRouteResult, servingRoute, hfirst, hsecond]
        · split <;> simp [servingRoute, hfirst]
      rw [visits_eq_nil (hother 2), visits_eq_nil (hother 0)]

end PenroseRoute.Recovery
