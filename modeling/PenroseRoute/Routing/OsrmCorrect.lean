import PenroseRoute.Routing.Osrm

/-!
# What a road says about its waypoints

On every payload on which `build_route` returns, the leg indices of the road run through its
coordinates in order and up to the last of them, and each of them is where the legs that the
server has made up to its waypoint end.
-/

namespace PenroseRoute.Routing

open PenroseRoute.Db PenroseRoute.Lib

namespace OsrmRoutingProvider

variable {near : Point → Point → Bool} {server : Server} {place : UUID → Point}

/-! ### Waypoints -/

/-- Every waypoint has its place among the distinct ones, which go on from those before, in
order and up to the last. -/
structure Merged (place : UUID → Point) (distinct all : List Point) (waypoints : List UUID)
    (positions : List Nat) : Prop where
  onward : distinct <+: all
  places : List.Forall₂ (fun waypoint position ↦ all[position]? = some (place waypoint))
    waypoints positions
  sorted : ((distinct.length - 1) :: positions).Pairwise (· ≤ ·)
  last : ((distinct.length - 1) :: positions).getLast? = some (all.length - 1)

/-- The waypoints are merged as they come. -/
theorem mergeEqual_merged {distinct all : List Point} {waypoints : List UUID}
    {positions : List Nat} (h : mergeEqual place distinct waypoints = (all, positions))
    (hd : distinct ≠ []) : Merged place distinct all waypoints positions := by
  induction waypoints generalizing distinct positions with
  | nil =>
    cases h
    exact ⟨List.prefix_rfl, .nil, List.pairwise_singleton _ _, rfl⟩
  | cons waypoint rest ih =>
    rw [mergeEqual] at h
    set merged := if distinct.getLast? = some (place waypoint) then distinct
      else distinct ++ [place waypoint] with hmerged
    have hstart : distinct <+: merged := by
      rw [hmerged]
      split
      · exact List.prefix_rfl
      · exact List.prefix_append _ _
    have hne : merged ≠ [] := fun he ↦ hd (List.prefix_nil.mp (he ▸ hstart))
    have hlast : merged[merged.length - 1]? = some (place waypoint) := by
      rw [← List.getLast?_eq_getElem?, hmerged]
      split
      · assumption
      · exact List.getLast?_concat
    cases hrest : mergeEqual place merged rest with
    | mk rest' positions' =>
      rw [hrest] at h
      cases h
      have hih := ih hrest hne
      have hpos : 0 < merged.length := List.length_pos_of_ne_nil hne
      have hle := hstart.length_le
      refine ⟨hstart.trans hih.onward, .cons ?_ hih.places, ?_, ?_⟩
      · rw [List.getElem?_eq_getElem (by omega)] at hlast
        rw [← hlast]
        exact List.prefix_iff_getElem?.mp hih.onward _ (by omega)
      · refine List.pairwise_cons.mpr ⟨fun position hm ↦ ?_, hih.sorted⟩
        rcases List.mem_cons.mp hm with rfl | hm
        · omega
        · have hfrom := (List.pairwise_cons.mp hih.sorted).1 position hm
          omega
      · rw [List.getLast?_cons_cons]
        exact hih.last

/-! ### Legs -/

/-- A coordinate that is read is on the globe. -/
theorem coordinate_onGlobe {json : Json} {point : Point} (h : coordinate json = .ok point) :
    onGlobe point = true := by
  rw [coordinate.eq_def] at h
  split at h
  · split at h
    · next hglobe =>
      cases h
      exact hglobe
    · cases h
  · cases h

/-- A line has two points or more, all of them on the globe. -/
theorem line_ok {json : Json} {points : List Point} (h : line json = .ok points) :
    2 ≤ points.length ∧ ∀ point ∈ points, onGlobe point = true := by
  rw [line.eq_def] at h
  split at h
  · split at h
    · next items _ =>
      obtain ⟨hchecks, h⟩ := unit_bind_eq_ok.mp h
      rw [raiseFirst_cons_eq_ok, raiseFirst_cons_eq_ok, decide_eq_false_iff_not] at hchecks
      have hpoints := mapM_eq_ok_iff.mp h
      have hlength := hpoints.length_eq
      refine ⟨by omega, fun point hp ↦ ?_⟩
      obtain ⟨item, -, hitem⟩ := exists_of_forall₂_right hpoints hp
      exact coordinate_onGlobe hitem
    · cases h
  · cases h

/-- The coordinates behind a step or behind the steps of a leg go on from those before. -/
structure Extended (coordinates extended : List Point) : Prop where
  onward : coordinates <+: extended
  longer : coordinates.length < extended.length
  points : 2 ≤ extended.length
  onGlobe : ∀ point ∈ extended, point ∈ coordinates ∨ onGlobe point = true

/-- What is extended twice is extended. -/
theorem Extended.trans {xs ys zs : List Point} (h : Extended xs ys) (h' : Extended ys zs) :
    Extended xs zs where
  onward := h.onward.trans h'.onward
  longer := h.longer.trans h'.longer
  points := h'.points
  onGlobe point hp := (h'.onGlobe point hp).elim (h.onGlobe point) .inr

/-- Points that are added, all or all but the first. -/
theorem extended_append {coordinates points added : List Point} {json : Json}
    (hne : coordinates ≠ []) (hline : line json = .ok points)
    (hadded : added = points ∨ added = points.tail) :
    Extended coordinates (coordinates ++ added) := by
  obtain ⟨hlength, hglobe⟩ := line_ok hline
  have hpos : 0 < coordinates.length := List.length_pos_of_ne_nil hne
  have hmore : 1 ≤ added.length ∧ ∀ point ∈ added, point ∈ points := by
    rcases hadded with rfl | rfl
    · exact ⟨by omega, fun _ hp ↦ hp⟩
    · refine ⟨?_, fun _ hp ↦ List.mem_of_mem_tail hp⟩
      rw [List.length_tail]
      omega
  refine ⟨List.prefix_append _ _, ?_, ?_, fun point hp ↦ ?_⟩
  · rw [List.length_append]
    omega
  · rw [List.length_append]
    omega
  · rcases List.mem_append.mp hp with hp | hp
    · exact .inl hp
    · exact .inr (hglobe point (hmore.2 point hp))

/-- A step extends the line. -/
theorem appendStep_extended {isFirst : Bool} {coordinates points extended : List Point}
    {json : Json} (hline : line json = .ok points)
    (h : appendStep near isFirst coordinates points = .ok extended) :
    Extended coordinates extended := by
  unfold appendStep at h
  split at h
  · next hnone =>
    cases h
    obtain ⟨hlength, hglobe⟩ := line_ok hline
    rw [List.getLast?_eq_none_iff.mp hnone]
    exact ⟨List.nil_prefix, Nat.lt_of_lt_of_le Nat.zero_lt_two hlength, hlength,
      fun point hp ↦ .inr (hglobe point hp)⟩
  · cases h
  · next hsome _ =>
    have hne : coordinates ≠ [] := fun he ↦ by
      rw [he] at hsome
      cases hsome
    split at h
    · cases h
      exact extended_append hne hline (.inr rfl)
    · split at h
      · cases h
      · cases h
        exact extended_append hne hline (.inl rfl)

/-- The steps of a leg extend the line. -/
theorem appendSteps_extended {isFirst : Bool} {coordinates extended : List Point}
    {step : Json} {steps : List Json}
    (h : appendSteps near isFirst coordinates (step :: steps) = .ok extended) :
    Extended coordinates extended := by
  induction steps generalizing isFirst coordinates step with
  | nil =>
    rw [appendSteps] at h
    obtain ⟨points, hline, h⟩ := bind_eq_ok.mp h
    obtain ⟨behind, hstep, h⟩ := bind_eq_ok.mp h
    cases h
    exact appendStep_extended hline hstep
  | cons next rest ih =>
    rw [appendSteps] at h
    obtain ⟨points, hline, h⟩ := bind_eq_ok.mp h
    obtain ⟨behind, hstep, h⟩ := bind_eq_ok.mp h
    exact (appendStep_extended hline hstep).trans (ih h)

/-- One leg goes through its steps and ends where they do. -/
theorem appendLegs_cons {coordinates all : List Point} {ends allEnds : List Nat} {leg : Json}
    {legs : List Json} (h : appendLegs near coordinates ends (leg :: legs) = .ok (all, allEnds)) :
    ∃ behind, Extended coordinates behind ∧
      (∀ more, appendLegs near coordinates ends (leg :: more) =
        appendLegs near behind (ends ++ [behind.length - 1]) more) ∧
      appendLegs near behind (ends ++ [behind.length - 1]) legs = .ok (all, allEnds) := by
  cases leg with
  | object members =>
    cases hsteps : Json.get members "steps" with
    | array items =>
      cases items with
      | nil => simp [appendLegs, hsteps] at h
      | cons step steps =>
        have hrun : ∀ more, appendLegs near coordinates ends (.object members :: more) =
            (appendSteps near true coordinates (step :: steps) >>= fun extended ↦
              appendLegs near extended (ends ++ [extended.length - 1]) more) := by
          intro more
          rw [appendLegs, hsteps]
        rw [hrun] at h
        obtain ⟨behind, hbehind, h⟩ := bind_eq_ok.mp h
        refine ⟨behind, appendSteps_extended hbehind, fun more ↦ ?_, h⟩
        rw [hrun, hbehind]
        rfl
    | _ => simp [appendLegs, hsteps] at h
  | _ => simp [appendLegs] at h

/-- The legs end one behind the other, each where the legs up to it do. -/
structure Travelled (near : Point → Point → Bool) (coordinates all : List Point)
    (ends more : List Nat) (legs : List Json) : Prop where
  onward : coordinates <+: all
  onGlobe : ∀ point ∈ all, point ∈ coordinates ∨ onGlobe point = true
  count : more.length = legs.length
  sorted : more.Pairwise (· < ·)
  behind : ∀ index ∈ more, coordinates.length ≤ index ∧ 1 ≤ index
  last : ((coordinates.length - 1) :: more).getLast? = some (all.length - 1)
  legs : ∀ k index, more[k]? = some index → ∃ sofar,
    appendLegs near coordinates ends (legs.take (k + 1)) = .ok (all.take (index + 1), sofar)

/-- The legs are travelled one after the other. -/
theorem appendLegs_travelled {coordinates all : List Point} {ends allEnds : List Nat}
    {legs : List Json} (h : appendLegs near coordinates ends legs = .ok (all, allEnds)) :
    ∃ more, allEnds = ends ++ more ∧ Travelled near coordinates all ends more legs := by
  induction legs generalizing coordinates ends with
  | nil =>
    rw [appendLegs] at h
    cases h
    exact ⟨[], (List.append_nil _).symm, List.prefix_rfl, fun _ hp ↦ .inl hp, rfl, .nil,
      fun _ hm ↦ (by cases hm), rfl, fun _ _ hk ↦ (by cases hk)⟩
  | cons leg rest ih =>
    obtain ⟨behind, hbehind, hleg, h⟩ := appendLegs_cons h
    obtain ⟨more, rfl, hmore⟩ := ih h
    have hlonger := hbehind.longer
    have hpoints := hbehind.points
    refine ⟨(behind.length - 1) :: more, by simp, hbehind.onward.trans hmore.onward, ?_, ?_, ?_, ?_,
      ?_, ?_⟩
    · exact fun point hp ↦ (hmore.onGlobe point hp).elim (hbehind.onGlobe point) .inr
    · rw [List.length_cons, List.length_cons, hmore.count]
    · refine List.pairwise_cons.mpr ⟨fun index hi ↦ ?_, hmore.sorted⟩
      have hle := (hmore.behind index hi).1
      omega
    · intro index hi
      rcases List.mem_cons.mp hi with rfl | hi
      · omega
      · have hle := hmore.behind index hi
        omega
    · rw [List.getLast?_cons_cons]
      exact hmore.last
    · intro k index hk
      cases k with
      | zero =>
        rw [List.getElem?_cons_zero, Option.some.injEq] at hk
        rw [List.take_succ_cons, List.take_zero, hleg, appendLegs, ← hk,
          Nat.sub_add_cancel (by omega), ← List.prefix_iff_eq_take.mp hmore.onward]
        exact ⟨_, rfl⟩
      | succ k =>
        rw [List.getElem?_cons_succ] at hk
        rw [List.take_succ_cons, hleg]
        exact hmore.legs k index hk

/-- The legs of a payload. -/
def tourLegs (payload : Json) : Option (List Json) :=
  match payload with
  | .object members =>
    match Json.get members "routes" with
    | .array (.object route :: _) =>
      match Json.get route "legs" with
      | .array legs => some legs
      | _ => none
    | _ => none
  | _ => none

/-- Why the leg to a waypoint ends at an index of the coordinates: the vehicle has not moved
yet, or the legs of the server up to the place of the waypoint end there. -/
inductive EndsAt (osrm : Osrm) (waypoints : List UUID) (coordinates : List Point)
    (waypoint : UUID) (index : Nat) : Prop where
  | stay (h : ∀ other ∈ waypoints, osrm.place other = osrm.place waypoint)
  | start (first : waypoints.head?.map osrm.place = some (osrm.place waypoint)) (h : index = 0)
  | legs {distinct : List Point} {payload : Json} {legs : List Json} {k : Nat} {sofar : List Nat}
      (answer : osrm.server.route distinct = .ok payload) (tour : tourLegs payload = some legs)
      (destination : distinct[k + 1]? = some (osrm.place waypoint))
      (h : appendLegs osrm.near [] [0] (legs.take (k + 1)) =
        .ok (coordinates.take (index + 1), sofar))

end OsrmRoutingProvider

open OsrmRoutingProvider

/-- A road runs along its waypoints: its leg indices are in order, inside of the coordinates and
end at the last of them, one for each waypoint behind the first and where the leg to it ends. -/
structure Road.Along (osrm : Osrm) (waypoints : List UUID) (road : Road) : Prop where
  points : 2 ≤ road.coordinates.length
  onGlobe : ∀ point ∈ road.coordinates, onGlobe point = true
  sorted : road.legEndIndices.Pairwise (· ≤ ·)
  inside : ∀ index ∈ road.legEndIndices, index < road.coordinates.length
  last : road.legEndIndices.getLast? = some (road.coordinates.length - 1)
  ends : List.Forall₂ (EndsAt osrm waypoints road.coordinates) waypoints.tail road.legEndIndices

namespace OsrmRoutingProvider

variable {osrm : Osrm}

/-- A checked payload is the one that was answered. -/
theorem request_ok {payload : Json} {members : List (String × Json)}
    (h : request payload = .ok members) : payload = .object members := by
  unfold request at h
  split at h
  · split at h
    · obtain ⟨-, h⟩ := unit_bind_eq_ok.mp h
      cases h
      rfl
    · cases h
  · cases h

/-- The road of a tour is made of the legs of the answer. -/
theorem buildTour_ok {distinct : List Point} {positions : List Nat} {road : Road}
    (h : buildTour near server distinct positions = .ok road) :
    ∃ payload legs ends, server.route distinct = .ok payload ∧ tourLegs payload = some legs ∧
      legs.length = distinct.length - 1 ∧
      appendLegs near [] [0] legs = .ok (road.coordinates, ends) ∧
      List.Forall₂ (fun position index ↦ ends[position]? = some index) positions
        road.legEndIndices := by
  obtain ⟨payload, hanswer, h⟩ := bind_eq_ok.mp h
  obtain ⟨members, hmembers, h⟩ := bind_eq_ok.mp h
  obtain ⟨-, h⟩ := unit_bind_eq_ok.mp h
  have hpayload := request_ok hmembers
  split at h
  · next route _ hroutes =>
    split at h
    · next legs hlegs =>
      obtain ⟨hcount, h⟩ := unit_bind_eq_ok.mp h
      obtain ⟨⟨coordinates, ends⟩, hrun, h⟩ := bind_eq_ok.mp h
      obtain ⟨indices, hindices, h⟩ := bind_eq_ok.mp h
      obtain ⟨_, -, h⟩ := bind_eq_ok.mp h
      obtain ⟨_, -, h⟩ := bind_eq_ok.mp h
      cases h
      rw [raiseFirst_cons_eq_ok, bne_eq_false_iff_eq] at hcount
      refine ⟨payload, legs, ends, hanswer, ?_, hcount.1, hrun, ?_⟩
      · rw [hpayload]
        simp only [tourLegs, hroutes, hlegs]
      · refine (mapM_eq_ok_iff.mp hindices).imp fun position index hindex ↦ ?_
        rwa [orRaise_eq_ok] at hindex
    · cases h
  · cases h

/-- A vehicle that stays has a single place, twice. -/
theorem buildStay_ok {point : Point} {count : Nat} {road : Road}
    (h : buildStay server point count = .ok road) :
    ∃ snapped, onGlobe snapped = true ∧ road.coordinates = [snapped, snapped] ∧
      road.legEndIndices = List.replicate count 1 := by
  obtain ⟨payload, -, h⟩ := bind_eq_ok.mp h
  obtain ⟨members, -, h⟩ := bind_eq_ok.mp h
  obtain ⟨-, h⟩ := unit_bind_eq_ok.mp h
  obtain ⟨points, hline, h⟩ := bind_eq_ok.mp h
  obtain ⟨snapped, hhead, h⟩ := bind_eq_ok.mp h
  cases h
  rw [orRaise_eq_ok] at hhead
  exact ⟨snapped, (line_ok hline).2 snapped (List.mem_of_head? hhead), rfl, rfl⟩

/-- A vehicle that stays is at the place of all its waypoints. -/
theorem buildStay_along {first second : UUID} {rest : List UUID} {distinct : List Point}
    {positions : List Nat} {road : Road}
    (hmerged : Merged osrm.place [osrm.place first] distinct (second :: rest) positions)
    (hstays : distinct.length = 1)
    (h : buildStay osrm.server (osrm.place first) (second :: rest).length = .ok road) :
    road.Along osrm (first :: second :: rest) := by
  obtain ⟨snapped, hglobe, hcoordinates, hindices⟩ := buildStay_ok h
  have hplace : ∀ waypoint ∈ first :: second :: rest,
      osrm.place waypoint = osrm.place first := by
    intro waypoint hw
    rcases List.mem_cons.mp hw with rfl | hw
    · rfl
    · obtain ⟨position, -, hposition⟩ := exists_of_forall₂_left hmerged.places hw
      have hall := hmerged.onward.eq_of_length (by rw [hstays, List.length_singleton])
      rw [← hall] at hposition
      exact List.mem_singleton.mp (List.mem_of_getElem? hposition)
  have hindex : ∀ index ∈ road.legEndIndices, index = 1 := by
    intro index hi
    rw [hindices] at hi
    exact List.eq_of_mem_replicate hi
  refine ⟨?_, ?_, ?_, ?_, ?_, ?_⟩
  · rw [hcoordinates]
    exact Nat.le_refl 2
  · intro point hp
    rw [hcoordinates, List.mem_pair, or_self] at hp
    rw [hp]
    exact hglobe
  · rw [hindices, List.pairwise_replicate]
    exact .inr (Nat.le_refl 1)
  · intro index hi
    rw [hindex index hi, hcoordinates]
    exact Nat.one_lt_two
  · rw [hindices, hcoordinates, List.getLast?_replicate]
    rfl
  · rw [hindices, List.tail_cons, List.forall₂_iff_zip]
    refine ⟨(List.length_replicate ..).symm, fun {waypoint index} hm ↦ .stay fun other ho ↦ ?_⟩
    have hw := hplace waypoint (List.mem_cons_of_mem _ (List.of_mem_zip hm).1)
    rw [hplace other ho, hw]

private theorem le_getLast_of_sorted {indices : List Nat} {last index : Nat}
    (hsorted : indices.Pairwise (· < ·)) (hlast : indices.getLast? = some last)
    (hi : index ∈ indices) : index ≤ last := by
  obtain ⟨init, rfl⟩ := List.getLast?_eq_some_iff.mp hlast
  rcases List.mem_append.mp hi with hi | hi
  · exact ((List.pairwise_append.mp hsorted).2.2 index hi last (by simp)).le
  · exact (List.mem_singleton.mp hi).le

/-- A tour of two places or more runs along the waypoints. -/
theorem buildTour_along {first second : UUID} {rest : List UUID} {distinct : List Point}
    {positions : List Nat} {road : Road}
    (hmerged : Merged osrm.place [osrm.place first] distinct (second :: rest) positions)
    (hmoves : distinct.length ≠ 1)
    (h : buildTour osrm.near osrm.server distinct positions = .ok road) :
    road.Along osrm (first :: second :: rest) := by
  obtain ⟨payload, legs, ends, hanswer, htour, hcount, hrun, hindices⟩ := buildTour_ok h
  obtain ⟨more, rfl, htravelled⟩ := appendLegs_travelled hrun
  have hlonger := hmerged.onward.length_le
  have hmore := htravelled.count
  rw [List.length_singleton] at hlonger
  have hlast : ([0] ++ more).getLast? = some (road.coordinates.length - 1) := htravelled.last
  have hsorted : ([0] ++ more).Pairwise (· < ·) :=
    List.pairwise_cons.mpr ⟨fun index hi ↦ (htravelled.behind index hi).2, htravelled.sorted⟩
  have hpoints : 2 ≤ road.coordinates.length := by
    have hne : more ≠ [] := List.ne_nil_of_length_pos (by omega)
    rw [List.singleton_append, List.getLast?_cons, List.getLast?_eq_some_getLast hne] at hlast
    have hpos := (htravelled.behind _ (List.getLast_mem hne)).2
    have heq := Option.some.inj hlast
    rw [Option.getD_some] at heq
    omega
  have hinside : ∀ index ∈ [0] ++ more, index < road.coordinates.length := by
    intro index hi
    have hle := le_getLast_of_sorted hsorted hlast hi
    omega
  have hsecond : positions.getLast? = some (distinct.length - 1) := by
    have hend := hmerged.last
    cases hpositions : positions with
    | nil =>
      have hplaces := hmerged.places
      rw [hpositions] at hplaces
      cases hplaces
    | cons position others =>
      rw [hpositions, List.getLast?_cons_cons] at hend
      exact hend
  refine ⟨hpoints, ?_, ?_, ?_, ?_, ?_⟩
  · exact fun point hp ↦ (htravelled.onGlobe point hp).resolve_left fun hm ↦ (by cases hm)
  · refine pairwise_of_forall₂ ?_ hindices (List.pairwise_cons.mp hmerged.sorted).2
    intro position index position' index' hindex hindex' hle
    rcases Nat.eq_or_lt_of_le hle with rfl | hlt
    · rw [hindex, Option.some.injEq] at hindex'
      exact hindex'.le
    · obtain ⟨hi, rfl⟩ := List.getElem?_eq_some_iff.mp hindex
      obtain ⟨hi', rfl⟩ := List.getElem?_eq_some_iff.mp hindex'
      exact (List.pairwise_iff_getElem.mp hsorted _ _ hi hi' hlt).le
  · intro index hi
    obtain ⟨position, -, hindex⟩ := exists_of_forall₂_right hindices hi
    exact hinside index (List.mem_of_getElem? hindex)
  · obtain ⟨index, hindex, hend⟩ := getLast?_of_forall₂ hindices hsecond
    have hlength : ([0] ++ more).length - 1 = distinct.length - 1 := by
      rw [List.length_append, List.length_singleton]
      omega
    rw [hindex, ← hend, ← hlength, ← List.getLast?_eq_getElem?]
    exact hlast
  · refine (forall₂_trans hmerged.places hindices).imp ?_
    rintro waypoint index ⟨position, hplace, hindex⟩
    cases position with
    | zero =>
      have hfirst := List.prefix_iff_getElem?.mp hmerged.onward 0 (by simp)
      rw [hplace, Option.some.injEq] at hfirst
      exact .start (congrArg some hfirst.symm) (Option.some.inj hindex).symm
    | succ k =>
      rw [List.singleton_append, List.getElem?_cons_succ] at hindex
      obtain ⟨sofar, hsofar⟩ := htravelled.legs k index hindex
      exact .legs hanswer htour hplace hsofar

end OsrmRoutingProvider

/-- On every payload on which `build_route` returns, the road runs along its waypoints. -/
theorem Osrm.buildRoute_along {osrm : Osrm} {waypoints : List UUID} {road : Road}
    (h : osrm.buildRoute waypoints = .ok road) : road.Along osrm waypoints := by
  unfold Osrm.buildRoute OsrmRoutingProvider.buildRoute at h
  split at h
  · next first second rest =>
    cases hmerge : mergeEqual osrm.place [osrm.place first] (second :: rest) with
    | mk distinct positions =>
      rw [hmerge] at h
      have hmerged := mergeEqual_merged hmerge (List.cons_ne_nil _ _)
      dsimp only at h
      split at h
      · next hone => exact buildStay_along hmerged hone h
      · next hmoves => exact buildTour_along hmerged hmoves h
  · cases h

end PenroseRoute.Routing
