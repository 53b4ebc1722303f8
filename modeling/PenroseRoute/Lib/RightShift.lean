import Mathlib.Algebra.Order.Group.Defs
import Mathlib.Data.List.Chain
import Mathlib.Data.List.Forall2
import Mathlib.Order.Basic

/-!
# Right shifts of a tour

A tour of visits with planned times, some of which may not end before a given time. A delay is
carried from visit to visit: what a visit cannot absorb moves all later ones. Carried exactly,
this is the least schedule that moves nothing earlier and keeps the gaps between the visits;
carried through a rounding it keeps them only where the rounding changes nothing. Nothing here
depends on the repository.
-/

namespace PenroseRoute.Lib

universe u

/-- When a visit begins and ends, how long it takes at least and when it ends at the earliest. -/
structure Visit (α : Type u) where
  arrival : α
  departure : α
  service : α
  earliest : Option α

variable {α : Type u} [AddCommGroup α] [LinearOrder α]

namespace Visit

/-- The end of a visit that begins late by `delay`. -/
def leave (v : Visit α) (delay : α) : α :=
  let served := max v.departure (v.arrival + delay + v.service)
  v.earliest.elim served (max served)

/-- The visit that begins late by `delay`. -/
def late (v : Visit α) (delay : α) : Visit α :=
  { v with
    arrival := v.arrival + delay
    departure := v.leave delay }

/-- A visit at another time, not before it was, not too short and not over too early. -/
structure Moved (v w : Visit α) : Prop where
  arrival : v.arrival ≤ w.arrival
  departure : v.departure ≤ w.departure
  served : w.arrival + v.service ≤ w.departure
  ready : ∀ e ∈ v.earliest, e ≤ w.departure

/-- No time of the first visit is later. -/
structure NoLater (v w : Visit α) : Prop where
  arrival : v.arrival ≤ w.arrival
  departure : v.departure ≤ w.departure

/-- The same visit with an end that is allowed no earlier. -/
structure Harder (v w : Visit α) : Prop where
  arrival : w.arrival = v.arrival
  departure : w.departure = v.departure
  service : w.service = v.service
  earliest : ∀ e ∈ v.earliest, ∃ e' ∈ w.earliest, e ≤ e'

/-- The end of a late visit is the least one that it can have. -/
theorem leave_le_iff {v : Visit α} {delay t : α} :
    v.leave delay ≤ t ↔
      v.departure ≤ t ∧ v.arrival + delay + v.service ≤ t ∧ ∀ e ∈ v.earliest, e ≤ t := by
  rw [leave]
  cases v.earliest with
  | none =>
    rw [Option.elim_none, max_le_iff]
    exact ⟨fun h ↦ ⟨h.1, h.2, nofun⟩, fun h ↦ ⟨h.1, h.2.1⟩⟩
  | some e =>
    rw [Option.elim_some, max_le_iff, max_le_iff]
    constructor
    · rintro ⟨⟨hd, hs⟩, he⟩
      refine ⟨hd, hs, fun e' he' ↦ ?_⟩
      cases he'
      exact he
    · rintro ⟨hd, hs, he⟩
      exact ⟨⟨hd, hs⟩, he e rfl⟩

end Visit

/-- The tour behind a delay; `cut` is what is carried on of the delay of a departure. -/
def propagate (cut : α → α) : α → List (Visit α) → List (Visit α)
  | _, [] => []
  | delay, v :: rest => v.late delay :: propagate cut (cut (v.leave delay - v.departure)) rest

/-- The time from one visit to the next one is what it was. -/
def SameGap (p q : Visit α × Visit α) : Prop :=
  q.2.arrival - p.2.departure = q.1.arrival - p.1.departure

/-- Gaps are compared. -/
instance : DecidableRel (@SameGap α _) := fun p q ↦
  inferInstanceAs (Decidable (q.2.arrival - p.2.departure = q.1.arrival - p.1.departure))

/-- Another schedule of a tour: nothing is earlier and all gaps are what they were. -/
structure IsRightShift (visits shifted : List (Visit α)) : Prop where
  moved : List.Forall₂ Visit.Moved visits shifted
  gaps : (visits.zip shifted).IsChain SameGap

/-- Every delay that is carried on to another visit is carried on in full. -/
def CarriesAll (cut : α → α) : α → List (Visit α) → Prop
  | _, [] => True
  | _, [_] => True
  | delay, v :: w :: rest =>
    cut (v.leave delay - v.departure) = v.leave delay - v.departure ∧
      CarriesAll cut (v.leave delay - v.departure) (w :: rest)

/-- Departures that a tour behind a delay can have: none before the planned one, before the end
of the service or too early, and each of them delays the next visit. -/
inductive Departures (cut : α → α) : α → List (Visit α) → List α → Prop where
  | nil {delay : α} : Departures cut delay [] []
  | cons {delay departure : α} {v : Visit α} {rest : List (Visit α)} {departures : List α}
      (planned : v.departure ≤ departure) (served : v.arrival + delay + v.service ≤ departure)
      (ready : ∀ e ∈ v.earliest, e ≤ departure)
      (onward : Departures cut (cut (departure - v.departure)) rest departures) :
      Departures cut delay (v :: rest) (departure :: departures)

variable [IsOrderedAddMonoid α] {cut : α → α} {delay : α} {visits shifted : List (Visit α)}

/-- The delay of a departure is not negative. -/
theorem Visit.sub_departure_nonneg (v : Visit α) (delay : α) :
    0 ≤ v.leave delay - v.departure :=
  sub_nonneg.mpr (Visit.leave_le_iff.mp le_rfl).1

/-- A late visit is a moved one. -/
theorem Visit.moved_late (v : Visit α) (h : 0 ≤ delay) : v.Moved (v.late delay) := by
  obtain ⟨hd, hs, he⟩ := leave_le_iff.mp (le_refl (v.leave delay))
  exact ⟨le_add_of_nonneg_right h, hd, hs, he⟩

/-- A propagated delay moves nothing earlier. -/
theorem propagate_moved (hcut : ∀ d, 0 ≤ d → 0 ≤ cut d) (h : 0 ≤ delay) :
    List.Forall₂ Visit.Moved visits (propagate cut delay visits) := by
  induction visits generalizing delay with
  | nil => exact .nil
  | cons v rest ih => exact .cons (v.moved_late h) (ih (hcut _ (v.sub_departure_nonneg delay)))

/-- The gaps are kept exactly when every delay is carried on in full. -/
theorem propagate_gaps_iff :
    (visits.zip (propagate cut delay visits)).IsChain SameGap ↔ CarriesAll cut delay visits := by
  induction visits generalizing delay with
  | nil => exact ⟨fun _ ↦ trivial, fun _ ↦ .nil⟩
  | cons v rest ih =>
    cases rest with
    | nil => exact ⟨fun _ ↦ trivial, fun _ ↦ .singleton _⟩
    | cons w rest =>
      have hgap : SameGap (v, v.late delay) (w, w.late (cut (v.leave delay - v.departure))) ↔
          cut (v.leave delay - v.departure) = v.leave delay - v.departure := by
        change w.arrival + cut (v.leave delay - v.departure) - v.leave delay =
          w.arrival - v.departure ↔ _
        rw [sub_eq_iff_eq_add, sub_add_eq_add_sub, add_sub_assoc, add_left_cancel_iff]
      have hcons : propagate cut delay (v :: w :: rest) = v.late delay ::
          propagate cut (cut (v.leave delay - v.departure)) (w :: rest) := rfl
      have hhead : (w :: rest).zip (propagate cut (cut (v.leave delay - v.departure)) (w :: rest)) =
          (w, w.late (cut (v.leave delay - v.departure))) :: rest.zip (propagate cut (cut
            (w.leave (cut (v.leave delay - v.departure)) - w.departure)) rest) := rfl
      rw [hcons, List.zip_cons_cons, hhead, List.isChain_cons_cons, ← hhead, ih, hgap, CarriesAll]
      refine and_congr_right fun hfull ↦ ?_
      rw [hfull]

omit [IsOrderedAddMonoid α] in
/-- What is carried on in full is carried on exactly. -/
theorem propagate_eq_exact (h : CarriesAll cut delay visits) :
    propagate cut delay visits = propagate id delay visits := by
  induction visits generalizing delay with
  | nil => rfl
  | cons v rest ih =>
    cases rest with
    | nil => rfl
    | cons w rest =>
      have htail := ih h.2
      rw [propagate, h.1, htail]
      rfl

/-- Carried exactly, a delay moves a tour no further than any right shift does. -/
theorem exact_least (h : IsRightShift visits shifted)
    (hfirst : ∀ v ∈ visits.head?, ∀ w ∈ shifted.head?, v.arrival + delay ≤ w.arrival) :
    List.Forall₂ Visit.NoLater (propagate id delay visits) shifted := by
  obtain ⟨hmoved, hgaps⟩ := h
  induction hmoved generalizing delay with
  | nil => exact .nil
  | @cons v w visits shifted hvw hrest ih =>
    have harrival : v.arrival + delay ≤ w.arrival := hfirst v rfl w rfl
    have hleave : v.leave delay ≤ w.departure := by
      refine Visit.leave_le_iff.mpr ⟨hvw.departure, ?_, hvw.ready⟩
      exact (add_le_add_left harrival v.service).trans hvw.served
    refine .cons ⟨harrival, hleave⟩ (ih ?_ ?_)
    · intro v' hv' w' hw'
      cases hrest with
      | nil => cases hv'
      | cons _ _ =>
        cases hv'
        cases hw'
        rw [List.zip_cons_cons, List.zip_cons_cons, List.isChain_cons_cons] at hgaps
        have hgap : w'.arrival - w.departure = v'.arrival - v.departure := hgaps.1
        rw [sub_eq_iff_eq_add, sub_add_eq_add_sub, add_sub_assoc] at hgap
        rw [hgap]
        exact add_le_add_right (sub_le_sub_right hleave _) _
    · rw [List.zip_cons_cons] at hgaps
      exact hgaps.tail

omit [IsOrderedAddMonoid α] in
/-- The first visit of a right shift begins no earlier. -/
theorem IsRightShift.head_arrival (h : IsRightShift visits shifted) :
    ∀ v ∈ visits.head?, ∀ w ∈ shifted.head?, v.arrival ≤ w.arrival := by
  cases h.moved with
  | nil => exact nofun
  | cons hmoved _ =>
    intro v hv w hw
    cases hv
    cases hw
    exact hmoved.arrival

/-- A later earliest end moves nothing earlier. -/
theorem propagate_mono (hcut : Monotone cut) {harder : List (Visit α)}
    (h : List.Forall₂ Visit.Harder visits harder) {delay' : α} (hd : delay ≤ delay') :
    List.Forall₂ Visit.NoLater (propagate cut delay visits) (propagate cut delay' harder) := by
  induction h generalizing delay delay' with
  | nil => exact .nil
  | @cons v w visits harder hvw _ ih =>
    have hleave : v.leave delay ≤ w.leave delay' := by
      obtain ⟨hdeparture, hserved, hready⟩ := Visit.leave_le_iff.mp (le_refl (w.leave delay'))
      refine Visit.leave_le_iff.mpr ⟨?_, ?_, fun e he ↦ ?_⟩
      · rw [← hvw.departure]
        exact hdeparture
      · rw [← hvw.arrival, ← hvw.service]
        exact (add_le_add_left (add_le_add_right hd _) _).trans hserved
      · obtain ⟨e', he', hle⟩ := hvw.earliest e he
        exact hle.trans (hready e' he')
    refine .cons ⟨?_, hleave⟩ (ih (hcut ?_))
    · change v.arrival + delay ≤ w.arrival + delay'
      rw [hvw.arrival]
      exact add_le_add_right hd _
    · rw [hvw.departure]
      exact sub_le_sub_right hleave _

omit [IsOrderedAddMonoid α] in
/-- The propagated departures are possible ones. -/
theorem departures_propagate :
    Departures cut delay visits ((propagate cut delay visits).map (·.departure)) := by
  induction visits generalizing delay with
  | nil => exact .nil
  | cons v rest ih =>
    obtain ⟨hplanned, hserved, hready⟩ := Visit.leave_le_iff.mp (le_refl (v.leave delay))
    exact .cons hplanned hserved hready ih

/-- No possible departure is earlier than the propagated one. -/
theorem propagate_le_departures (hcut : Monotone cut) {delay' : α} {departures : List α}
    (h : Departures cut delay' visits departures) (hd : delay ≤ delay') :
    List.Forall₂ (fun w departure ↦ w.departure ≤ departure) (propagate cut delay visits)
      departures := by
  induction h generalizing delay with
  | nil => exact .nil
  | @cons delay' departure v rest departures planned served ready _ ih =>
    have hserved : v.arrival + delay + v.service ≤ departure :=
      (add_le_add_left (add_le_add_right hd _) _).trans served
    have hleave : v.leave delay ≤ departure :=
      Visit.leave_le_iff.mpr ⟨planned, hserved, ready⟩
    exact .cons hleave (ih (hcut (sub_le_sub_right hleave _)))

/-- A delayed tour is over by a time exactly when it can be. -/
theorem departures_iff (hcut : Monotone cut) {limit : α} :
    (∃ departures, Departures cut delay visits departures ∧ ∀ t ∈ departures, t ≤ limit) ↔
      ∀ w ∈ propagate cut delay visits, w.departure ≤ limit := by
  constructor
  · rintro ⟨departures, h, hlimit⟩ w hw
    obtain ⟨i, hi, rfl⟩ := List.getElem_of_mem hw
    have hle := propagate_le_departures hcut h le_rfl
    have hlt : i < departures.length := hle.length_eq ▸ hi
    exact ((List.forall₂_iff_get.mp hle).2 i hi hlt).trans (hlimit _ (List.getElem_mem hlt))
  · intro h
    refine ⟨_, departures_propagate, fun t ht ↦ ?_⟩
    obtain ⟨w, hw, rfl⟩ := List.mem_map.mp ht
    exact h w hw

end PenroseRoute.Lib
