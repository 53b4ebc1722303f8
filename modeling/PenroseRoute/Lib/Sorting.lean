import Mathlib.Data.List.Sort

/-!
# Stable sorting

A part of a list is sorted alike within the whole list and by itself. Nothing here depends on
the repository.
-/

namespace PenroseRoute.Lib

universe u

variable {α : Type u} {r : α → α → Prop} [DecidableRel r] [IsTrans α r]

/-- An entry that is kept is inserted in the same place of what is kept. -/
theorem filter_orderedInsert {p : α → Bool} {a : α} {l : List α} (hl : l.Pairwise r) :
    (l.orderedInsert r a).filter p =
      if p a then (l.filter p).orderedInsert r a else l.filter p := by
  induction l with
  | nil => cases hp : p a <;> simp [hp]
  | cons b l ih =>
    obtain ⟨hb, hl⟩ := List.pairwise_cons.mp hl
    by_cases hab : r a b
    · rw [List.orderedInsert_cons_of_le r l hab]
      cases hp : p a with
      | false => simp [hp]
      | true =>
        have hall : ∀ c ∈ (b :: l).filter p, r a c := by
          intro c hc
          rcases List.mem_cons.mp (List.mem_filter.mp hc).1 with rfl | hc
          · exact hab
          · exact trans_of r hab (hb c hc)
        rw [List.filter_cons_of_pos hp, if_pos rfl]
        cases hf : (b :: l).filter p with
        | nil => rfl
        | cons c rest =>
          rw [List.orderedInsert_cons_of_le r rest (hall c (by rw [hf]; exact List.mem_cons_self))]
    · rw [List.orderedInsert_of_not_le r l hab]
      cases hpb : p b with
      | false =>
        rw [List.filter_cons_of_neg (by simp [hpb]), ih hl, List.filter_cons_of_neg (by simp [hpb])]
      | true =>
        rw [List.filter_cons_of_pos hpb, ih hl, List.filter_cons_of_pos hpb]
        split
        · rw [List.orderedInsert_of_not_le r _ hab]
        · rfl

/-- Sorting first and selecting first are the same. -/
theorem filter_insertionSort [Std.Total r] (p : α → Bool) (l : List α) :
    (l.insertionSort r).filter p = (l.filter p).insertionSort r := by
  induction l with
  | nil => rfl
  | cons a l ih =>
    rw [List.insertionSort_cons, filter_orderedInsert (List.pairwise_insertionSort r l), ih,
      List.filter_cons]
    split
    · rw [List.insertionSort_cons]
    · rfl

/-! ### Related lists -/

section

variable {β : Type u} {s : β → β → Prop} [DecidableRel s] {R : α → β → Prop}

omit [IsTrans α r] in
/-- Related entries are inserted in the same place of related lists. -/
theorem forall₂_orderedInsert (hrs : ∀ a a' b b', R a b → R a' b' → (r a a' ↔ s b b'))
    {x : α} {y : β} (hxy : R x y) {xs : List α} {ys : List β} (h : List.Forall₂ R xs ys) :
    List.Forall₂ R (xs.orderedInsert r x) (ys.orderedInsert s y) := by
  induction h with
  | nil => exact .cons hxy .nil
  | @cons a b as bs hab hrest ih =>
    by_cases hle : r x a
    · rw [List.orderedInsert_cons_of_le r as hle,
        List.orderedInsert_cons_of_le s bs ((hrs _ _ _ _ hxy hab).mp hle)]
      exact .cons hxy (.cons hab hrest)
    · rw [List.orderedInsert_of_not_le r as hle,
        List.orderedInsert_of_not_le s bs (mt (hrs _ _ _ _ hxy hab).mpr hle)]
      exact .cons hab ih

omit [IsTrans α r] in
/-- Related lists are sorted alike by orders that agree on what is related. -/
theorem forall₂_insertionSort (hrs : ∀ a a' b b', R a b → R a' b' → (r a a' ↔ s b b'))
    {xs : List α} {ys : List β} (h : List.Forall₂ R xs ys) :
    List.Forall₂ R (xs.insertionSort r) (ys.insertionSort s) := by
  induction h with
  | nil => exact .nil
  | cons hab _ ih => exact forall₂_orderedInsert hrs hab ih

end

end PenroseRoute.Lib
