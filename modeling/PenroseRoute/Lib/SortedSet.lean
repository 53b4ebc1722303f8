import Mathlib.Data.List.Dedup
import Mathlib.Data.List.Sort

/-!
# Sets listed in order

The entries of a list, each of them once and by the rank of each. Lists with the same entries are
listed alike, and what is selected and what is not add up to the whole. Nothing here depends on
the repository.
-/

namespace PenroseRoute.Lib

universe u v

variable {α : Type u} {β : Type v} [DecidableEq α] [LinearOrder β] {rank : α → β}

/-- `sorted(set(entries), key=rank)`. -/
def sortedSet (rank : α → β) (entries : List α) : List α :=
  entries.dedup.insertionSort fun a b ↦ rank a ≤ rank b

variable {xs ys : List α}

/-- It has the elements of the list. -/
@[simp] theorem mem_sortedSet {a : α} : a ∈ sortedSet rank xs ↔ a ∈ xs := by
  rw [sortedSet, List.mem_insertionSort, List.mem_dedup]

/-- It has each of them once. -/
theorem nodup_sortedSet : (sortedSet rank xs).Nodup :=
  (List.perm_insertionSort _ _).nodup_iff.mpr (List.nodup_dedup xs)

/-- No entry is left twice. -/
theorem nodup_eraseDups (xs : List α) : xs.eraseDups.Nodup := by
  induction hn : xs.length using Nat.strong_induction_on generalizing xs with
  | _ n ih =>
    cases xs with
    | nil => exact List.nodup_nil
    | cons a rest =>
      rw [List.eraseDups_cons, List.nodup_cons]
      constructor
      · simp [List.mem_eraseDups]
      · refine ih _ ?_ _ rfl
        have hle := List.length_filter_le (fun b ↦ !b == a) rest
        rw [List.length_cons] at hn
        omega

omit [DecidableEq α] in
/-- Lists without repeated entries that have the same ones are sorted alike. -/
theorem insertionSort_congr (hrank : Function.Injective rank) (hx : xs.Nodup) (hy : ys.Nodup)
    (h : ∀ a, a ∈ xs ↔ a ∈ ys) :
    xs.insertionSort (fun a b ↦ rank a ≤ rank b) = ys.insertionSort fun a b ↦ rank a ≤ rank b := by
  have hperm : (xs.insertionSort fun a b ↦ rank a ≤ rank b).Perm
      (ys.insertionSort fun a b ↦ rank a ≤ rank b) :=
    ((List.perm_insertionSort _ xs).trans ((List.perm_ext_iff_of_nodup hx hy).mpr h)).trans
      (List.perm_insertionSort _ ys).symm
  have htotal : Std.Total fun a b ↦ rank a ≤ rank b := ⟨fun a b ↦ le_total (rank a) (rank b)⟩
  have htrans : IsTrans α fun a b ↦ rank a ≤ rank b := ⟨fun _ _ _ ↦ le_trans⟩
  refine List.Perm.eq_of_pairwise (fun a b _ _ hab hba ↦ hrank (le_antisymm hab hba))
    (List.pairwise_insertionSort _ xs) (List.pairwise_insertionSort _ ys) hperm

/-- Lists with the same entries are the same set. -/
theorem sortedSet_congr (hrank : Function.Injective rank) (h : ∀ a, a ∈ xs ↔ a ∈ ys) :
    sortedSet rank xs = sortedSet rank ys := by
  refine insertionSort_congr hrank (List.nodup_dedup xs) (List.nodup_dedup ys) fun a ↦ ?_
  rw [List.mem_dedup, List.mem_dedup]
  exact h a

/-- The order of a union does not matter. -/
theorem sortedSet_append_comm (hrank : Function.Injective rank) :
    sortedSet rank (xs ++ ys) = sortedSet rank (ys ++ xs) :=
  sortedSet_congr hrank fun a ↦ by rw [List.mem_append, List.mem_append, or_comm]

/-- Without the repeated entries, a list counts what the set of its entries counts. -/
theorem length_filter_eraseDups (p : α → Bool) :
    (xs.eraseDups.filter p).length = ((sortedSet rank xs).filter p).length := by
  refine List.Perm.length_eq (List.Perm.filter p ?_)
  refine (List.perm_ext_iff_of_nodup (nodup_eraseDups xs) nodup_sortedSet).mpr fun a ↦ ?_
  rw [List.mem_eraseDups, mem_sortedSet]

/-- A list without repeated entries counts the same entries of a set in any order. -/
theorem length_filter_sortedSet (hx : xs.Nodup) {p : α → Bool}
    (h : ∀ a ∈ ys, p a = true → a ∈ xs) :
    ((sortedSet rank (xs ++ ys)).filter p).length = (xs.filter p).length := by
  refine List.Perm.length_eq ((List.perm_ext_iff_of_nodup (nodup_sortedSet.filter p)
    (hx.filter p)).mpr fun a ↦ ?_)
  rw [List.mem_filter, List.mem_filter, mem_sortedSet, List.mem_append]
  constructor
  · rintro ⟨ha | ha, hp⟩
    · exact ⟨ha, hp⟩
    · exact ⟨h a ha hp, hp⟩
  · rintro ⟨ha, hp⟩
    exact ⟨.inl ha, hp⟩

end PenroseRoute.Lib
