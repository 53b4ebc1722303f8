import Mathlib.Data.List.Nodup

/-!
# Lists keyed by an identifier

Rows are kept in lists in which a key occurs once. This module has the laws of looking a
key up and of rewriting one row in place. Nothing here depends on the repository.
-/

namespace PenroseRoute.Lib

universe u v

variable {α : Type u} {κ : Type v} [BEq κ] [LawfulBEq κ]

/-- A lookup in a list with unique keys finds exactly the row with the key. -/
theorem find?_key_eq_some_iff {xs : List α} {key : α → κ} (hk : (xs.map key).Nodup) {k : κ}
    {a : α} : xs.find? (fun x ↦ key x == k) = some a ↔ a ∈ xs ∧ key a = k := by
  induction xs with
  | nil => simp
  | cons x xs ih =>
    simp only [List.map_cons, List.nodup_cons, List.mem_map, not_exists, not_and] at hk
    rw [List.find?_cons]
    by_cases hx : key x = k
    · subst hx
      simp only [beq_self_eq_true, Option.some.injEq, List.mem_cons]
      constructor
      · rintro rfl
        exact ⟨.inl rfl, rfl⟩
      · rintro ⟨rfl | ha, he⟩
        · rfl
        · exact absurd he (hk.1 a ha)
    · have hb : (key x == k) = false := by simpa using hx
      rw [hb]
      simp only [ih hk.2, List.mem_cons]
      constructor
      · rintro ⟨ha, he⟩
        exact ⟨.inr ha, he⟩
      · rintro ⟨rfl | ha, he⟩
        · exact absurd he hx
        · exact ⟨ha, he⟩

/-- A key that is not looked up successfully does not occur. -/
theorem find?_key_eq_none_iff {xs : List α} {key : α → κ} {k : κ} :
    xs.find? (fun x ↦ key x == k) = none ↔ ∀ a ∈ xs, key a ≠ k := by
  simp

/-- Rows of a list with unique keys are equal when their keys are. -/
theorem eq_of_key_eq {xs : List α} {key : α → κ} (hk : (xs.map key).Nodup) {a b : α}
    (ha : a ∈ xs) (hb : b ∈ xs) (he : key a = key b) : a = b := by
  have h₁ := (find?_key_eq_some_iff (k := key b) hk).mpr ⟨ha, he⟩
  have h₂ := (find?_key_eq_some_iff (k := key b) hk).mpr ⟨hb, rfl⟩
  exact Option.some.inj (h₁.symm.trans h₂)

/-- In a list sorted by a number, the last entry with a property has the largest number of
all entries with it. -/
theorem le_of_find?_reverse {xs : List α} {rank : α → Nat}
    (hs : xs.Pairwise fun a b ↦ rank a < rank b) {p : α → Bool} {x : α}
    (hx : xs.reverse.find? p = some x) {y : α} (hy : y ∈ xs) (hp : p y = true) :
    rank y ≤ rank x := by
  induction xs with
  | nil => cases hy
  | cons a xs ih =>
    rw [List.reverse_cons, List.find?_append] at hx
    rw [List.pairwise_cons] at hs
    cases hr : xs.reverse.find? p with
    | some last =>
      rw [hr, Option.some_or, Option.some.injEq] at hx
      subst hx
      cases hy with
      | head =>
        have hm : last ∈ xs := List.mem_reverse.mp (List.mem_of_find?_eq_some hr)
        exact Nat.le_of_lt (hs.1 last hm)
      | tail _ hy => exact ih hs.2 hr hy
    | none =>
      rw [hr, Option.none_or, List.find?_singleton] at hx
      split at hx
      · cases hx
        cases hy with
        | head => exact Nat.le_refl _
        | tail _ hy =>
          have hn := List.find?_eq_none.mp hr y (List.mem_reverse.mpr hy)
          exact absurd hp hn
      · cases hx

/-- The rows that a partial reading keeps stand in the order of the table. -/
theorem sublist_map_filterMap {α : Type u} {β : Type v} {read : α → Option β} {row : β → α}
    (h : ∀ a b, read a = some b → row b = a) (rows : List α) :
    ((rows.filterMap read).map row).Sublist rows := by
  induction rows with
  | nil => exact .slnil
  | cons a rest ih =>
    cases hr : read a with
    | none =>
      rw [List.filterMap_cons_none hr]
      exact ih.cons a
    | some b =>
      rw [List.filterMap_cons_some hr, List.map_cons, h a b hr]
      exact ih.cons_cons a

/-! ### Replacing one row -/

omit [BEq κ] [LawfulBEq κ] in
/-- After one row is replaced, any other row has another key than the replaced one. -/
theorem mem_set_key {xs : List α} {key : α → κ} (hk : (xs.map key).Nodup) {i : Nat} {x a b : α}
    (hx : xs[i]? = some x) (hb : b ∈ xs.set i a) : b = a ∨ (b ∈ xs ∧ key b ≠ key x) := by
  obtain ⟨j, hj⟩ := List.mem_iff_getElem?.mp hb
  rw [List.getElem?_set] at hj
  split at hj
  · split at hj
    · exact .inl (Option.some.inj hj).symm
    · cases hj
  · next hij =>
    refine .inr ⟨List.mem_of_getElem? hj, fun he ↦ hij ?_⟩
    have hlt : i < (xs.map key).length := by
      rw [List.length_map]
      exact (List.getElem?_eq_some_iff.mp hx).1
    refine (List.getElem?_inj hlt hk).mp ?_
    rw [List.getElem?_map, List.getElem?_map, hx, hj, Option.map_some, Option.map_some, he]

omit [BEq κ] [LawfulBEq κ] in
/-- Keys stay unique when a row is replaced by one with the same key or a new one. -/
theorem nodup_set_key {xs : List α} {key : α → κ} (hk : (xs.map key).Nodup) {i : Nat} {x a : α}
    (hx : xs[i]? = some x) (ha : key a = key x ∨ key a ∉ xs.map key) :
    ((xs.set i a).map key).Nodup := by
  rw [List.map_set]
  rcases ha with he | hnew
  · obtain ⟨hlt, rfl⟩ := List.getElem?_eq_some_iff.mp hx
    rw [he, ← List.map_set, List.set_getElem_self]
    exact hk
  · exact List.Nodup.set hk hnew

/-- Of different entries, as many are among others of theirs as there are of those. -/
theorem countP_contains {xs us : List κ} (hx : xs.Nodup) (hu : us.Nodup)
    (hsub : ∀ u ∈ us, u ∈ xs) : xs.countP (us.contains ·) = us.length := by
  rw [List.countP_eq_length_filter]
  refine ((List.perm_ext_iff_of_nodup (hx.sublist List.filter_sublist) hu).mpr
    fun k ↦ ?_).length_eq
  rw [List.mem_filter, List.contains_iff_mem]
  exact ⟨And.right, fun hk ↦ ⟨hsub k hk, hk⟩⟩

end PenroseRoute.Lib
