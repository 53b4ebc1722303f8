/-!
# Grouping by key in order of first occurrence

The dictionary built by `groups.setdefault(key, []).append(value)` over a sequence: keys
in order of first occurrence, each with its values in order. Nothing here depends on the
repository.
-/

namespace PenroseRoute.Lib

universe u v

variable {α : Type u} {κ : Type v} [DecidableEq κ]

/-- One `setdefault`/`append`. -/
def appendGroup (key : α → κ) : List (κ × List α) → α → List (κ × List α)
  | [], a => [(key a, [a])]
  | (k, as) :: rest, a =>
    if k = key a then (k, as ++ [a]) :: rest else (k, as) :: appendGroup key rest a

/-- The whole dictionary. -/
def groupByKey (key : α → κ) (xs : List α) : List (κ × List α) :=
  xs.foldl (appendGroup key) []

/-- Appending one value adds at most its own key. -/
theorem mem_keys_appendGroup (key : α → κ) (groups : List (κ × List α)) (a : α) (k : κ) :
    k ∈ (appendGroup key groups a).map Prod.fst ↔ k = key a ∨ k ∈ groups.map Prod.fst := by
  induction groups with
  | nil => simp [appendGroup]
  | cons g rest ih =>
    rcases g with ⟨k', as⟩
    rw [appendGroup]
    split
    · next h => simp [h]
    · simp only [List.map_cons, List.mem_cons, ih]
      exact or_left_comm

/-- Appending one value keeps keys unique. -/
theorem nodup_keys_appendGroup (key : α → κ) {groups : List (κ × List α)} (a : α)
    (h : (groups.map Prod.fst).Nodup) : ((appendGroup key groups a).map Prod.fst).Nodup := by
  induction groups with
  | nil => simp [appendGroup]
  | cons g rest ih =>
    rcases g with ⟨k', as⟩
    simp only [List.map_cons, List.nodup_cons] at h
    rw [appendGroup]
    split
    · next he => simpa [he] using h
    · next he =>
      simp only [List.map_cons, List.nodup_cons]
      refine ⟨?_, ih h.2⟩
      rw [mem_keys_appendGroup]
      rintro (hk | hk)
      · exact he hk
      · exact h.1 hk

/-- A dictionary records exactly the values of a sequence, key by key. -/
def Records (key : α → κ) (groups : List (κ × List α)) (xs : List α) : Prop :=
  ∀ k as, (k, as) ∈ groups ↔ as = xs.filter (fun x ↦ key x = k) ∧ as ≠ []

private theorem mem_appendGroup (key : α → κ) {groups : List (κ × List α)} (a : α)
    (hd : (groups.map Prod.fst).Nodup) (k : κ) (as : List α) :
    (k, as) ∈ appendGroup key groups a ↔
      if k = key a then
        (∃ old, (k, old) ∈ groups ∧ as = old ++ [a]) ∨ (k ∉ groups.map Prod.fst ∧ as = [a])
      else (k, as) ∈ groups := by
  induction groups with
  | nil =>
    by_cases hk : k = key a <;> simp [appendGroup, hk]
  | cons g rest ih =>
    rcases g with ⟨k', old⟩
    simp only [List.map_cons, List.nodup_cons, List.mem_map, not_exists, not_and] at hd
    have hr := ih hd.2
    rw [appendGroup]
    by_cases he : k' = key a
    · rw [if_pos he]
      by_cases hk : k = key a
      · have hkk : k' = k := he.trans hk.symm
        have hn : ∀ xs, (k, xs) ∉ rest := fun xs hm ↦ hd.1 (k, xs) hm hkk.symm
        rw [if_pos hk]
        simp [hkk, hn]
      · have hkk : k ≠ k' := fun h ↦ hk (h.trans he)
        simp [hk, hkk]
    · rw [if_neg he]
      by_cases hk : k = key a
      · have hkk : k ≠ k' := fun h ↦ he (h.symm.trans hk)
        rw [if_pos hk] at hr ⊢
        simp only [List.mem_cons, Prod.mk.injEq, hkk, false_and, false_or, hr, List.map_cons]
      · rw [if_neg hk] at hr ⊢
        simp only [List.mem_cons, hr]

private theorem records_append (key : α → κ) {groups : List (κ × List α)} {xs : List α} (a : α)
    (hd : (groups.map Prod.fst).Nodup) (hr : Records key groups xs) :
    Records key (appendGroup key groups a) (xs ++ [a]) := by
  intro k as
  rw [mem_appendGroup key a hd]
  have hkey : k ∉ groups.map Prod.fst ↔ xs.filter (fun x ↦ key x = k) = [] := by
    constructor
    · intro h
      apply Classical.byContradiction
      intro hn
      exact h (List.mem_map.mpr ⟨(k, _), (hr k _).mpr ⟨rfl, hn⟩, rfl⟩)
    · intro h hm
      obtain ⟨⟨k', bs⟩, hb, rfl⟩ := List.mem_map.mp hm
      exact ((hr k' bs).mp hb).2 (((hr k' bs).mp hb).1.trans h)
  by_cases hk : k = key a
  · subst hk
    rw [if_pos rfl, hkey]
    simp only [List.filter_append, List.filter_cons, List.filter_nil, decide_true, if_true]
    constructor
    · rintro (⟨old, ho, rfl⟩ | ⟨he, rfl⟩)
      · exact ⟨by rw [((hr _ _).mp ho).1], by simp⟩
      · exact ⟨by rw [he]; rfl, by simp⟩
    · rintro ⟨rfl, -⟩
      by_cases he : xs.filter (fun x ↦ key x = key a) = []
      · exact .inr ⟨he, by rw [he]; rfl⟩
      · exact .inl ⟨_, (hr _ _).mpr ⟨rfl, he⟩, rfl⟩
  · rw [if_neg hk, hr]
    simp [List.filter_append, Ne.symm hk]

/-- Keys of the dictionary are unique. -/
theorem nodup_keys_groupByKey (key : α → κ) (xs : List α) :
    ((groupByKey key xs).map Prod.fst).Nodup := by
  have all (groups : List (κ × List α)) (hd : (groups.map Prod.fst).Nodup) :
      ((xs.foldl (appendGroup key) groups).map Prod.fst).Nodup := by
    induction xs generalizing groups with
    | nil => exact hd
    | cons x xs ih => exact ih _ (nodup_keys_appendGroup key x hd)
  exact all [] List.nodup_nil

/-- The dictionary has an entry for every key that occurs, with exactly its values. -/
theorem mem_groupByKey (key : α → κ) (xs : List α) (k : κ) (as : List α) :
    (k, as) ∈ groupByKey key xs ↔ as = xs.filter (fun x ↦ key x = k) ∧ as ≠ [] := by
  have all (ys : List α) (groups : List (κ × List α)) (hd : (groups.map Prod.fst).Nodup)
      (hr : Records key groups ys) :
      Records key (xs.foldl (appendGroup key) groups) (ys ++ xs) := by
    induction xs generalizing ys groups with
    | nil => simpa using hr
    | cons x xs ih =>
      have h := ih (ys ++ [x]) _ (nodup_keys_appendGroup key x hd) (records_append key x hd hr)
      simpa using h
  have h := all [] [] List.nodup_nil (fun k as ↦ by simp)
  simpa only [groupByKey, List.nil_append] using h k as

end PenroseRoute.Lib
