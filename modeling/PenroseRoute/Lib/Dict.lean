import Mathlib.Algebra.GroupWithZero.Nat

/-!
# Dictionaries filled by writes

A dictionary as the list of the writes made to it: looking a key up finds the last write to
it, and its entries stand in the order in which their keys were first written. Nothing here
depends on the repository.
-/

namespace PenroseRoute.Lib

universe u v

variable {κ : Type u} {α : Type v} [BEq κ]

/-- The value of a key: that of the last write to it. -/
def lastWrite : List (κ × α) → κ → Option α
  | [], _ => none
  | (k', a) :: rest, k => (lastWrite rest k).or (if k' == k then some a else none)

/-- Nothing is written in an empty dictionary. -/
@[simp] theorem lastWrite_nil (k : κ) : lastWrite ([] : List (κ × α)) k = none := rfl

/-- A later write of the same key counts. -/
@[simp] theorem lastWrite_cons (k' k : κ) (a : α) (rest : List (κ × α)) :
    lastWrite ((k', a) :: rest) k =
      (lastWrite rest k).or (if k' == k then some a else none) := rfl

/-- Later writes come first. -/
theorem lastWrite_append (xs ys : List (κ × α)) (k : κ) :
    lastWrite (xs ++ ys) k = (lastWrite ys k).or (lastWrite xs k) := by
  induction xs with
  | nil => simp
  | cons x xs ih =>
    rcases x with ⟨k', a⟩
    simp only [List.cons_append, lastWrite_cons, ih, Option.or_assoc]

variable [LawfulBEq κ]

/-- A key has no value exactly when it was never written. -/
theorem lastWrite_eq_none_iff (writes : List (κ × α)) (k : κ) :
    lastWrite writes k = none ↔ ∀ w ∈ writes, w.1 ≠ k := by
  induction writes with
  | nil => simp
  | cons w rest ih =>
    rcases w with ⟨k', a⟩
    by_cases he : k' = k <;> simp [ih, he]

/-- A key's value was written for it. -/
theorem mem_of_lastWrite {writes : List (κ × α)} {k : κ} {a : α}
    (h : lastWrite writes k = some a) : (k, a) ∈ writes := by
  induction writes with
  | nil => cases h
  | cons w rest ih =>
    rcases w with ⟨k', a'⟩
    rw [lastWrite_cons, Option.or_eq_some_iff] at h
    rcases h with hr | ⟨-, hw⟩
    · exact List.mem_cons_of_mem _ (ih hr)
    · by_cases he : k' = k
      · simp only [he, beq_self_eq_true, if_true, Option.some.injEq] at hw
        simp [he, hw]
      · simp [he] at hw

/-- A written key has a value. -/
theorem isSome_lastWrite_iff (writes : List (κ × α)) (k : κ) :
    (lastWrite writes k).isSome ↔ ∃ a, (k, a) ∈ writes := by
  constructor
  · intro h
    obtain ⟨a, ha⟩ := Option.isSome_iff_exists.mp h
    exact ⟨a, mem_of_lastWrite ha⟩
  · rintro ⟨a, ha⟩
    rw [Option.isSome_iff_ne_none, ne_eq, lastWrite_eq_none_iff]
    intro h
    exact h _ ha rfl

/-- When every key is written once, a lookup finds exactly the writes. -/
theorem lastWrite_eq_some_iff {writes : List (κ × α)} (hk : (writes.map (·.1)).Nodup) (k : κ)
    (a : α) : lastWrite writes k = some a ↔ (k, a) ∈ writes := by
  constructor
  · exact mem_of_lastWrite
  · intro h
    induction writes with
    | nil => cases h
    | cons w rest ih =>
      rcases w with ⟨k', a'⟩
      simp only [List.map_cons, List.nodup_cons] at hk
      rw [lastWrite_cons, Option.or_eq_some_iff]
      cases h with
      | head =>
        have hn : lastWrite rest k = none := by
          rw [lastWrite_eq_none_iff]
          intro w hw he
          exact hk.1 (List.mem_map.mpr ⟨w, hw, he⟩)
        exact .inr ⟨hn, by simp⟩
      | tail _ h => exact .inl (ih hk.2 h)

/-- Renamed keys have the values of the old ones. -/
theorem lastWrite_map {κ' : Type u} {α' : Type v} [BEq κ'] [LawfulBEq κ'] {f : κ → κ'}
    (hf : Function.Injective f) (g : α → α') (writes : List (κ × α)) (k : κ) :
    lastWrite (writes.map fun write ↦ (f write.1, g write.2)) (f k) =
      (lastWrite writes k).map g := by
  induction writes with
  | nil => rfl
  | cons write rest ih =>
    obtain ⟨k', a⟩ := write
    rw [List.map_cons, lastWrite_cons, lastWrite_cons, ih, Option.map_or]
    by_cases he : k' = k
    · rw [he, if_pos (beq_self_eq_true _), if_pos (beq_self_eq_true _), Option.map_some]
    · rw [if_neg (mt eq_of_beq (mt (@hf _ _) he)), if_neg (mt eq_of_beq he), Option.map_none]

/-- When every row writes its value for each of its keys, a key has the value of the last row
with the key. -/
theorem lastWrite_flatMap {β : Type u} (rows : List β) (keys : β → List κ) (value : β → α)
    (k : κ) :
    lastWrite (rows.flatMap fun row ↦ (keys row).map fun k' ↦ (k', value row)) k =
      (rows.reverse.find? fun row ↦ (keys row).contains k).map value := by
  induction rows with
  | nil => rfl
  | cons row rows ih =>
    have hone : ∀ ks : List κ, lastWrite (ks.map fun k' ↦ (k', value row)) k =
        if ks.contains k then some (value row) else none := by
      intro ks
      induction ks with
      | nil => rfl
      | cons k' ks ihk =>
        rw [List.map_cons, lastWrite_cons, ihk, List.contains_cons]
        by_cases he : k' = k
        · subst he
          cases hc : ks.contains k' <;> simp only [beq_self_eq_true, Bool.true_or, if_true] <;> rfl
        · have h₁ : (k' == k) = false := by simpa using he
          have h₂ : (k == k') = false := by simpa using fun h ↦ he h.symm
          cases hc : ks.contains k <;> simp [h₁, h₂]
    rw [List.flatMap_cons, lastWrite_append, ih, hone, List.reverse_cons, List.find?_append]
    cases hl : rows.reverse.find? fun row ↦ (keys row).contains k with
    | some last => rfl
    | none =>
      rw [Option.map_none, Option.none_or, Option.none_or, List.find?_singleton]
      split <;> rfl

/-- One write: a new key is appended, an old one keeps its place. -/
def insertEntry (entries : List (κ × α)) (write : κ × α) : List (κ × α) :=
  if entries.any (·.1 == write.1) then
    entries.map fun entry ↦ if entry.1 == write.1 then write else entry
  else entries ++ [write]

/-- The entries of a dictionary, by first write of their key. -/
def dictEntries (writes : List (κ × α)) : List (κ × α) := writes.foldl insertEntry []

/-- When every key is written once, the entries are the writes. -/
theorem dictEntries_of_nodup {writes : List (κ × α)} (hk : (writes.map (·.1)).Nodup) :
    dictEntries writes = writes := by
  have hfold : ∀ (writes entries : List (κ × α)),
      ((entries ++ writes).map (·.1)).Nodup →
        writes.foldl insertEntry entries = entries ++ writes := by
    intro writes
    induction writes with
    | nil => simp
    | cons w rest ih =>
      intro entries hk
      have hnew : entries.any (·.1 == w.1) = false := by
        rw [List.any_eq_false]
        intro e he heq
        rw [List.map_append, List.nodup_append] at hk
        exact hk.2.2 e.1 (List.mem_map.mpr ⟨e, he, rfl⟩) w.1 (by simp) (by simpa using heq)
      rw [List.foldl_cons, insertEntry, hnew, if_neg (by simp), ih _ (by simpa using hk)]
      simp
  exact hfold writes [] (by simpa using hk)

/-- The entries after one write: the written one, and the old ones of other keys. -/
theorem mem_insertEntry {entries : List (κ × α)} {write entry : κ × α} :
    entry ∈ insertEntry entries write ↔
      entry = write ∨ entry.1 ≠ write.1 ∧ entry ∈ entries := by
  rw [insertEntry]
  split
  · next hany =>
    obtain ⟨old, hold, hkey⟩ := List.any_eq_true.mp hany
    rw [List.mem_map]
    constructor
    · rintro ⟨e, he, rfl⟩
      split
      · exact .inl rfl
      · next hne => exact .inr ⟨by simpa using hne, he⟩
    · rintro (rfl | ⟨hne, he⟩)
      · exact ⟨old, hold, if_pos hkey⟩
      · exact ⟨entry, he, if_neg (by simpa using hne)⟩
  · next hany =>
    rw [List.mem_append, List.mem_singleton, or_comm]
    refine or_congr_right ⟨fun he ↦ ⟨fun hkey ↦ hany ?_, he⟩, And.right⟩
    exact List.any_eq_true.mpr ⟨entry, he, by simpa using hkey⟩

/-- The keys stay distinct. -/
theorem nodup_insertEntry {entries : List (κ × α)} (h : (entries.map (·.1)).Nodup)
    (write : κ × α) : ((insertEntry entries write).map (·.1)).Nodup := by
  rw [insertEntry]
  split
  · rw [List.map_map]
    have hkeys : entries.map ((·.1) ∘ fun entry ↦ if entry.1 == write.1 then write else entry) =
        entries.map (·.1) := by
      refine List.map_congr_left fun entry _ ↦ ?_
      rw [Function.comp_apply]
      split
      · next he => exact (by simpa using he : entry.1 = write.1).symm
      · rfl
    rw [hkeys]
    exact h
  · next hany =>
    rw [List.map_append, List.nodup_append]
    refine ⟨h, by simp, fun k hk k' hk' heq ↦ hany ?_⟩
    obtain ⟨entry, he, rfl⟩ := List.mem_map.mp hk
    rw [List.map_singleton, List.mem_singleton] at hk'
    exact List.any_eq_true.mpr ⟨entry, he, by simpa using heq.trans hk'⟩

/-- The entries of a dictionary are its keys with what they were last written. -/
theorem dictEntries_spec (writes : List (κ × α)) :
    ((dictEntries writes).map (·.1)).Nodup ∧
      ∀ k a, (k, a) ∈ dictEntries writes ↔ lastWrite writes k = some a := by
  have hfold : ∀ (writes entries : List (κ × α)), (entries.map (·.1)).Nodup →
      ((writes.foldl insertEntry entries).map (·.1)).Nodup ∧
        ∀ k a, (k, a) ∈ writes.foldl insertEntry entries ↔
          lastWrite writes k = some a ∨ lastWrite writes k = none ∧ (k, a) ∈ entries := by
    intro writes
    induction writes with
    | nil => intro entries h; exact ⟨h, fun k a ↦ by simp⟩
    | cons w rest ih =>
      intro entries h
      obtain ⟨hnodup, hmem⟩ := ih (insertEntry entries w) (nodup_insertEntry h w)
      refine ⟨hnodup, fun k a ↦ ?_⟩
      rw [List.foldl_cons, hmem, mem_insertEntry, lastWrite_cons]
      cases hrest : lastWrite rest k with
      | some b => simp
      | none =>
        by_cases hk : w.1 = k
        · subst hk
          simp [Prod.ext_iff, eq_comm]
        · simp [hk, Ne.symm hk, Prod.ext_iff]
  obtain ⟨hnodup, hmem⟩ := hfold writes [] List.nodup_nil
  refine ⟨hnodup, fun k a ↦ ?_⟩
  rw [dictEntries, hmem]
  simp

/-- A sum over the values of a dictionary is one over its keys, in any order. -/
theorem sum_dictEntries {writes : List (κ × α)} {keys : List κ} (hk : keys.Nodup)
    (hkeys : ∀ k, k ∈ keys ↔ (lastWrite writes k).isSome) (f : α → Nat) :
    ((dictEntries writes).map fun entry ↦ f entry.2).sum =
      (keys.map fun k ↦ (lastWrite writes k).elim 0 f).sum := by
  obtain ⟨hnodup, hmem⟩ := dictEntries_spec writes
  have hperm : ((dictEntries writes).map (·.1)).Perm keys := by
    refine (List.perm_ext_iff_of_nodup hnodup hk).mpr fun k ↦ ?_
    rw [hkeys, Option.isSome_iff_exists, List.mem_map]
    constructor
    · rintro ⟨⟨_, a⟩, he, rfl⟩
      exact ⟨a, (hmem _ a).mp he⟩
    · rintro ⟨a, ha⟩
      exact ⟨(k, a), (hmem k a).mpr ha, rfl⟩
  have hvalues : ((dictEntries writes).map fun entry ↦ f entry.2) =
      ((dictEntries writes).map (·.1)).map fun k ↦ (lastWrite writes k).elim 0 f := by
    rw [List.map_map]
    refine List.map_congr_left fun entry he ↦ ?_
    rw [Function.comp_apply, (hmem entry.1 entry.2).mp he]
    rfl
  rw [hvalues]
  exact (hperm.map _).sum_nat

end PenroseRoute.Lib
