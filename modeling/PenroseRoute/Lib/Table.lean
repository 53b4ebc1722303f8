/-!
# Tables

Rows in a list, and the update of the rows that satisfy a condition. Nothing here depends on
the repository.
-/

namespace PenroseRoute.Lib

universe u v

variable {α : Type u} {β : Type v}

/-- Rewrite the rows that satisfy a condition. -/
def updateWhere (rows : List α) (cond : α → Bool) (f : α → α) : List α :=
  rows.map fun row ↦ if cond row then f row else row

/-- There is no row to update. -/
@[simp] theorem updateWhere_nil (cond : α → Bool) (f : α → α) :
    updateWhere [] cond f = [] := rfl

/-- The first row is updated if it meets the condition. -/
@[simp] theorem updateWhere_cons (row : α) (rows : List α) (cond : α → Bool) (f : α → α) :
    updateWhere (row :: rows) cond f =
      (if cond row then f row else row) :: updateWhere rows cond f := rfl

/-- An update keeps the number of rows. -/
@[simp] theorem length_updateWhere (rows : List α) (cond : α → Bool) (f : α → α) :
    (updateWhere rows cond f).length = rows.length := List.length_map _

/-- An updated table has the old rows, rewritten or not. -/
theorem mem_updateWhere {rows : List α} {cond : α → Bool} {f : α → α} {row : α} :
    row ∈ updateWhere rows cond f ↔
      ∃ old ∈ rows, (cond old = true ∧ row = f old) ∨ (cond old = false ∧ row = old) := by
  rw [updateWhere, List.mem_map]
  constructor
  · rintro ⟨old, hold, rfl⟩
    refine ⟨old, hold, ?_⟩
    cases hc : cond old with
    | true => exact .inl ⟨rfl, rfl⟩
    | false => exact .inr ⟨rfl, rfl⟩
  · rintro ⟨old, hold, ⟨hc, rfl⟩ | ⟨hc, rfl⟩⟩
    · exact ⟨old, hold, if_pos hc⟩
    · exact ⟨row, hold, if_neg (by rw [hc]; exact Bool.false_ne_true)⟩

/-- A row that the condition leaves alone stays. -/
theorem mem_updateWhere_of_false {rows : List α} {cond : α → Bool} {f : α → α} {row : α}
    (h : row ∈ rows) (hc : cond row = false) : row ∈ updateWhere rows cond f :=
  mem_updateWhere.mpr ⟨row, h, .inr ⟨hc, rfl⟩⟩

/-- A row that satisfies the condition is rewritten. -/
theorem mem_updateWhere_of_true {rows : List α} {cond : α → Bool} {f : α → α} {row : α}
    (h : row ∈ rows) (hc : cond row = true) : f row ∈ updateWhere rows cond f :=
  mem_updateWhere.mpr ⟨row, h, .inl ⟨hc, rfl⟩⟩

/-- A condition that no row satisfies changes nothing. -/
theorem updateWhere_eq_self {rows : List α} {cond : α → Bool} {f : α → α}
    (h : ∀ row ∈ rows, cond row = false) : updateWhere rows cond f = rows := by
  induction rows with
  | nil => rfl
  | cons row rows ih =>
    rw [List.forall_mem_cons] at h
    rw [updateWhere_cons, ih h.2, h.1]
    rfl

/-- A rewriting that no selected row shows changes nothing. -/
theorem updateWhere_eq_self_of_fixed {rows : List α} {cond : α → Bool} {f : α → α}
    (h : ∀ row ∈ rows, cond row = true → f row = row) : updateWhere rows cond f = rows := by
  have hmap : rows.map (fun row ↦ if cond row then f row else row) = rows.map id := by
    refine List.map_congr_left fun row hrow ↦ ?_
    split
    · next hc => exact h row hrow hc
    · rfl
  rw [updateWhere, hmap, List.map_id]

/-- An update of two tables one after the other. -/
theorem updateWhere_append (xs ys : List α) (cond : α → Bool) (f : α → α) :
    updateWhere (xs ++ ys) cond f = updateWhere xs cond f ++ updateWhere ys cond f :=
  List.map_append

/-- Updates that agree on every row agree. -/
theorem updateWhere_congr {rows : List α} {cond cond' : α → Bool} {f f' : α → α}
    (h : ∀ row ∈ rows, (if cond row then f row else row) = if cond' row then f' row else row) :
    updateWhere rows cond f = updateWhere rows cond' f' :=
  List.map_congr_left h

/-- An update of a row with a new key rewrites that row only. -/
theorem updateWhere_append_new {κ : Type v} [BEq κ] [LawfulBEq κ] {rows : List α} {key : α → κ}
    {row : α} (f : α → α) (h : ∀ other ∈ rows, key other ≠ key row) :
    updateWhere (rows ++ [row]) (fun other ↦ key other == key row) f = rows ++ [f row] := by
  rw [updateWhere_append, updateWhere_eq_self fun other ho ↦ beq_false_of_ne (h other ho),
    updateWhere_cons, beq_self_eq_true]
  rfl

/-- What the rewriting preserves, the update preserves. -/
theorem map_updateWhere {rows : List α} {cond : α → Bool} {f : α → α} {g : α → β}
    (hg : ∀ row, g (f row) = g row) : (updateWhere rows cond f).map g = rows.map g := by
  rw [updateWhere, List.map_map]
  refine List.map_congr_left fun row _ ↦ ?_
  change g (if cond row then f row else row) = g row
  cases cond row with
  | true => exact hg row
  | false => rfl

/-- An update seen through a projection that its condition and its rewriting respect. -/
theorem map_updateWhere_comm {rows : List α} {cond : α → Bool} {f : α → α} {g : α → β}
    {cond' : β → Bool} {f' : β → β} (hc : ∀ row ∈ rows, cond row = cond' (g row))
    (hf : ∀ row, g (f row) = f' (g row)) :
    (updateWhere rows cond f).map g = updateWhere (rows.map g) cond' f' := by
  rw [updateWhere, updateWhere, List.map_map, List.map_map]
  refine List.map_congr_left fun row hrow ↦ ?_
  change g (if cond row then f row else row) = if cond' (g row) then f' (g row) else g row
  rw [← hc row hrow]
  cases cond row with
  | true => exact hf row
  | false => rfl

/-- A filter that does not see the rewriting selects the same rows, rewritten. -/
theorem filter_updateWhere {rows : List α} {cond : α → Bool} {f : α → α} {p : α → Bool}
    (hp : ∀ row, p (f row) = p row) :
    (updateWhere rows cond f).filter p = updateWhere (rows.filter p) cond f := by
  induction rows with
  | nil => rfl
  | cons row rows ih =>
    rw [updateWhere_cons, List.filter_cons, List.filter_cons, ih]
    have hrow : p (if cond row then f row else row) = p row := by
      split
      · exact hp row
      · rfl
    rw [hrow]
    split <;> rfl

/-- A search that does not see the rewriting finds the same row, rewritten. -/
theorem find?_updateWhere {rows : List α} {cond : α → Bool} {f : α → α} {p : α → Bool}
    (hp : ∀ row, p (f row) = p row) :
    (updateWhere rows cond f).find? p =
      (rows.find? p).map fun row ↦ if cond row then f row else row := by
  induction rows with
  | nil => rfl
  | cons row rows ih =>
    rw [updateWhere_cons, List.find?_cons, List.find?_cons]
    have hrow : p (if cond row then f row else row) = p row := by
      split
      · exact hp row
      · rfl
    rw [hrow]
    cases p row with
    | true => rfl
    | false => exact ih

/-- Updates of different rows commute. -/
theorem updateWhere_comm {rows : List α} {cond cond' : α → Bool} {f f' : α → α}
    (h : ∀ row ∈ rows, cond row = true → cond' row = false ∧ cond' (f row) = false)
    (h' : ∀ row ∈ rows, cond' row = true → cond (f' row) = false) :
    updateWhere (updateWhere rows cond f) cond' f' =
      updateWhere (updateWhere rows cond' f') cond f := by
  rw [updateWhere, updateWhere, updateWhere, updateWhere, List.map_map, List.map_map]
  refine List.map_congr_left fun row hrow ↦ ?_
  change (if cond' (if cond row then f row else row) then _ else _) =
    if cond (if cond' row then f' row else row) then _ else _
  cases hc : cond row with
  | true =>
    obtain ⟨h₁, h₂⟩ := h row hrow hc
    simp [hc, h₁, h₂]
  | false =>
    cases hc' : cond' row with
    | true => simp [hc, hc', h' row hrow hc']
    | false => simp [hc, hc']

/-- A filter that drops the rewritten rows before and after selects the same rows. -/
theorem filter_updateWhere_of_false {rows : List α} {cond : α → Bool} {f : α → α} {p : α → Bool}
    (hp : ∀ row ∈ rows, cond row = true → p row = false ∧ p (f row) = false) :
    (updateWhere rows cond f).filter p = rows.filter p := by
  induction rows with
  | nil => rfl
  | cons row rows ih =>
    rw [List.forall_mem_cons] at hp
    rw [updateWhere_cons, List.filter_cons, List.filter_cons, ih hp.2]
    cases hc : cond row with
    | true =>
      obtain ⟨h₁, h₂⟩ := hp.1 hc
      simp [h₁, h₂]
    | false => rfl

/-- An update by a key that occurs once rewrites the row with it in its place. -/
theorem updateWhere_split {κ : Type v} [BEq κ] [LawfulBEq κ] {pre post : List α} {row : α}
    {key : α → κ} (hk : ((pre ++ row :: post).map key).Nodup) (f : α → α) :
    updateWhere (pre ++ row :: post) (fun other ↦ key other == key row) f =
      pre ++ f row :: post := by
  rw [List.map_append, List.map_cons, List.nodup_append, List.nodup_cons] at hk
  obtain ⟨-, ⟨hpost, -⟩, hpre⟩ := hk
  have hbefore : ∀ other ∈ pre, (key other == key row) = false := fun other ho ↦
    beq_false_of_ne (hpre _ (List.mem_map_of_mem ho) _ List.mem_cons_self)
  have hbehind : ∀ other ∈ post, (key other == key row) = false := fun other ho ↦
    beq_false_of_ne fun he ↦ hpost (he ▸ List.mem_map_of_mem ho)
  rw [updateWhere_append, updateWhere_cons, beq_self_eq_true, updateWhere_eq_self hbefore,
    updateWhere_eq_self hbehind]
  rfl

/-! ### Counting rows -/

/-- An update that makes no row count does not raise the count. -/
theorem countP_updateWhere_le {rows : List α} {cond : α → Bool} {f : α → α} {p : α → Bool}
    (h : ∀ row ∈ rows, cond row = true → p (f row) = true → p row = true) :
    (updateWhere rows cond f).countP p ≤ rows.countP p := by
  induction rows with
  | nil => exact Nat.le_refl _
  | cons row rows ih =>
    rw [List.forall_mem_cons] at h
    rw [updateWhere_cons, List.countP_cons, List.countP_cons]
    have hrest := ih h.2
    have hrow : p (if cond row then f row else row) = true → p row = true := by
      split
      · next hc => exact h.1 hc
      · exact id
    by_cases hp : p (if cond row then f row else row) = true
    · rw [if_pos hp, if_pos (hrow hp)]
      omega
    · rw [if_neg hp]
      omega

end PenroseRoute.Lib
