import Mathlib.Data.List.Basic

/-!
# Items that rest on those before them

A list whose items are all in order after the ones before them, such as statements that use
earlier ones. Nothing here depends on the repository.
-/

namespace PenroseRoute.Lib

universe u v

variable {α : Type u} {β : Type v}

/-- Every item is in order after `before` and the items that precede it. -/
def EachAfter (ok : List α → α → Prop) : (before xs : List α) → Prop
  | _, [] => True
  | before, x :: xs => ok before x ∧ EachAfter ok (before ++ [x]) xs

namespace EachAfter

variable {ok : List α → α → Prop} {before xs ys : List α} {x : α}

/-- Two lists one after the other. -/
theorem append : EachAfter ok before (xs ++ ys) ↔
    EachAfter ok before xs ∧ EachAfter ok (before ++ xs) ys := by
  induction xs generalizing before with
  | nil => simp [EachAfter]
  | cons x xs ih =>
    rw [List.cons_append, EachAfter, EachAfter, ih, and_assoc, List.append_assoc,
      List.singleton_append]

/-- The items before one that is in order. -/
theorem of_mem (h : EachAfter ok before xs) (hx : x ∈ xs) :
    ∃ pre post, xs = pre ++ x :: post ∧ ok (before ++ pre) x := by
  obtain ⟨pre, post, rfl⟩ := List.append_of_mem hx
  exact ⟨pre, post, rfl, (append.mp h).2.1⟩

/-- A list is in order when each of its items is after those that precede it. -/
theorem of_forall (h : ∀ pre x post, xs = pre ++ x :: post → ok (before ++ pre) x) :
    EachAfter ok before xs := by
  induction xs generalizing before with
  | nil => trivial
  | cons x xs ih =>
    have hhead := h [] x xs rfl
    rw [List.append_nil] at hhead
    refine ⟨hhead, ih fun pre y post he ↦ ?_⟩
    have hnext := h (x :: pre) y post (congrArg _ he)
    rwa [List.append_cons] at hnext

/-- Items can be left out when those that stay do not rest on them. -/
theorem filter {p : α → Bool} {R : α → α → Prop} (h : EachAfter ok before xs)
    (hR : (before ++ xs).Pairwise R)
    (hok : ∀ before x, (∀ y ∈ before, R y x) → p x = true → ok before x →
      ok (before.filter p) x) : EachAfter ok (before.filter p) (xs.filter p) := by
  induction xs generalizing before with
  | nil => trivial
  | cons x xs ih =>
    have hrest : ((before ++ [x]) ++ xs).Pairwise R := by rwa [List.append_assoc]
    have htail := ih h.2 hrest
    rw [List.filter_append, List.filter_singleton] at htail
    rw [List.filter_cons]
    by_cases hp : p x = true
    · rw [if_pos hp]
      rw [hp, cond_true] at htail
      refine ⟨hok before x (fun y hy ↦ ?_) hp h.1, htail⟩
      exact (List.pairwise_append.mp hR).2.2 y hy x List.mem_cons_self
    · rw [if_neg hp]
      rw [Bool.eq_false_iff.mpr hp, cond_false, List.append_nil] at htail
      exact htail

/-- What is in order depends on a projection of the items only. -/
theorem congr {f : α → β} {before' xs' : List α} (h : EachAfter ok before xs)
    (hok : ∀ before before' x x', before'.map f = before.map f → f x' = f x → ok before x →
      ok before' x') (hb : before'.map f = before.map f) (hxs : xs'.map f = xs.map f) :
    EachAfter ok before' xs' := by
  induction xs generalizing before before' xs' with
  | nil =>
    rw [List.map_nil, List.map_eq_nil_iff] at hxs
    rw [hxs]
    trivial
  | cons x xs ih =>
    cases xs' with
    | nil => cases hxs
    | cons x' xs' =>
      rw [List.map_cons, List.map_cons, List.cons.injEq] at hxs
      refine ⟨hok _ _ _ _ hb hxs.1 h.1, ih h.2 ?_ hxs.2⟩
      rw [List.map_append, List.map_append, hb, List.map_singleton, List.map_singleton, hxs.1]

end EachAfter

end PenroseRoute.Lib
