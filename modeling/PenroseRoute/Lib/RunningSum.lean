import Mathlib.Algebra.GroupWithZero.Nat
import Mathlib.Algebra.Ring.Int.Defs

/-!
# Running sums within bounds

A quantity that starts at some value and changes entry by entry, with bounds that must
hold after every entry. Nothing here depends on the repository.
-/

namespace PenroseRoute.Lib

/-- After every entry the running sum lies between `lo` and `hi`. -/
def RunningWithin (lo hi : Int) : Int → List Int → Prop
  | _, [] => True
  | start, d :: ds => (lo ≤ start + d ∧ start + d ≤ hi) ∧ RunningWithin lo hi (start + d) ds

/-- The bounds are decidable, entry by entry. -/
instance decidableRunningWithin (lo hi : Int) : ∀ (start : Int) (ds : List Int),
    Decidable (RunningWithin lo hi start ds)
  | _, [] => .isTrue trivial
  | start, d :: ds =>
    have := decidableRunningWithin lo hi (start + d) ds
    inferInstanceAs (Decidable (_ ∧ _))

/-- Without steps the sum stays where it starts. -/
@[simp] theorem runningWithin_nil (lo hi start : Int) : RunningWithin lo hi start [] := trivial

/-- The sum is within its bounds after the first step, and goes on from there. -/
@[simp] theorem runningWithin_cons (lo hi start d : Int) (ds : List Int) :
    RunningWithin lo hi start (d :: ds) ↔
      (lo ≤ start + d ∧ start + d ≤ hi) ∧ RunningWithin lo hi (start + d) ds := Iff.rfl

/-- A run over two segments is a run over the first and then, from its sum, the second. -/
theorem runningWithin_append (lo hi start : Int) (xs ys : List Int) :
    RunningWithin lo hi start (xs ++ ys) ↔
      RunningWithin lo hi start xs ∧ RunningWithin lo hi (start + xs.sum) ys := by
  induction xs generalizing start with
  | nil => simp
  | cons x xs ih =>
    simp only [List.cons_append, runningWithin_cons, ih, List.sum_cons, and_assoc, Int.add_assoc]

/-- Wider bounds admit every run. -/
theorem RunningWithin.mono {lo hi lo' hi' start : Int} {ds : List Int}
    (h : RunningWithin lo hi start ds) (hl : lo' ≤ lo) (hh : hi ≤ hi') :
    RunningWithin lo' hi' start ds := by
  induction ds generalizing start with
  | nil => trivial
  | cons d ds ih => exact ⟨by have := h.1; omega, ih h.2⟩

end PenroseRoute.Lib
