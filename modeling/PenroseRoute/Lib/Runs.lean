/-!
# Runs of a state machine

States that are reached from an initial one by allowed actions, and the induction over such
runs. Nothing here depends on the repository.
-/

namespace PenroseRoute.Lib

universe u v

section

variable {σ : Type u} {α : Type v} (step : σ → α → σ) (initial : σ → Prop)
  (allowed : σ → α → Prop)

/-- The states of the runs whose steps are all allowed where they are taken. -/
inductive Reachable : σ → Prop where
  | init {s : σ} (h : initial s) : Reachable s
  | step {s : σ} (a : α) (h : Reachable s) (ha : allowed s a) : Reachable (step s a)

end

variable {σ : Type u} {α : Type v} {step : σ → α → σ} {initial : σ → Prop}
  {allowed allowed' : σ → α → Prop}

/-- What holds at first and is preserved by every allowed step holds in every run. -/
theorem Reachable.invariant {I : σ → Prop} (h₀ : ∀ s, initial s → I s)
    (hstep : ∀ s a, I s → allowed s a → I (step s a)) {s : σ}
    (h : Reachable step initial allowed s) : I s := by
  induction h with
  | init h => exact h₀ _ h
  | step a _ ha ih => exact hstep _ a ih ha

/-- Where more is allowed, more is reached. -/
theorem Reachable.mono (hle : ∀ s a, allowed s a → allowed' s a) {s : σ}
    (h : Reachable step initial allowed s) : Reachable step initial allowed' s := by
  induction h with
  | init h => exact .init h
  | step a _ ha ih => exact .step a ih (hle _ a ha)

/-- A list of actions, one after the other. -/
theorem Reachable.run {s : σ} (h : Reachable step initial allowed s) (actions : List α)
    (ha : ∀ s a, a ∈ actions → allowed s a) :
    Reachable step initial allowed (actions.foldl step s) := by
  induction actions generalizing s with
  | nil => exact h
  | cons a rest ih =>
    exact ih (.step a h (ha s a List.mem_cons_self))
      fun s b hb ↦ ha s b (List.mem_cons_of_mem _ hb)

end PenroseRoute.Lib
