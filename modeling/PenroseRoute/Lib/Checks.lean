import Mathlib.Algebra.GroupWithZero.Nat
import Mathlib.Algebra.Ring.Int.Defs
import Mathlib.Data.List.Forall2

/-!
# Ordered checks

Guards that a constructor or a transaction makes one after the other: the first
condition that holds raises its error, and the value is accepted when none does.
Computations that may raise succeed exactly when all their parts do.
Nothing here depends on the repository.
-/

namespace PenroseRoute.Lib

universe u v

/-- Raise the error of the first condition that holds. -/
def raiseFirst {ε : Type u} : List (Bool × ε) → Except ε Unit
  | [] => .ok ()
  | (true, e) :: _ => .error e
  | (false, _) :: rest => raiseFirst rest

/-- Without checks nothing is raised. -/
@[simp] theorem raiseFirst_nil {ε : Type u} : raiseFirst ([] : List (Bool × ε)) = .ok () := rfl

/-- What succeeds has its value. -/
theorem eq_ok_get {ε α : Type u} {x : Except ε α} (h : x.toOption.isSome = true) :
    x = .ok (x.toOption.get h) := by
  cases x with
  | ok a => rfl
  | error e => cases h

/-- The guards accept exactly when no condition holds. -/
theorem raiseFirst_eq_ok_iff {ε : Type u} (checks : List (Bool × ε)) :
    raiseFirst checks = .ok () ↔ ∀ c ∈ checks, c.1 = false := by
  induction checks with
  | nil => simp
  | cons c rest ih =>
    rcases c with ⟨b, e⟩
    cases b <;> simp [raiseFirst, ih]

/-- One guard in front of others: both must accept. -/
@[simp] theorem raiseFirst_cons_eq_ok {ε : Type u} (b : Bool) (e : ε) (rest : List (Bool × ε)) :
    raiseFirst ((b, e) :: rest) = .ok () ↔ b = false ∧ raiseFirst rest = .ok () := by
  cases b <;> simp [raiseFirst]

/-- A sequence of two computations succeeds when both do, one after the other. -/
theorem bind_eq_ok {ε : Type u} {α β : Type v} {x : Except ε α} {f : α → Except ε β} {b : β} :
    (x >>= f) = .ok b ↔ ∃ a, x = .ok a ∧ f a = .ok b := by
  cases x with
  | error e =>
    constructor
    · intro h
      cases h
    · rintro ⟨a, ha, -⟩
      cases ha
  | ok a =>
    constructor
    · intro h
      exact ⟨a, rfl, h⟩
    · rintro ⟨a', ha, hf⟩
      cases ha
      exact hf

/-- A sequence of two computations fails where the first one that fails does. -/
theorem bind_eq_error {ε : Type u} {α β : Type v} {x : Except ε α} {f : α → Except ε β} {e : ε} :
    (x >>= f) = .error e ↔ x = .error e ∨ ∃ a, x = .ok a ∧ f a = .error e := by
  cases x with
  | error e' =>
    constructor
    · intro h
      cases h
      exact .inl rfl
    · rintro (h | ⟨a, ha, -⟩)
      · cases h
        rfl
      · cases ha
  | ok a =>
    constructor
    · intro h
      exact .inr ⟨a, rfl, h⟩
    · rintro (h | ⟨a', ha, hf⟩)
      · cases h
      · cases ha
        exact hf

/-- A result that is wrapped succeeds when the computation does. -/
theorem map_eq_ok {ε : Type u} {α β : Type v} {x : Except ε α} {f : α → β} {b : β} :
    f <$> x = .ok b ↔ ∃ a, x = .ok a ∧ f a = b := by
  cases x with
  | error e =>
    constructor
    · intro h
      cases h
    · rintro ⟨a, ha, -⟩
      cases ha
  | ok a =>
    constructor
    · intro h
      exact ⟨a, rfl, Except.ok.inj h⟩
    · rintro ⟨a', ha, rfl⟩
      cases ha
      rfl

/-- A guard in front of a computation: the guard accepts and the computation succeeds. -/
theorem unit_bind_eq_ok {ε : Type u} {β : Type} {x : Except ε Unit} {f : Unit → Except ε β}
    {b : β} : (x >>= f) = .ok b ↔ x = .ok () ∧ f () = .ok b := by
  rw [bind_eq_ok]
  constructor
  · rintro ⟨⟨⟩, hx, hf⟩
    exact ⟨hx, hf⟩
  · rintro ⟨hx, hf⟩
    exact ⟨(), hx, hf⟩

/-- What every pass of a loop keeps holds after the loop. -/
theorem foldlM_invariant {ε : Type u} {σ α : Type v} {f : σ → α → Except ε σ} {I : σ → Prop}
    {xs : List α} (hstep : ∀ s, ∀ a ∈ xs, ∀ s', I s → f s a = .ok s' → I s') {s s' : σ} (h₀ : I s)
    (h : xs.foldlM f s = .ok s') : I s' := by
  induction xs generalizing s with
  | nil =>
    cases h
    exact h₀
  | cons a rest ih =>
    rw [List.foldlM_cons, bind_eq_ok] at h
    obtain ⟨next, hn, hrest⟩ := h
    refine ih (fun s b hb ↦ hstep s b (List.mem_cons_of_mem _ hb)) ?_ hrest
    exact hstep s a List.mem_cons_self next h₀ hn

/-- What every pass of a loop keeps, in terms of the entries that it has seen. -/
theorem foldlM_invariant_seen {ε : Type u} {σ α : Type v} {f : σ → α → Except ε σ}
    {I : List α → σ → Prop} {xs : List α}
    (hstep : ∀ before a after s s', xs = before ++ a :: after → I before s → f s a = .ok s' →
      I (before ++ [a]) s') {s s' : σ} (h₀ : I [] s) (h : xs.foldlM f s = .ok s') : I xs s' := by
  have hrest : ∀ (after before : List α) (s : σ), xs = before ++ after → I before s →
      after.foldlM f s = .ok s' → I xs s' := by
    intro after
    induction after with
    | nil =>
      intro before s hxs hs hfold
      cases hfold
      rw [hxs, List.append_nil]
      exact hs
    | cons a after ih =>
      intro before s hxs hs hfold
      rw [List.foldlM_cons, bind_eq_ok] at hfold
      obtain ⟨next, hnext, hfold⟩ := hfold
      refine ih (before ++ [a]) next ?_ (hstep before a after s next hxs hs hnext) hfold
      rw [hxs, List.append_assoc]
      rfl
  exact hrest xs [] s rfl h₀ h

/-- A loop whose passes all succeed succeeds. -/
theorem foldlM_total {ε : Type u} {σ α : Type v} {f : σ → α → Except ε σ} {I : σ → Prop}
    {xs : List α} (hstep : ∀ s, ∀ a ∈ xs, I s → ∃ s', f s a = .ok s' ∧ I s') {s : σ} (h₀ : I s) :
    ∃ s', xs.foldlM f s = .ok s' ∧ I s' := by
  induction xs generalizing s with
  | nil => exact ⟨s, rfl, h₀⟩
  | cons a rest ih =>
    obtain ⟨next, hnext, hI⟩ := hstep s a List.mem_cons_self h₀
    obtain ⟨s', hrest, hI'⟩ := ih (fun s b hb ↦ hstep s b (List.mem_cons_of_mem _ hb)) hI
    refine ⟨s', ?_, hI'⟩
    rw [List.foldlM_cons, bind_eq_ok]
    exact ⟨next, hnext, hrest⟩

/-- A loop settles what one of its passes settles and no pass undoes. -/
theorem foldl_settles {σ α : Type v} {f : σ → α → σ} {I Q : σ → Prop} {a : α} {xs : List α}
    (hI : ∀ s, ∀ x ∈ xs, I s → I (f s x)) (hset : ∀ s, I s → Q (f s a))
    (hkeep : ∀ s, ∀ x ∈ xs, x ≠ a → I s → Q s → Q (f s x)) {s : σ} (h₀ : I s)
    (h : a ∈ xs ∨ Q s) : Q (xs.foldl f s) := by
  induction xs generalizing s with
  | nil => exact h.resolve_left List.not_mem_nil
  | cons x rest ih =>
    refine ih (fun s y hy ↦ hI s y (List.mem_cons_of_mem _ hy))
      (fun s y hy ↦ hkeep s y (List.mem_cons_of_mem _ hy)) (hI s x List.mem_cons_self h₀) ?_
    by_cases hx : x = a
    · exact .inr (hx ▸ hset s h₀)
    · rcases h with hmem | hQ
      · exact .inl ((List.mem_cons.mp hmem).resolve_left (Ne.symm hx))
      · exact .inr (hkeep s x List.mem_cons_self hx h₀ hQ)

/-- Guards for every entry of a list accept when each one does. -/
theorem forM_eq_ok_iff {ε : Type u} {α : Type v} {f : α → Except ε Unit} {xs : List α} :
    xs.forM f = .ok () ↔ ∀ x ∈ xs, f x = .ok () := by
  induction xs with
  | nil => exact ⟨fun _ x hx ↦ (by cases hx), fun _ ↦ rfl⟩
  | cons x xs ih =>
    have hcons : (x :: xs).forM f = (f x >>= fun _ ↦ xs.forM f) := rfl
    rw [hcons, unit_bind_eq_ok, ih, List.forall_mem_cons]

/-- A computation for every entry of a list succeeds, entry by entry, in the same order. -/
theorem mapM_eq_ok_iff {ε : Type u} {α β : Type v} {f : α → Except ε β} {xs : List α}
    {ys : List β} : xs.mapM f = .ok ys ↔ List.Forall₂ (fun x y ↦ f x = .ok y) xs ys := by
  induction xs generalizing ys with
  | nil =>
    rw [List.mapM_nil]
    constructor
    · intro h
      cases h
      exact .nil
    · intro h
      cases h
      rfl
  | cons x xs ih =>
    rw [List.mapM_cons, bind_eq_ok]
    constructor
    · rintro ⟨y, hy, h⟩
      obtain ⟨ys', hys, h⟩ := bind_eq_ok.mp h
      cases h
      exact .cons hy (ih.mp hys)
    · intro h
      cases h with
      | cons hy hys => exact ⟨_, hy, bind_eq_ok.mpr ⟨_, ih.mpr hys, rfl⟩⟩

/-- Lists related entry by entry have equal images under maps that the relation equates. -/
theorem map_eq_map_of_forall₂ {α β γ : Type v} {R : α → β → Prop} {f : α → γ} {g : β → γ}
    (hR : ∀ x y, R x y → f x = g y) {xs : List α} {ys : List β} (h : List.Forall₂ R xs ys) :
    xs.map f = ys.map g := by
  induction h with
  | nil => rfl
  | cons hxy _ ih => rw [List.map_cons, List.map_cons, hR _ _ hxy, ih]

/-- What every single computation preserves, the computation of a list preserves. -/
theorem map_eq_of_mapM {ε : Type u} {α β γ : Type v} {f : α → Except ε β} {g : β → γ}
    {h : α → γ} (hf : ∀ x y, f x = .ok y → g y = h x) {xs : List α} {ys : List β}
    (hm : xs.mapM f = .ok ys) : ys.map g = xs.map h :=
  (map_eq_map_of_forall₂ (fun x y hxy ↦ (hf x y hxy).symm) (mapM_eq_ok_iff.mp hm)).symm

/-- A computation for every entry of a list succeeds when each one does. -/
theorem exists_mapM_iff {ε : Type u} {α β : Type v} {f : α → Except ε β} {xs : List α} :
    (∃ ys, xs.mapM f = .ok ys) ↔ ∀ x ∈ xs, ∃ y, f x = .ok y := by
  simp only [mapM_eq_ok_iff]
  induction xs with
  | nil => exact ⟨fun _ x hx ↦ (by cases hx), fun _ ↦ ⟨[], .nil⟩⟩
  | cons x xs ih =>
    constructor
    · rintro ⟨ys, h⟩
      cases h with
      | cons hy hys =>
        intro a ha
        cases ha with
        | head => exact ⟨_, hy⟩
        | tail _ ha => exact ih.mp ⟨_, hys⟩ a ha
    · intro h
      obtain ⟨y, hy⟩ := h x List.mem_cons_self
      obtain ⟨ys, hys⟩ := ih.mpr fun a ha ↦ h a (List.mem_cons_of_mem _ ha)
      exact ⟨y :: ys, .cons hy hys⟩

/-- Filtering lists related entry by entry keeps related entries. -/
theorem filter_map_of_forall₂ {α β γ : Type v} {R : α → β → Prop} {p : α → Bool} {q : β → Bool}
    {f : α → γ} {g : β → γ} (hR : ∀ x y, R x y → p x = q y ∧ f x = g y) {xs : List α}
    {ys : List β} (h : List.Forall₂ R xs ys) :
    (xs.filter p).map f = (ys.filter q).map g := by
  induction h with
  | nil => rfl
  | @cons x y _ _ hxy _ ih =>
    obtain ⟨hp, hf⟩ := hR x y hxy
    rw [List.filter_cons, List.filter_cons, hp]
    cases q y with
    | true => rw [if_pos rfl, if_pos rfl, List.map_cons, List.map_cons, hf, ih]
    | false => rw [if_neg (by decide), if_neg (by decide), ih]

/-- Looking up every entry of a list finds rows related to its partners. -/
theorem forall₂_filterMap {α β γ : Type v} {R : β → γ → Prop} {look : α → Option β}
    {xs : List α} {ys : List γ}
    (h : List.Forall₂ (fun x y ↦ ∃ row, look x = some row ∧ R row y) xs ys) :
    List.Forall₂ R (xs.filterMap look) ys := by
  induction h with
  | nil => exact .nil
  | cons hxy _ ih =>
    obtain ⟨row, hrow, hR⟩ := hxy
    rw [List.filterMap_cons_some hrow]
    exact .cons hR ih

/-- Every entry of the first of two related lists has a partner in the second. -/
theorem exists_of_forall₂_left {α β : Type v} {R : α → β → Prop} {xs : List α} {ys : List β}
    (h : List.Forall₂ R xs ys) {x : α} (hx : x ∈ xs) : ∃ y ∈ ys, R x y := by
  induction h with
  | nil => cases hx
  | @cons a b _ _ hab _ ih =>
    cases hx with
    | head => exact ⟨b, List.mem_cons_self, hab⟩
    | tail _ hx =>
      obtain ⟨y, hy, hxy⟩ := ih hx
      exact ⟨y, List.mem_cons_of_mem _ hy, hxy⟩

/-- Every entry of the second of two related lists has a partner in the first. -/
theorem exists_of_forall₂_right {α β : Type v} {R : α → β → Prop} {xs : List α} {ys : List β}
    (h : List.Forall₂ R xs ys) {y : β} (hy : y ∈ ys) : ∃ x ∈ xs, R x y :=
  exists_of_forall₂_left h.flip hy

/-- Related lists are related through their own entries. -/
theorem forall₂_and_mem {α β : Type v} {R : α → β → Prop} {xs : List α} {ys : List β}
    (h : List.Forall₂ R xs ys) : List.Forall₂ (fun x y ↦ x ∈ xs ∧ y ∈ ys ∧ R x y) xs ys := by
  induction h with
  | nil => exact .nil
  | cons hxy _ ih =>
    refine .cons ⟨List.mem_cons_self, List.mem_cons_self, hxy⟩ (ih.imp ?_)
    intro x y hm
    exact ⟨List.mem_cons_of_mem _ hm.1, List.mem_cons_of_mem _ hm.2.1, hm.2.2⟩

/-- Related lists are sorted alike when related entries are. -/
theorem pairwise_of_forall₂ {α β : Type v} {R : α → β → Prop} {P : α → α → Prop}
    {Q : β → β → Prop} (hR : ∀ a b a' b', R a b → R a' b' → P a a' → Q b b') {xs : List α}
    {ys : List β} (h : List.Forall₂ R xs ys) (hp : xs.Pairwise P) : ys.Pairwise Q := by
  induction h with
  | nil => exact .nil
  | cons hab htail ih =>
    rw [List.pairwise_cons] at hp ⊢
    refine ⟨?_, ih hp.2⟩
    intro y hy
    obtain ⟨x, hx, hxy⟩ := exists_of_forall₂_right htail hy
    exact hR _ _ _ _ hab hxy (hp.1 x hx)

/-- Searching lists related entry by entry finds related entries. -/
theorem find?_of_forall₂ {α β : Type v} {R : α → β → Prop} {p : α → Bool} {q : β → Bool}
    (hR : ∀ x y, R x y → p x = q y) {xs : List α} {ys : List β} (h : List.Forall₂ R xs ys) :
    (xs.find? p = none ∧ ys.find? q = none) ∨
      ∃ x y, R x y ∧ xs.find? p = some x ∧ ys.find? q = some y := by
  induction h with
  | nil => exact .inl ⟨rfl, rfl⟩
  | @cons x y _ _ hxy _ ih =>
    rw [List.find?_cons, List.find?_cons, hR _ _ hxy]
    cases q y with
    | true => exact .inr ⟨x, y, hxy, rfl, rfl⟩
    | false => exact ih

/-- Entries that are related one after the other. -/
theorem forall₂_trans {α β γ : Type v} {R : α → β → Prop} {S : β → γ → Prop} {xs : List α}
    {ys : List β} {zs : List γ} (h : List.Forall₂ R xs ys) (h' : List.Forall₂ S ys zs) :
    List.Forall₂ (fun x z ↦ ∃ y, R x y ∧ S y z) xs zs := by
  induction h generalizing zs with
  | nil =>
    cases h'
    exact .nil
  | cons hxy _ ih =>
    cases h' with
    | cons hyz htail => exact .cons ⟨_, hxy, hyz⟩ (ih htail)

/-- The last entries of related lists are related. -/
theorem getLast?_of_forall₂ {α β : Type v} {R : α → β → Prop} {xs : List α} {ys : List β}
    (h : List.Forall₂ R xs ys) {x : α} (hx : xs.getLast? = some x) :
    ∃ y, ys.getLast? = some y ∧ R x y := by
  induction h with
  | nil => cases hx
  | @cons a b as bs hab htail ih =>
    cases htail with
    | nil =>
      cases hx
      exact ⟨b, rfl, hab⟩
    | cons _ _ =>
      rw [List.getLast?_cons_cons] at hx ⊢
      exact ih hx

end PenroseRoute.Lib
