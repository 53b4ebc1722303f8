import Mathlib.Data.List.Basic

/-!
# Work done in order

Items that are worked off one after the other, each with the time it was begun and the time it
was ended. Nothing here depends on the repository.
-/

namespace PenroseRoute.Lib

universe u

/-- How far one item has got. -/
inductive Stage where
  | waiting
  | begun (start : Int)
  | ended (start finish : Int)
  deriving DecidableEq, Repr

variable {α : Type u} {stage : α → Option Stage}

/-- No item has been begun. -/
def Waiting (stage : α → Option Stage) (xs : List α) : Prop :=
  ∀ x ∈ xs, stage x = some .waiting

/-- Ended items come first, each begun after the one before was ended; then at most one that has
been begun, and items that wait. -/
inductive InOrder (stage : α → Option Stage) : Option Int → List α → Prop
  | waiting {since : Option Int} {xs : List α} (h : Waiting stage xs) : InOrder stage since xs
  | begun {since : Option Int} {x : α} {xs : List α} {start : Int}
      (hx : stage x = some (.begun start)) (hs : ∀ t ∈ since, t ≤ start)
      (hxs : Waiting stage xs) : InOrder stage since (x :: xs)
  | ended {since : Option Int} {x : α} {xs : List α} {start finish : Int}
      (hx : stage x = some (.ended start finish)) (hs : ∀ t ∈ since, t ≤ start)
      (hle : start ≤ finish) (hxs : InOrder stage (some finish) xs) : InOrder stage since (x :: xs)

/-- What waits still waits when some of it is left out. -/
theorem Waiting.filter {xs : List α} (h : Waiting stage xs) (p : α → Bool) :
    Waiting stage (xs.filter p) :=
  fun x hx ↦ h x (List.mem_filter.mp hx).1

/-- What waits still waits when more of it follows. -/
theorem Waiting.append {xs ys : List α} (hx : Waiting stage xs) (hy : Waiting stage ys) :
    Waiting stage (xs ++ ys) := by
  intro x h
  rcases List.mem_append.mp h with h | h
  · exact hx x h
  · exact hy x h

namespace InOrder

variable {since since' : Option Int} {xs ys : List α} {x : α}

/-- What was in order after a later time is in order after an earlier one. -/
theorem mono (h : InOrder stage since xs) (hle : ∀ t ∈ since', ∃ t' ∈ since, t ≤ t') :
    InOrder stage since' xs := by
  have hbound : ∀ start, (∀ t ∈ since, t ≤ start) → ∀ t ∈ since', t ≤ start := by
    intro start hs t ht
    obtain ⟨t', ht', hlt⟩ := hle t ht
    exact Int.le_trans hlt (hs t' ht')
  cases h with
  | waiting h => exact .waiting h
  | begun hx hs hxs => exact .begun hx (hbound _ hs) hxs
  | ended hx hs hle hxs => exact .ended hx (hbound _ hs) hle hxs

/-- Items can be left out. -/
theorem filter (h : InOrder stage since xs) (p : α → Bool) : InOrder stage since (xs.filter p) := by
  induction h with
  | waiting h => exact .waiting (h.filter p)
  | begun hx hs hxs =>
    rw [List.filter_cons]
    split
    · exact .begun hx hs (hxs.filter p)
    · exact .waiting (hxs.filter p)
  | @ended since x xs start finish hx hs hle _ ih =>
    rw [List.filter_cons]
    split
    · exact .ended hx hs hle ih
    · refine ih.mono fun t ht ↦ ⟨finish, rfl, ?_⟩
      exact Int.le_trans (hs t ht) hle

/-- Waiting items can be put behind. -/
theorem append (h : InOrder stage since xs) (hy : Waiting stage ys) :
    InOrder stage since (xs ++ ys) := by
  induction h with
  | waiting h => exact .waiting (h.append hy)
  | begun hx hs hxs => exact .begun hx hs (hxs.append hy)
  | ended hx hs hle _ ih => exact .ended hx hs hle ih

/-- The order depends on the stages only. -/
theorem congr {β : Type u} {stage' : β → Option Stage} {ys : List β} (h : InOrder stage since xs)
    (he : ys.map stage' = xs.map stage) : InOrder stage' since ys := by
  have hwaiting : ∀ {xs : List α} {ys : List β}, Waiting stage xs →
      ys.map stage' = xs.map stage → Waiting stage' ys := by
    intro xs ys hw he y hy
    obtain ⟨x, hx, hxy⟩ := List.mem_map.mp (he ▸ List.mem_map_of_mem hy)
    rw [← hxy]
    exact hw x hx
  induction h generalizing ys with
  | waiting h => exact .waiting (hwaiting h he)
  | begun hx hs hxs =>
    cases ys with
    | nil => cases he
    | cons y ys =>
      rw [List.map_cons, List.map_cons, List.cons.injEq] at he
      exact .begun (he.1.trans hx) hs (hwaiting hxs he.2)
  | ended hx hs hle _ ih =>
    cases ys with
    | nil => cases he
    | cons y ys =>
      rw [List.map_cons, List.map_cons, List.cons.injEq] at he
      exact .ended (he.1.trans hx) hs hle (ih he.2)

/-! ### One step -/

/-- An item that has been ended. -/
def Ended (stage : α → Option Stage) (x : α) : Prop :=
  ∃ start finish, stage x = some (.ended start finish)

/-- The time at which the last ended item was left, or `since` without any. -/
def leftAt (stage : α → Option Stage) : Option Int → List α → Option Int
  | since, [] => since
  | since, x :: xs => leftAt stage
      (match stage x with
        | some (.ended _ finish) => some finish
        | _ => since) xs

/-- Work that ends with the last item is left at its finish. -/
theorem leftAt_concat {start finish : Int} (hx : stage x = some (.ended start finish)) :
    leftAt stage since (xs ++ [x]) = some finish := by
  induction xs generalizing since with
  | nil => rw [List.nil_append, leftAt, hx]; rfl
  | cons y ys ih => exact ih

/-- Behind ended items, what comes next can be replaced. -/
theorem split (hp : ∀ x ∈ xs, Ended stage x) (h : InOrder stage since (xs ++ ys)) :
    InOrder stage (leftAt stage since xs) ys ∧ ∀ zs, InOrder stage (leftAt stage since xs) zs →
      InOrder stage since (xs ++ zs) := by
  induction xs generalizing since with
  | nil => exact ⟨h, fun _ hz ↦ hz⟩
  | cons x xs ih =>
    rw [List.forall_mem_cons] at hp
    obtain ⟨⟨start, finish, hx⟩, hp⟩ := hp
    cases h with
    | waiting h =>
      have hw := h x List.mem_cons_self
      rw [hx] at hw
      cases hw
    | begun hb =>
      rw [hx] at hb
      cases hb
    | ended he hs hle hxs =>
      rw [hx] at he
      cases he
      rw [leftAt, hx]
      obtain ⟨hrest, hput⟩ := ih hp hxs
      exact ⟨hrest, fun zs hz ↦ .ended hx hs hle (hput zs hz)⟩

/-- The next item is begun after the last one was left. -/
theorem begin {y : α} {start : Int} (h : InOrder stage since (x :: xs))
    (hx : stage x = some .waiting) (hy : stage y = some (.begun start))
    (hs : ∀ t ∈ since, t ≤ start) : InOrder stage since (y :: xs) := by
  cases h with
  | waiting h => exact .begun hy hs fun z hz ↦ h z (List.mem_cons_of_mem _ hz)
  | begun hb =>
    rw [hx] at hb
    cases hb
  | ended he =>
    rw [hx] at he
    cases he

/-- The item that has been begun is ended. -/
theorem finish {y : α} {start finish : Int} (h : InOrder stage since (x :: xs))
    (hx : stage x = some (.begun start)) (hy : stage y = some (.ended start finish))
    (hle : start ≤ finish) : InOrder stage since (y :: xs) := by
  cases h with
  | waiting h =>
    have hw := h x List.mem_cons_self
    rw [hx] at hw
    cases hw
  | begun hb hs hxs =>
    rw [hx] at hb
    cases hb
    exact .ended hy hs hle (.waiting hxs)
  | ended he =>
    rw [hx] at he
    cases he

/-! ### Pairs of items -/

/-- What an item knows of the items behind it. -/
structure Before (stage : α → Option Stage) (x y : α) : Prop where
  waiting : stage x = some .waiting → stage y = some .waiting
  begun : ∀ start, stage x = some (.begun start) → stage y = some .waiting
  ended : ∀ start finish, stage x = some (.ended start finish) →
    (∀ start', stage y = some (.begun start') → finish ≤ start') ∧
      ∀ start' finish', stage y = some (.ended start' finish') → finish ≤ start'

/-- All items have a stage, and those that have been begun were begun after `since`. -/
theorem stage_of_mem (h : InOrder stage since xs) (hx : x ∈ xs) :
    stage x = some .waiting ∨
      (∃ start, stage x = some (.begun start) ∧ ∀ t ∈ since, t ≤ start) ∨
      ∃ start finish, stage x = some (.ended start finish) ∧ start ≤ finish ∧
        ∀ t ∈ since, t ≤ start := by
  induction h with
  | waiting h => exact .inl (h x hx)
  | begun hb hs hxs =>
    rcases List.mem_cons.mp hx with rfl | hx
    · exact .inr (.inl ⟨_, hb, hs⟩)
    · exact .inl (hxs x hx)
  | @ended since y ys start finish he hs hle _ ih =>
    rcases List.mem_cons.mp hx with rfl | hx
    · exact .inr (.inr ⟨_, _, he, hle, hs⟩)
    · have hlater : ∀ start', finish ≤ start' → ∀ t ∈ since, t ≤ start' :=
        fun start' hf t ht ↦ Int.le_trans (hs t ht) (Int.le_trans hle hf)
      rcases ih hx with hw | ⟨start', hb, hf⟩ | ⟨start', finish', hb, hle', hf⟩
      · exact .inl hw
      · exact .inr (.inl ⟨start', hb, hlater start' (hf finish rfl)⟩)
      · exact .inr (.inr ⟨start', finish', hb, hle', hlater start' (hf finish rfl)⟩)

/-- Every item knows the stages of those behind it. -/
theorem pairwise (h : InOrder stage since xs) : xs.Pairwise (Before stage) := by
  have hbehind : ∀ {x y : α}, stage y = some .waiting → Before stage x y := by
    intro x y hy
    refine ⟨fun _ ↦ hy, fun _ _ ↦ hy, fun _ _ _ ↦ ⟨fun _ hb ↦ ?_, fun _ _ he ↦ ?_⟩⟩
    · rw [hy] at hb
      cases hb
    · rw [hy] at he
      cases he
  have hwaiting : ∀ {xs : List α}, Waiting stage xs → xs.Pairwise (Before stage) := by
    intro xs hw
    induction xs with
    | nil => exact .nil
    | cons x xs ih =>
      rw [Waiting, List.forall_mem_cons] at hw
      exact .cons (fun y hy ↦ hbehind (hw.2 y hy)) (ih hw.2)
  induction h with
  | waiting h => exact hwaiting h
  | begun _ _ hxs => exact .cons (fun y hy ↦ hbehind (hxs y hy)) (hwaiting hxs)
  | @ended since x xs start finish hx _ _ hxs ih =>
    refine .cons (fun y hy ↦ ?_) ih
    rcases hxs.stage_of_mem hy with hw | ⟨start', hb, hs⟩ | ⟨start', finish', he, -, hs⟩
    · exact hbehind hw
    · refine ⟨fun h ↦ ?_, fun _ h ↦ ?_, fun s f h ↦ ⟨fun _ h' ↦ ?_, fun _ _ h' ↦ ?_⟩⟩
      · rw [hx] at h
        cases h
      · rw [hx] at h
        cases h
      · rw [hx] at h
        rw [hb] at h'
        cases h
        cases h'
        exact hs _ rfl
      · rw [hb] at h'
        cases h'
    · refine ⟨fun h ↦ ?_, fun _ h ↦ ?_, fun s f h ↦ ⟨fun _ h' ↦ ?_, fun _ _ h' ↦ ?_⟩⟩
      · rw [hx] at h
        cases h
      · rw [hx] at h
        cases h
      · rw [he] at h'
        cases h'
      · rw [hx] at h
        rw [he] at h'
        cases h
        cases h'
        exact hs _ rfl

end InOrder

end PenroseRoute.Lib
