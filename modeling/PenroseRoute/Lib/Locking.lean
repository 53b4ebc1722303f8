import Mathlib.Data.List.Basic
import Mathlib.Logic.Relation

/-!
# Transactions with exclusive locks

Transactions run statement by statement over one committed table. A statement reads the
committed table and the state of its own transaction; what a transaction writes becomes visible
when it commits. The locks that a transaction holds are part of its state, and a statement
waits until no other open transaction holds a conflicting lock. The rule of this module reduces
a property of the table in all interleavings to single transactions and to what each of them
has read, which the commits of the others must not invalidate. Where they can, the rule is about
the runs without such commits. Nothing here depends on the repository.
-/

namespace PenroseRoute.Lib

universe u v

/-- Which transactions there are and what their locks exclude. -/
structure Protocol (Table : Type u) (Transaction : Type v) where
  /-- How a transaction begins. -/
  begins : Transaction → Prop
  /-- The next statement of a transaction. -/
  statement : Table → Transaction → Transaction → Prop
  /-- Two transactions hold locks that exclude each other. -/
  conflict : Transaction → Transaction → Prop
  /-- What the commit of a finished transaction makes of the table. -/
  commits : Table → Transaction → Table → Prop

namespace Protocol

variable {Table : Type u} {Transaction : Type v}

/-- The committed table and the open transactions. -/
structure State (Table : Type u) (Transaction : Type v) where
  table : Table
  opened : List Transaction

/-- One step of an interleaving. -/
inductive Step (p : Protocol Table Transaction) :
    State Table Transaction → State Table Transaction → Prop where
  | begin {table : Table} {opened : List Transaction} {t : Transaction} (h : p.begins t)
      (hfree : ∀ other ∈ opened, ¬ p.conflict t other) : Step p ⟨table, opened⟩ ⟨table, t :: opened⟩
  | statement {table : Table} {before after : List Transaction} {t t' : Transaction}
      (h : p.statement table t t') (hfree : ∀ other ∈ before ++ after, ¬ p.conflict t' other) :
      Step p ⟨table, before ++ t :: after⟩ ⟨table, before ++ t' :: after⟩
  | commit {table table' : Table} {before after : List Transaction} {t : Transaction}
      (h : p.commits table t table') :
      Step p ⟨table, before ++ t :: after⟩ ⟨table', before ++ after⟩
  | rollback {table : Table} {before after : List Transaction} {t : Transaction} :
      Step p ⟨table, before ++ t :: after⟩ ⟨table, before ++ after⟩

/-- Any number of steps. -/
abbrev Run (p : Protocol Table Transaction) :
    State Table Transaction → State Table Transaction → Prop :=
  Relation.ReflTransGen p.Step

/-- One step of an interleaving, in which a transaction commits only beside open ones that it is
admitted to disturb. -/
inductive StepUnder (p : Protocol Table Transaction)
    (ok : Table → Transaction → Transaction → Prop) :
    State Table Transaction → State Table Transaction → Prop where
  | begin {table : Table} {opened : List Transaction} {t : Transaction} (h : p.begins t)
      (hfree : ∀ other ∈ opened, ¬ p.conflict t other) :
      StepUnder p ok ⟨table, opened⟩ ⟨table, t :: opened⟩
  | statement {table : Table} {before after : List Transaction} {t t' : Transaction}
      (h : p.statement table t t') (hfree : ∀ other ∈ before ++ after, ¬ p.conflict t' other) :
      StepUnder p ok ⟨table, before ++ t :: after⟩ ⟨table, before ++ t' :: after⟩
  | commit {table table' : Table} {before after : List Transaction} {t : Transaction}
      (h : p.commits table t table') (hok : ∀ other ∈ before ++ after, ok table t other) :
      StepUnder p ok ⟨table, before ++ t :: after⟩ ⟨table', before ++ after⟩
  | rollback {table : Table} {before after : List Transaction} {t : Transaction} :
      StepUnder p ok ⟨table, before ++ t :: after⟩ ⟨table, before ++ after⟩

/-- Any number of such steps. -/
abbrev RunUnder (p : Protocol Table Transaction)
    (ok : Table → Transaction → Transaction → Prop) :
    State Table Transaction → State Table Transaction → Prop :=
  Relation.ReflTransGen (p.StepUnder ok)

/-- Under a condition there are fewer steps. -/
theorem StepUnder.step {p : Protocol Table Transaction}
    {ok : Table → Transaction → Transaction → Prop} {s s' : State Table Transaction}
    (h : p.StepUnder ok s s') : p.Step s s' := by
  cases h with
  | begin h hfree => exact .begin h hfree
  | statement h hfree => exact .statement h hfree
  | commit h _ => exact .commit h
  | rollback => exact .rollback

/-- A run of admitted steps is a run. -/
theorem run_of_runUnder {p : Protocol Table Transaction}
    {ok : Table → Transaction → Transaction → Prop} {s s' : State Table Transaction}
    (h : p.RunUnder ok s s') : p.Run s s' := by
  induction h with
  | refl => exact .refl
  | tail _ hstep ih => exact ih.tail hstep.step

/-- Without a condition there are as many. -/
theorem Step.under {p : Protocol Table Transaction} {s s' : State Table Transaction}
    (h : p.Step s s') : p.StepUnder (fun _ _ _ ↦ True) s s' := by
  cases h with
  | begin h hfree => exact .begin h hfree
  | statement h hfree => exact .statement h hfree
  | commit h => exact .commit h fun _ _ ↦ trivial
  | rollback => exact .rollback

/-- A statement of the transaction that began last. -/
theorem Step.statement_head {p : Protocol Table Transaction} {table : Table}
    {opened : List Transaction} {t t' : Transaction} (h : p.statement table t t')
    (hfree : ∀ other ∈ opened, ¬ p.conflict t' other) :
    p.Step ⟨table, t :: opened⟩ ⟨table, t' :: opened⟩ :=
  @Step.statement _ _ p table [] opened t t' h hfree

/-- The commit of the transaction that began last. -/
theorem Step.commit_head {p : Protocol Table Transaction} {table table' : Table}
    {opened : List Transaction} {t : Transaction} (h : p.commits table t table') :
    p.Step ⟨table, t :: opened⟩ ⟨table', opened⟩ :=
  @Step.commit _ _ p table table' [] opened t h

/-- The rollback of the transaction that began last. -/
theorem Step.rollback_head {p : Protocol Table Transaction} {table : Table}
    {opened : List Transaction} {t : Transaction} :
    p.Step ⟨table, t :: opened⟩ ⟨table, opened⟩ :=
  @Step.rollback _ _ p table [] opened t

/-- A statement of the transaction that began last. -/
theorem StepUnder.statement_head {p : Protocol Table Transaction}
    {ok : Table → Transaction → Transaction → Prop} {table : Table} {opened : List Transaction}
    {t t' : Transaction} (h : p.statement table t t')
    (hfree : ∀ other ∈ opened, ¬ p.conflict t' other) :
    p.StepUnder ok ⟨table, t :: opened⟩ ⟨table, t' :: opened⟩ :=
  @StepUnder.statement _ _ p ok table [] opened t t' h hfree

/-- The admitted commit of the transaction that began last. -/
theorem StepUnder.commit_head {p : Protocol Table Transaction}
    {ok : Table → Transaction → Transaction → Prop} {table table' : Table}
    {opened : List Transaction} {t : Transaction} (h : p.commits table t table')
    (hok : ∀ other ∈ opened, ok table t other) :
    p.StepUnder ok ⟨table, t :: opened⟩ ⟨table', opened⟩ :=
  @StepUnder.commit _ _ p ok table table' [] opened t h hok

/-- A whole transaction without any other one in between. -/
def Alone (p : Protocol Table Transaction) (table table' : Table) : Prop :=
  ∃ t t', p.begins t ∧ Relation.ReflTransGen (p.statement table) t t' ∧ p.commits table t' table'

/-- A transaction that runs alone is one interleaving. -/
theorem Alone.run {p : Protocol Table Transaction} {table table' : Table}
    (h : p.Alone table table') : p.Run ⟨table, []⟩ ⟨table', []⟩ := by
  obtain ⟨t, t', hbegin, hstatements, hcommit⟩ := h
  have hfirst : p.Step ⟨table, []⟩ ⟨table, [t]⟩ := .begin hbegin fun _ ho ↦ by cases ho
  have hmiddle : p.Run ⟨table, [t]⟩ ⟨table, [t']⟩ := by
    refine hstatements.lift (fun t ↦ (⟨table, [t]⟩ : State Table Transaction)) ?_
    intro a b hab
    exact Step.statement_head hab fun _ ho ↦ by cases ho
  have hlast : p.Step ⟨table, [t']⟩ ⟨table', []⟩ := Step.commit_head hcommit
  exact (Relation.ReflTransGen.head hfirst hmiddle).tail hlast

/-- What has to be shown of single transactions: `fact` is what a transaction has read and
checked, and an admitted commit of another one without a conflicting lock leaves it true. -/
structure KeepsUnder (p : Protocol Table Transaction)
    (ok : Table → Transaction → Transaction → Prop) (inv : Table → Prop)
    (fact : Table → Transaction → Prop) : Prop where
  symm : ∀ a b, p.conflict a b → p.conflict b a
  begins : ∀ table t, p.begins t → fact table t
  statement : ∀ table t t', inv table → fact table t → p.statement table t t' → fact table t'
  commits : ∀ table t table', inv table → fact table t → p.commits table t table' → inv table'
  stable : ∀ table t table' other, inv table → fact table t → p.commits table t table' →
    ¬ p.conflict t other → ok table t other → fact table other → fact table' other

/-- What has to be shown of single transactions: `fact` is what a transaction has read and
checked, and the commit of another one without a conflicting lock leaves it true. -/
structure Keeps (p : Protocol Table Transaction) (inv : Table → Prop)
    (fact : Table → Transaction → Prop) : Prop where
  symm : ∀ a b, p.conflict a b → p.conflict b a
  begins : ∀ table t, p.begins t → fact table t
  statement : ∀ table t t', inv table → fact table t → p.statement table t t' → fact table t'
  commits : ∀ table t table', inv table → fact table t → p.commits table t table' → inv table'
  stable : ∀ table t table' other, inv table → fact table t → p.commits table t table' →
    ¬ p.conflict t other → fact table other → fact table' other

/-- The table is right, every open transaction knows what it has read, and their locks exclude
one another. -/
structure Holds (p : Protocol Table Transaction) (inv : Table → Prop)
    (fact : Table → Transaction → Prop) (s : State Table Transaction) : Prop where
  table : inv s.table
  facts : ∀ t ∈ s.opened, fact s.table t
  locks : s.opened.Pairwise fun a b ↦ ¬ p.conflict a b

variable {p : Protocol Table Transaction} {inv : Table → Prop}
  {fact : Table → Transaction → Prop} {s s' : State Table Transaction}
  {ok : Table → Transaction → Transaction → Prop}

/-- Without a condition on the commits it is the unconditional rule. -/
theorem Keeps.under (h : p.Keeps inv fact) : p.KeepsUnder (fun _ _ _ ↦ True) inv fact where
  symm := h.symm
  begins := h.begins
  statement := h.statement
  commits := h.commits
  stable := fun table t table' other hi hf hc hn _ ↦ h.stable table t table' other hi hf hc hn

/-- The locks of a transaction and of those around it. -/
theorem Holds.free (hsymm : ∀ a b, p.conflict a b → p.conflict b a)
    {before after : List Transaction} {t : Transaction}
    (hlocks : (before ++ t :: after).Pairwise fun a b ↦ ¬ p.conflict a b) :
    (before ++ after).Pairwise (fun a b ↦ ¬ p.conflict a b) ∧
      ∀ other ∈ before ++ after, ¬ p.conflict t other := by
  have hperm : (before ++ t :: after).Perm (t :: (before ++ after)) := List.perm_middle
  have hcons := (hperm.pairwise_iff fun {a b} hab hba ↦ hab (hsymm b a hba)).mp hlocks
  rw [List.pairwise_cons] at hcons
  exact ⟨hcons.2, hcons.1⟩

/-- Putting a transaction among others whose locks it respects. -/
theorem Holds.insert (hsymm : ∀ a b, p.conflict a b → p.conflict b a)
    {before after : List Transaction} {t : Transaction}
    (hlocks : (before ++ after).Pairwise fun a b ↦ ¬ p.conflict a b)
    (hfree : ∀ other ∈ before ++ after, ¬ p.conflict t other) :
    (before ++ t :: after).Pairwise fun a b ↦ ¬ p.conflict a b := by
  have hperm : (before ++ t :: after).Perm (t :: (before ++ after)) := List.perm_middle
  refine (hperm.pairwise_iff fun {a b} hab hba ↦ hab (hsymm b a hba)).mpr ?_
  exact List.pairwise_cons.mpr ⟨hfree, hlocks⟩

/-- One admitted step keeps the table right. -/
theorem Holds.stepUnder (h : p.KeepsUnder ok inv fact) (hs : p.Holds inv fact s)
    (hstep : p.StepUnder ok s s') : p.Holds inv fact s' := by
  obtain ⟨htable, hfacts, hlocks⟩ := hs
  cases hstep with
  | begin hbegin hfree =>
    refine ⟨htable, ?_, List.pairwise_cons.mpr ⟨hfree, hlocks⟩⟩
    intro other ho
    cases ho with
    | head => exact h.begins _ _ hbegin
    | tail _ ho => exact hfacts other ho
  | statement hstatement hfree =>
    refine ⟨htable, ?_, Holds.insert h.symm (Holds.free h.symm hlocks).1 hfree⟩
    intro other ho
    rcases List.mem_append.mp ho with hb | ha
    · exact hfacts other (List.mem_append_left _ hb)
    · cases ha with
      | head =>
        have hown := hfacts _ (List.mem_append_right _ List.mem_cons_self)
        exact h.statement _ _ _ htable hown hstatement
      | tail _ ha => exact hfacts other (List.mem_append_right _ (List.mem_cons_of_mem _ ha))
  | commit hcommit hok =>
    obtain ⟨hrest, hfree⟩ := Holds.free h.symm hlocks
    have hown := hfacts _ (List.mem_append_right _ List.mem_cons_self)
    refine ⟨h.commits _ _ _ htable hown hcommit, ?_, hrest⟩
    intro other ho
    refine h.stable _ _ _ _ htable hown hcommit (hfree other ho) (hok other ho) (hfacts other ?_)
    rcases List.mem_append.mp ho with hb | ha
    · exact List.mem_append_left _ hb
    · exact List.mem_append_right _ (List.mem_cons_of_mem _ ha)
  | rollback =>
    refine ⟨htable, ?_, (Holds.free h.symm hlocks).1⟩
    intro other ho
    refine hfacts other ?_
    rcases List.mem_append.mp ho with hb | ha
    · exact List.mem_append_left _ hb
    · exact List.mem_append_right _ (List.mem_cons_of_mem _ ha)

/-- Every admitted interleaving keeps the table right. -/
theorem Holds.runUnder (h : p.KeepsUnder ok inv fact) (hs : p.Holds inv fact s)
    (hrun : p.RunUnder ok s s') : p.Holds inv fact s' := by
  induction hrun with
  | refl => exact hs
  | tail _ hstep ih => exact ih.stepUnder h hstep

/-- One step keeps the table right. -/
theorem Holds.step (h : p.Keeps inv fact) (hs : p.Holds inv fact s) (hstep : p.Step s s') :
    p.Holds inv fact s' :=
  hs.stepUnder h.under hstep.under

/-- Every interleaving keeps the table right. -/
theorem Holds.run (h : p.Keeps inv fact) (hs : p.Holds inv fact s) (hrun : p.Run s s') :
    p.Holds inv fact s' := by
  induction hrun with
  | refl => exact hs
  | tail _ hstep ih => exact ih.step h hstep

/-- A table without open transactions that is right stays right. -/
theorem Holds.of_idle {table : Table} (htable : inv table) :
    p.Holds inv fact (⟨table, []⟩ : State Table Transaction) :=
  ⟨htable, fun _ ht ↦ (by cases ht), .nil⟩

/-- What every commit keeps stays true of the table. -/
theorem Holds.kept (h : p.Keeps inv fact) {kept : Table → Prop}
    (hkept : ∀ table t table', inv table → fact table t → p.commits table t table' →
      kept table → kept table')
    (hs : p.Holds inv fact s) (hrun : p.Run s s') (hk : kept s.table) : kept s'.table := by
  induction hrun with
  | refl => exact hk
  | @tail s₁ s₂ hrun hstep ih =>
    have hmid := hs.run h hrun
    cases hstep with
    | begin => exact ih
    | statement => exact ih
    | commit hcommit =>
      exact hkept _ _ _ hmid.table
        (hmid.facts _ (List.mem_append_right _ List.mem_cons_self)) hcommit ih
    | rollback => exact ih

end Protocol

end PenroseRoute.Lib
