import PenroseRoute.Db.Alerts
import PenroseRoute.Lib.Paging
import Mathlib.Logic.Relation

/-!
# The feed of alert changes

Models `append_change` and `list_changes` of `backend/app/db/repositories/alert_repository.py`
statement by statement, for any number of writer transactions and a reader that polls. A change
takes its cursor from a sequence, which does not roll back, and the advisory lock that a writer
holds from before that to its end keeps the cursors in the order of the commits.
-/

namespace PenroseRoute.Operations.ChangeFeed

open PenroseRoute.Db PenroseRoute.Lib

/-! ### Writers -/

/-- Where a transaction stands in `append_change`, `alert_repository.py:50`. -/
inductive AppendPoint where
  | outside
  /-- Before `pg_advisory_xact_lock(55120, 1)`. -/
  | waiting (change : NewAlertChange)
  /-- Before `nextval`. -/
  | locked (change : NewAlertChange)
  /-- Before the flush. -/
  | numbered (change : NewAlertChange) (cursor : Nat)
  deriving DecidableEq, Repr

/-- A transaction that appends changes: whether it holds the advisory lock, and the rows it has
flushed. -/
structure Writer where
  point : AppendPoint
  holdsLock : Bool
  appended : List RiskAlertChange
  deriving DecidableEq, Repr

/-- The change is new and has no cursor, `alert_repository.py:51`. -/
def accepts (change : NewAlertChange) : Bool := change.transient && change.changeId.isNone

/-- The greatest value of the sequence. -/
def maxBigint : Nat := 2 ^ 63 - 1

/-- The statements of a writer, with the value of the sequence before and after. -/
inductive Statement : Nat → Writer → Nat → Writer → Prop where
  | call {n : Nat} {held : Bool} {rows : List RiskAlertChange} (change : NewAlertChange)
      (h : accepts change) :
      Statement n ⟨.outside, held, rows⟩ n ⟨.waiting change, held, rows⟩
  | lock {n : Nat} {held : Bool} {rows : List RiskAlertChange} {change : NewAlertChange} :
      Statement n ⟨.waiting change, held, rows⟩ n ⟨.locked change, true, rows⟩
  | nextval {n : Nat} {held : Bool} {rows : List RiskAlertChange} {change : NewAlertChange}
      (h : n < maxBigint) :
      Statement n ⟨.locked change, held, rows⟩ (n + 1) ⟨.numbered change (n + 1), held, rows⟩
  | flush {n cursor : Nat} {held : Bool} {rows : List RiskAlertChange} {change : NewAlertChange} :
      Statement n ⟨.numbered change cursor, held, rows⟩ n
        ⟨.outside, held, rows ++ [change.row cursor]⟩

/-- Only one transaction has the advisory lock. -/
def conflict (a b : Writer) : Prop := a.holdsLock ∧ b.holdsLock

/-! ### The reader -/

/-- `list_changes`, `alert_repository.py:100`. -/
def listChanges (changes : List RiskAlertChange) (after limit : Nat) : List RiskAlertChange :=
  ((changes.filter fun change ↦ after < change.changeId).insertionSort
    fun a b ↦ a.changeId ≤ b.changeId).take limit

/-- One call of `list_alert_changes`, `routes/alerts.py:39`: `next_cursor` is that of the last
change. -/
def poll (changes : List RiskAlertChange) (limit : Nat) (reader : Reader RiskAlertChange Nat) :
    Reader RiskAlertChange Nat :=
  reader.receive RiskAlertChange.changeId (listChanges changes reader.cursor limit)

/-! ### Interleavings -/

/-- The committed changes in the order of their commits, the sequence, the open transactions and
the reader. -/
structure State where
  changes : List RiskAlertChange
  sequence : Nat
  writers : List Writer
  reader : Reader RiskAlertChange Nat

/-- The feed before its first change. -/
def State.initial : State := ⟨[], 0, [], ⟨0, [], 0⟩⟩

/-- One step of an interleaving. A lock is granted when no other transaction holds it. -/
inductive Step : State → State → Prop where
  | begin {changes : List RiskAlertChange} {n : Nat} {writers : List Writer}
      {reader : Reader RiskAlertChange Nat} :
      Step ⟨changes, n, writers, reader⟩ ⟨changes, n, ⟨.outside, false, []⟩ :: writers, reader⟩
  | statement {changes : List RiskAlertChange} {n n' : Nat} {before after : List Writer}
      {w w' : Writer} {reader : Reader RiskAlertChange Nat} (h : Statement n w n' w')
      (hfree : ∀ other ∈ before ++ after, ¬ conflict w' other) :
      Step ⟨changes, n, before ++ w :: after, reader⟩ ⟨changes, n', before ++ w' :: after, reader⟩
  | commit {changes : List RiskAlertChange} {n : Nat} {before after : List Writer} {w : Writer}
      {reader : Reader RiskAlertChange Nat} (h : w.point = .outside) :
      Step ⟨changes, n, before ++ w :: after, reader⟩
        ⟨changes ++ w.appended, n, before ++ after, reader⟩
  | rollback {changes : List RiskAlertChange} {n : Nat} {before after : List Writer} {w : Writer}
      {reader : Reader RiskAlertChange Nat} :
      Step ⟨changes, n, before ++ w :: after, reader⟩ ⟨changes, n, before ++ after, reader⟩
  | poll {changes : List RiskAlertChange} {n : Nat} {writers : List Writer}
      {reader : Reader RiskAlertChange Nat} (limit : Nat) (h : 0 < limit) :
      Step ⟨changes, n, writers, reader⟩ ⟨changes, n, writers, poll changes limit reader⟩

/-- Any number of steps. -/
abbrev Run : State → State → Prop := Relation.ReflTransGen Step

/-! ### What a writer keeps -/

/-- The cursors that a transaction has drawn. -/
def Writer.cursors (w : Writer) : List Nat :=
  w.appended.map (·.changeId) ++
    match w.point with
    | .numbered _ cursor => [cursor]
    | _ => []

/-- Without the lock a transaction has drawn nothing, and the cursors that it has drawn are
later than those committed. -/
structure Writer.Sound (changes : List RiskAlertChange) (n : Nat) (w : Writer) : Prop where
  idle : w.holdsLock = false → w.cursors = [] ∧ ∀ change, w.point ≠ .locked change
  sorted : w.cursors.Pairwise (· < ·)
  fresh : ∀ cursor ∈ w.cursors, 0 < cursor ∧ cursor ≤ n ∧
    ∀ change ∈ changes, change.changeId < cursor

variable {changes : List RiskAlertChange} {n n' : Nat} {w w' : Writer}

private theorem Writer.Sound.later (h : w.Sound changes n) (hn : n ≤ n') :
    w.Sound changes n' :=
  { h with fresh := fun cursor hc ↦
      ⟨(h.fresh cursor hc).1, (h.fresh cursor hc).2.1.trans hn, (h.fresh cursor hc).2.2⟩ }

/-- A statement draws at most the next value of the sequence. -/
theorem Statement.sound (hstatement : Statement n w n' w') (h : w.Sound changes n)
    (hbounded : ∀ change ∈ changes, change.changeId ≤ n) : w'.Sound changes n' ∧ n ≤ n' := by
  cases hstatement with
  | call change haccepts =>
    refine ⟨⟨fun hheld ↦ ⟨(h.idle hheld).1, fun _ hpoint ↦ (by cases hpoint)⟩, h.sorted, h.fresh⟩,
      le_rfl⟩
  | lock => exact ⟨⟨fun hheld ↦ (by cases hheld), h.sorted, h.fresh⟩, le_rfl⟩
  | @nextval held rows change hmax =>
    -- The lock is held, or the transaction could not have come here.
    have hheld : held = true := by
      cases held with
      | true => rfl
      | false => exact absurd rfl ((h.idle rfl).2 change)
    have hdrawn : ∀ cursor ∈ rows.map (·.changeId), 0 < cursor ∧ cursor ≤ n ∧
        ∀ change ∈ changes, change.changeId < cursor := by
      intro cursor hc
      exact h.fresh cursor (by simpa [Writer.cursors] using hc)
    refine ⟨⟨fun hfalse ↦ ?_, ?_, fun cursor hc ↦ ?_⟩, Nat.le_succ n⟩
    · rw [hheld] at hfalse
      cases hfalse
    · have hsorted := h.sorted
      simp only [Writer.cursors, List.append_nil] at hsorted
      simp only [Writer.cursors, List.pairwise_append, List.pairwise_singleton, true_and,
        List.mem_singleton]
      refine ⟨hsorted, fun a ha b hb ↦ ?_⟩
      have hle := (hdrawn a ha).2.1
      omega
    · cases List.mem_append.mp hc with
      | inl hc =>
        have hold := hdrawn cursor hc
        exact ⟨hold.1, hold.2.1.trans (Nat.le_succ n), hold.2.2⟩
      | inr hc =>
        rw [List.mem_singleton.mp hc]
        exact ⟨Nat.succ_pos n, le_rfl, fun change hchange ↦
          Nat.lt_succ_of_le (hbounded change hchange)⟩
  | @flush cursor held rows change =>
    have hsame : Writer.cursors ⟨.outside, held, rows ++ [change.row cursor]⟩ =
        Writer.cursors ⟨.numbered change cursor, held, rows⟩ := by
      simp [Writer.cursors, NewAlertChange.row]
    refine ⟨⟨fun hheld ↦ ⟨?_, fun _ hpoint ↦ (by cases hpoint)⟩, ?_, ?_⟩, le_rfl⟩ <;> rw [hsame]
    · exact (h.idle hheld).1
    · exact h.sorted
    · exact h.fresh

/-! ### What an interleaving keeps -/

/-- One transaction at most holds the lock, the committed changes are in the order of their
cursors, and the reader has received those up to its own. -/
structure Sound (s : State) : Prop where
  writers : ∀ w ∈ s.writers, w.Sound s.changes s.sequence
  locks : s.writers.Pairwise fun a b ↦ ¬ conflict a b
  sorted : s.changes.Pairwise fun a b ↦ a.changeId < b.changeId
  bounded : ∀ change ∈ s.changes, 0 < change.changeId ∧ change.changeId ≤ s.sequence
  reader : s.reader.UpTo RiskAlertChange.changeId 0 s.changes

private theorem conflict_symm {a b : Writer} (h : ¬ conflict a b) : ¬ conflict b a :=
  fun hba ↦ h ⟨hba.2, hba.1⟩

private theorem locks_middle {before after : List Writer} :
    (before ++ w :: after).Pairwise (fun a b ↦ ¬ conflict a b) ↔
      (∀ other ∈ before ++ after, ¬ conflict w other) ∧
        (before ++ after).Pairwise fun a b ↦ ¬ conflict a b := by
  rw [List.pairwise_middle conflict_symm, List.pairwise_cons]

private theorem mem_others {before after : List Writer} {other : Writer}
    (h : other ∈ before ++ after) : other ∈ before ++ w :: after := by
  rw [List.mem_append, List.mem_cons]
  cases List.mem_append.mp h with
  | inl h => exact .inl h
  | inr h => exact .inr (.inr h)

/-- The first state is sound. -/
theorem Sound.initial : Sound State.initial where
  writers := fun _ hw ↦ by cases hw
  locks := .nil
  sorted := .nil
  bounded := fun _ hc ↦ by cases hc
  reader := ⟨⟨[], rfl, fun _ h ↦ (by cases h)⟩, fun _ h ↦ (by cases h), .inl rfl⟩

/-- What a transaction commits comes after all that is committed. -/
theorem Writer.Sound.commits (h : w.Sound changes n)
    (hsorted : changes.Pairwise fun a b ↦ a.changeId < b.changeId) :
    (changes ++ w.appended).Pairwise (fun a b ↦ a.changeId < b.changeId) ∧
      ∀ row ∈ w.appended, (0 < row.changeId ∧ row.changeId ≤ n) ∧
        ∀ change ∈ changes, change.changeId < row.changeId := by
  have hrows : ∀ row ∈ w.appended, (0 < row.changeId ∧ row.changeId ≤ n) ∧
      ∀ change ∈ changes, change.changeId < row.changeId := by
    intro row hrow
    have hfresh := h.fresh row.changeId (List.mem_append_left _ (List.mem_map_of_mem hrow))
    exact ⟨⟨hfresh.1, hfresh.2.1⟩, hfresh.2.2⟩
  refine ⟨List.pairwise_append.mpr ⟨hsorted, ?_, fun a ha b hb ↦ (hrows b hb).2 a ha⟩, hrows⟩
  exact List.pairwise_map.mp (List.pairwise_append.mp h.sorted).1

/-- One step keeps the feed sound. -/
theorem Sound.step {s s' : State} (h : Sound s) (hstep : Step s s') : Sound s' := by
  obtain ⟨hwriters, hlocks, hsorted, hbounded, hreader⟩ := h
  cases hstep with
  | begin =>
    refine ⟨fun w hw ↦ ?_, List.pairwise_cons.mpr ⟨fun other _ hc ↦ ?_, hlocks⟩, hsorted,
      hbounded, hreader⟩
    · cases hw with
      | head =>
        exact ⟨fun _ ↦ ⟨rfl, fun _ hpoint ↦ (by cases hpoint)⟩, .nil, fun _ hc ↦ by cases hc⟩
      | tail _ hw => exact hwriters w hw
    · cases hc.1
  | @statement changes n n' before after w w' reader hstatement hfree =>
    have hown := hwriters w (List.mem_append_right _ List.mem_cons_self)
    obtain ⟨hsound, hle⟩ := hstatement.sound hown fun c hc ↦ (hbounded c hc).2
    refine ⟨fun other ho ↦ ?_, locks_middle.mpr ⟨hfree, (locks_middle.mp hlocks).2⟩, hsorted,
      fun c hc ↦ ⟨(hbounded c hc).1, (hbounded c hc).2.trans hle⟩, hreader⟩
    rw [List.mem_append, List.mem_cons] at ho
    rcases ho with ho | rfl | ho
    · exact (hwriters other (List.mem_append_left _ ho)).later hle
    · exact hsound
    · exact (hwriters other (List.mem_append_right _ (List.mem_cons_of_mem _ ho))).later hle
  | @commit changes n before after w reader hpoint =>
    have hown := hwriters w (List.mem_append_right _ List.mem_cons_self)
    obtain ⟨hfree, hrest⟩ := locks_middle.mp hlocks
    obtain ⟨hcommitted, hrows⟩ := hown.commits hsorted
    refine ⟨fun other ho ↦ ?_, hrest, hcommitted, fun c hc ↦ ?_,
      hreader.append (fun row hrow ↦ (hrows row hrow).1.1)
        fun c hc row hrow ↦ (hrows row hrow).2 c hc⟩
    · -- Another transaction has drawn nothing, or this one has nothing to commit.
      have hother := hwriters other (mem_others ho)
      refine { hother with fresh := fun cursor hc ↦ ?_ }
      have hheld : other.holdsLock = true := by
        by_contra hnot
        rw [(hother.idle (by simpa using hnot)).1] at hc
        cases hc
      have hidle : w.holdsLock = false := by
        by_contra hnot
        exact hfree other ho ⟨by simpa using hnot, hheld⟩
      have hnone : w.appended = [] := by
        have hcursors := (hown.idle hidle).1
        rw [Writer.cursors, List.append_eq_nil_iff] at hcursors
        exact List.map_eq_nil_iff.mp hcursors.1
      rw [hnone, List.append_nil]
      exact hother.fresh cursor hc
    · cases List.mem_append.mp hc with
      | inl hc => exact hbounded c hc
      | inr hc => exact (hrows c hc).1
  | rollback =>
    exact ⟨fun other ho ↦ hwriters other (mem_others ho), (locks_middle.mp hlocks).2, hsorted,
      hbounded, hreader⟩
  | poll limit hlimit =>
    exact ⟨hwriters, hlocks, hsorted, hbounded, (hreader.poll hsorted limit).1⟩

/-- Every interleaving keeps the feed sound. -/
theorem Sound.run {s s' : State} (h : Sound s) (hrun : Run s s') : Sound s' := by
  induction hrun with
  | refl => exact h
  | tail _ hstep ih => exact ih.step hstep

/-! ### What is committed and received -/

/-- What a step adds to the log comes after it, and a poll receives at least one more change
while there is one. -/
theorem Sound.progress {s s' : State} (h : Sound s) (hstep : Step s s') :
    s.changes <+: s'.changes ∧ s.reader.polls ≤ s'.reader.polls ∧
      min s.changes.length (s.reader.received.length + (s'.reader.polls - s.reader.polls)) ≤
        s'.reader.received.length ∧
      s.reader.received.length ≤ s'.reader.received.length := by
  cases hstep with
  | commit => exact ⟨List.prefix_append _ _, le_rfl, by dsimp only; omega, le_rfl⟩
  | @poll changes n writers reader limit hlimit =>
    have hreceived : (poll changes limit reader).received.length =
        min changes.length (reader.received.length + limit) := (h.reader.poll h.sorted limit).2
    have hreceivedLe : reader.received.length ≤ changes.length := h.reader.isPrefix.length_le
    have hpolls : (poll changes limit reader).polls = reader.polls + 1 := rfl
    refine ⟨List.prefix_rfl, Nat.le_succ _, ?_, ?_⟩ <;> dsimp only
    · omega
    · omega
  | begin => exact ⟨List.prefix_rfl, le_rfl, by dsimp only; omega, le_rfl⟩
  | statement => exact ⟨List.prefix_rfl, le_rfl, by dsimp only; omega, le_rfl⟩
  | rollback => exact ⟨List.prefix_rfl, le_rfl, by dsimp only; omega, le_rfl⟩

/-- A run adds to the end of the log, and as many polls as there are changes left receive them. -/
theorem Sound.catchesUp {s s' : State} (h : Sound s) (hrun : Run s s') :
    s.changes <+: s'.changes ∧ s.reader.polls ≤ s'.reader.polls ∧
      min s.changes.length (s.reader.received.length + (s'.reader.polls - s.reader.polls)) ≤
        s'.reader.received.length := by
  induction hrun with
  | refl => exact ⟨List.prefix_rfl, le_rfl, by omega⟩
  | @tail s₁ s₂ hrun hstep ih =>
    obtain ⟨hlog, hpolls, hreceived⟩ := ih
    obtain ⟨hlog', hpolls', hreceived', hkept⟩ := (h.run hrun).progress hstep
    have hlonger := hlog.length_le
    exact ⟨hlog.trans hlog', hpolls.trans hpolls', by omega⟩

/-- The feed loses and repeats nothing. In every interleaving the reader has received the
committed changes up to its cursor, once each and in the order of their cursors; what commits
later has a later cursor; and a committed change is received after as many polls as there were
changes to receive. -/
theorem feed_exactly_once {s s' : State} (h : Run .initial s) (hlater : Run s s') :
    (s.reader.received.map (·.changeId)).Pairwise (· < ·) ∧
      (∀ change, change ∈ s.reader.received ↔
        change ∈ s.changes ∧ change.changeId ≤ s.reader.cursor) ∧
      (∀ change ∈ s'.changes, change ∉ s.changes → s.reader.cursor < change.changeId) ∧
      (s.changes.length - s.reader.received.length ≤ s'.reader.polls - s.reader.polls →
        ∀ change ∈ s.changes, change ∈ s'.reader.received) := by
  have hsound := Sound.initial.run h
  have hsound' := hsound.run hlater
  obtain ⟨hlog, -, hreceived⟩ := hsound.catchesUp hlater
  refine ⟨List.pairwise_map.mpr (hsound.sorted.sublist hsound.reader.isPrefix.sublist),
    hsound.reader.mem_received_iff, fun change hchange hnew ↦ ?_, fun hpolls change hchange ↦ ?_⟩
  · obtain ⟨new, hnewrows⟩ := hlog
    have hin : change ∈ new := by
      rw [← hnewrows, List.mem_append] at hchange
      exact hchange.resolve_left hnew
    cases hsound.reader.attained with
    | inl hcursor =>
      rw [hcursor]
      exact (hsound'.bounded change hchange).1
    | inr hcursor =>
      obtain ⟨last, hlast, hkey⟩ := hcursor
      have hsorted := hsound'.sorted
      rw [← hnewrows, List.pairwise_append] at hsorted
      exact hkey ▸ hsorted.2.2 last (hsound.reader.isPrefix.subset hlast) change hin
  · have hin : s.changes <+: s'.reader.received := by
      refine List.prefix_of_prefix_length_le hlog hsound'.reader.isPrefix ?_
      omega
    exact hin.subset hchange

/-! ### Whole appends -/

/-- A transaction that finds the lock free, or holds it, appends a change without waiting. -/
theorem append_run {changes rows : List RiskAlertChange} {n : Nat} {held : Bool}
    {others : List Writer} {reader : Reader RiskAlertChange Nat} {change : NewAlertChange}
    (haccepts : accepts change) (hmax : n < maxBigint)
    (hfree : ∀ other ∈ others, other.holdsLock = false) :
    Run ⟨changes, n, ⟨.outside, held, rows⟩ :: others, reader⟩
      ⟨changes, n + 1, ⟨.outside, true, rows ++ [change.row (n + 1)]⟩ :: others, reader⟩ := by
  have hothers : ∀ w : Writer, ∀ other ∈ [] ++ others, ¬ conflict w other := by
    intro w other ho hboth
    have hheld := hboth.2
    rw [hfree other ho] at hheld
    cases hheld
  have hcall : Step ⟨changes, n, ⟨.outside, held, rows⟩ :: others, reader⟩
      ⟨changes, n, ⟨.waiting change, held, rows⟩ :: others, reader⟩ :=
    @Step.statement _ _ _ [] _ _ _ _ (.call change haccepts) (hothers _)
  have hlock : Step ⟨changes, n, ⟨.waiting change, held, rows⟩ :: others, reader⟩
      ⟨changes, n, ⟨.locked change, true, rows⟩ :: others, reader⟩ :=
    @Step.statement _ _ _ [] _ _ _ _ .lock (hothers _)
  have hnextval : Step ⟨changes, n, ⟨.locked change, true, rows⟩ :: others, reader⟩
      ⟨changes, n + 1, ⟨.numbered change (n + 1), true, rows⟩ :: others, reader⟩ :=
    @Step.statement _ _ _ [] _ _ _ _ (.nextval hmax) (hothers _)
  have hflush : Step ⟨changes, n + 1, ⟨.numbered change (n + 1), true, rows⟩ :: others, reader⟩
      ⟨changes, n + 1, ⟨.outside, true, rows ++ [change.row (n + 1)]⟩ :: others, reader⟩ :=
    @Step.statement _ _ _ [] _ _ _ _ .flush (hothers _)
  exact (((Relation.ReflTransGen.single hcall).tail hlock).tail hnextval).tail hflush

private def sampleChange : NewAlertChange :=
  ⟨true, none, 1, .created, 0, ⟨.approachingWindow, 0, 0, 0, 1800, 1⟩⟩

private def unread : Reader RiskAlertChange Nat := ⟨0, [], 0⟩

private def sampleCommitted : State :=
  ⟨[sampleChange.row 2, sampleChange.row 3], 3, [], unread⟩

private theorem sampleCommitted_run : Run .initial sampleCommitted := by
  have hfirst : Run .initial ⟨[], 1, [⟨.outside, true, [sampleChange.row 1]⟩], unread⟩ :=
    (append_run (by decide) (by decide) (by simp)).head .begin
  have hrolled : Run .initial ⟨[], 1, [⟨.outside, false, []⟩], unread⟩ :=
    (hfirst.tail (@Step.rollback _ _ [] [] _ _)).tail .begin
  have hboth : Run .initial
      ⟨[], 3, [⟨.outside, true, [sampleChange.row 2, sampleChange.row 3]⟩], unread⟩ :=
    (hrolled.trans (append_run (by decide) (by decide) (by simp))).trans
      (append_run (by decide) (by decide) (by simp))
  exact hboth.tail (@Step.commit _ _ [] [] _ _ rfl)

/-- Two polls for one change each receive both. -/
theorem feed_exactly_once_two_polls :
    ∃ s s', Run .initial s ∧ Run s s' ∧ s.changes.length = 2 ∧ s.reader.received = [] ∧
      (s.reader.received.map (·.changeId)).Pairwise (· < ·) ∧
      (∀ change ∈ s.changes, change ∈ s'.reader.received) := by
  have hpolls : Run sampleCommitted
      ⟨sampleCommitted.changes, 3, [], poll sampleCommitted.changes 1
        (poll sampleCommitted.changes 1 unread)⟩ :=
    (Relation.ReflTransGen.single (.poll 1 (by decide))).tail (.poll 1 (by decide))
  have hfeed := feed_exactly_once sampleCommitted_run hpolls
  exact ⟨_, _, sampleCommitted_run, hpolls, rfl, rfl, hfeed.1, hfeed.2.2.2 (by decide)⟩

end PenroseRoute.Operations.ChangeFeed
