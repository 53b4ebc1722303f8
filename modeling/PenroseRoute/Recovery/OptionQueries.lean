import Mathlib.Data.Char
import Mathlib.Data.List.Lex
import Mathlib.Data.Prod.Lex
import PenroseRoute.Lib.IsoFormat
import PenroseRoute.Lib.Sorting
import PenroseRoute.Recovery.Options

/-!
# Published options

Models the ranking at the end of `_generate`, `options.py:231`, and `list_options` of
`backend/app/modules/recovery/option_queries.py`. What the ranking stores in the `options` of an
attempt and only the listing reads back stands beside the database, by attempt; texts and views
that are passed through are left out.
-/

namespace PenroseRoute.Recovery

open PenroseRoute.Db PenroseRoute.Lib

namespace RecoveryOptionsWorkflow

/-! ### Ranking -/

/-- The stored `metrics` of an option, `options.py:197`: the completion is a text. -/
structure StoredMetrics where
  unassignedOrderCount : Nat
  reassignedOrderCount : Nat
  changedOrderCount : Nat
  handoverCount : Nat
  completionAt : List Char
  deriving DecidableEq, Repr

/-- A published attempt with its stored metrics. -/
structure StoredRow where
  attemptId : UUID
  attemptNo : Nat
  metrics : StoredMetrics
  deriving DecidableEq, Repr

/-- `metrics=dict(...)`, `options.py:197`. An instant that no `datetime` is cannot be stored. -/
def storeMetrics (metrics : OptionMetrics) : Except AppError StoredMetrics := do
  let completionAt ← orRaise (isoformat? metrics.completionAt) (.uncaught "OverflowError")
  return {
    unassignedOrderCount := metrics.unassignedOrderCount
    reassignedOrderCount := metrics.reassignedOrderCount
    changedOrderCount := metrics.changedOrderCount
    handoverCount := metrics.handoverCount
    completionAt := completionAt }

/-- The row that is stored for a published attempt. -/
def storeRow (row : BatchRow) : Except AppError StoredRow := do
  let metrics ← storeMetrics row.metrics
  return ⟨row.attemptId, row.attemptNo, metrics⟩

/-- The counts of `priority_key`, `options.py:35`, which come before the text. -/
def StoredMetrics.counts (metrics : StoredMetrics) : List Nat :=
  [metrics.unassignedOrderCount, metrics.reassignedOrderCount, metrics.changedOrderCount,
    metrics.handoverCount]

/-- `(priority_key(...), attempt_no)` of one row is at most that of another one,
`options.py:225`; texts are compared as texts. -/
def rankLe (a b : StoredRow) : Prop :=
  a.metrics.counts < b.metrics.counts ∨ a.metrics.counts = b.metrics.counts ∧
    (a.metrics.completionAt < b.metrics.completionAt ∨
      a.metrics.completionAt = b.metrics.completionAt ∧ a.attemptNo ≤ b.attemptNo)

/-- The columns are compared. -/
instance : DecidableRel rankLe := fun _ _ ↦ inferInstanceAs (Decidable (_ ∨ _ ∧ (_ ∨ _ ∧ _)))

/-- The key of a row in the order of tuples. -/
def StoredRow.key (row : StoredRow) : List Nat ×ₗ List Char ×ₗ Nat :=
  toLex (row.metrics.counts, toLex (row.metrics.completionAt, row.attemptNo))

/-- Rows are compared by their keys. -/
theorem rankLe_iff_key {a b : StoredRow} : rankLe a b ↔ a.key ≤ b.key := by
  rw [rankLe, StoredRow.key, StoredRow.key, Prod.Lex.toLex_le_toLex, Prod.Lex.toLex_le_toLex]

/-- Any two rows are ranked. -/
instance : Std.Total rankLe :=
  ⟨fun a b ↦ (le_total a.key b.key).imp rankLe_iff_key.mpr rankLe_iff_key.mpr⟩

/-- The ranks are transitive. -/
instance : IsTrans StoredRow rankLe :=
  ⟨fun _ _ _ h h' ↦ rankLe_iff_key.mpr ((rankLe_iff_key.mp h).trans (rankLe_iff_key.mp h'))⟩

/-- What is stored for a ranked option, `options.py:226`. -/
structure RankedOption where
  attemptId : UUID
  attemptNo : Nat
  metrics : StoredMetrics
  priority : Nat
  deriving DecidableEq, Repr

/-- `rows.sort(...)` and the priorities, `options.py:225`. -/
def rank (rows : List StoredRow) : List RankedOption :=
  ((rows.insertionSort rankLe).zipIdx 1).map fun (row, priority) ↦
    ⟨row.attemptId, row.attemptNo, row.metrics, priority⟩

private theorem not_lt_iff (a b c d a' b' c' d' m n : Nat) (x y : Int) :
    ¬ ([(a' : Int), b', c', d', y, n] < [(a : Int), b, c, d, x, m]) ↔
      [a, b, c, d] < [a', b', c', d'] ∨ [a, b, c, d] = [a', b', c', d'] ∧
        (x < y ∨ x = y ∧ m ≤ n) := by
  simp only [List.cons_lt_cons_iff, List.cons.injEq, List.lt_irrefl, and_true, and_false,
    or_false]
  omega

/-- A stored row keeps the counts of its row, and its completion is the text of the instant. -/
theorem storeRow_ok {row : BatchRow} {stored : StoredRow} (h : storeRow row = .ok stored) :
    stored.attemptId = row.attemptId ∧ stored.attemptNo = row.attemptNo ∧
      stored.metrics.counts = [row.metrics.unassignedOrderCount,
        row.metrics.reassignedOrderCount, row.metrics.changedOrderCount,
        row.metrics.handoverCount] ∧
      isoformat? row.metrics.completionAt = some stored.metrics.completionAt := by
  obtain ⟨metrics, hm, h⟩ := bind_eq_ok.mp h
  obtain ⟨text, ht, hm⟩ := bind_eq_ok.mp hm
  cases h
  cases hm
  rw [orRaise_eq_ok] at ht
  exact ⟨rfl, rfl, rfl, ht⟩

/-- Stored rows are ranked by the instants of their completions. -/
theorem rankLe_iff {a b : BatchRow} {s t : StoredRow} (ha : storeRow a = .ok s)
    (hb : storeRow b = .ok t) :
    rankLe s t ↔
      ¬ priorityKey b.metrics b.attemptNo < priorityKey a.metrics a.attemptNo := by
  obtain ⟨-, hno, hcounts, htext⟩ := storeRow_ok ha
  obtain ⟨-, hno', hcounts', htext'⟩ := storeRow_ok hb
  rw [rankLe, hcounts, hcounts', hno, hno', isoformat?_lt_iff htext htext',
    isoformat?_inj htext htext', ← not_lt_iff]
  exact Iff.rfl

/-- The last transaction of `_generate` with what it stores for the listing; `finish` is the
database alone. -/
def publishBatch (services : Services) (fingerprint : RecoveryContext → Nat) (db : Database)
    (run : Run) (maxCandidates : Nat) (contexts : List RecoveryContext)
    (solved : List (RecoveryContext × Optimization.SolverResult)) :
    Except AppError (Database × List RankedOption) := do
  let batch ← persistBatch services fingerprint db run contexts solved
  let stored ← batch.rows.mapM storeRow
  return (closeBatch run maxCandidates batch, rank stored)

/-- The stored row of a ranked option. -/
def RankedOption.row (option : RankedOption) : StoredRow :=
  ⟨option.attemptId, option.attemptNo, option.metrics⟩

/-- The ranked options are the sorted rows. -/
theorem map_row_rank (rows : List StoredRow) :
    (rank rows).map (·.row) = rows.insertionSort rankLe := by
  rw [rank, List.map_map]
  exact List.zipIdx_map_fst 1 _

/-- The priorities are 1, 2, and so on. -/
theorem map_priority_rank (rows : List StoredRow) :
    (rank rows).map (·.priority) = List.range' 1 (rank rows).length := by
  rw [rank, List.map_map, List.length_map, List.length_zipIdx]
  exact List.zipIdx_map_snd 1 _

/-- The ranked options are the rows of the batch in the order of their keys, with the instants
of their completions. -/
theorem rank_forall₂ {rows : List BatchRow} {stored : List StoredRow}
    (h : rows.mapM storeRow = .ok stored) :
    List.Forall₂ (fun row option ↦ storeRow row = .ok option.row)
      (rows.insertionSort fun a b ↦
        ¬ priorityKey b.metrics b.attemptNo < priorityKey a.metrics a.attemptNo)
      (rank stored) := by
  have hsorted := forall₂_insertionSort (r := fun a b : BatchRow ↦
      ¬ priorityKey b.metrics b.attemptNo < priorityKey a.metrics a.attemptNo) (s := rankLe)
    (fun _ _ _ _ ha hb ↦ (rankLe_iff ha hb).symm) (mapM_eq_ok_iff.mp h)
  rw [← map_row_rank, List.forall₂_map_right_iff] at hsorted
  exact hsorted

/-- What the last transaction stores. -/
theorem publishBatch_ok {services : Services} {fingerprint : RecoveryContext → Nat}
    {db db' : Database} {run : Run} {maxCandidates : Nat} {contexts : List RecoveryContext}
    {solved : List (RecoveryContext × Optimization.SolverResult)} {columns : List RankedOption}
    (h : publishBatch services fingerprint db run maxCandidates contexts solved =
      .ok (db', columns)) :
    finish services fingerprint db run maxCandidates contexts solved = .ok db' ∧
    ∃ reserved batch stored, db.recoveryPlan? run.attemptId = some reserved ∧
      solved.foldlM (persistOption services fingerprint db.nextId reserved)
        { db := { db with nextId := db.nextId + 1 }, rows := [], signatures := [] } = .ok batch ∧
      batch.rows.mapM storeRow = .ok stored ∧
      db' = closeBatch run maxCandidates batch ∧ columns = rank stored := by
  obtain ⟨batch, hb, h⟩ := bind_eq_ok.mp h
  obtain ⟨stored, hs, h⟩ := bind_eq_ok.mp h
  cases h
  obtain ⟨-, -, reserved, hr, hfold⟩ := persistBatch_ok hb
  exact ⟨bind_eq_ok.mpr ⟨batch, hb, rfl⟩, reserved, batch, stored, hr, hfold, hs, rfl, rfl⟩

/-! ### Listing -/

/-- The `outcome` of a listing, `option_queries.py:19` and `:46`. -/
inductive OptionOutcome where
  | notStarted
  | generating
  | failed
  | noFeasibleRecovery
  | legacyRecovery
  | pendingReview
  | decided
  deriving DecidableEq, Repr

/-- An entry of `candidates`, `option_queries.py:36`. -/
structure ListedOption where
  recoveryPlanId : UUID
  priority : Nat
  metrics : StoredMetrics
  reviewable : Bool
  deriving DecidableEq, Repr

/-- The answer of `list_options`. -/
structure OptionList where
  outcome : OptionOutcome
  candidates : List ListedOption
  recommendedRecoveryPlanId : Option UUID
  manualInterventionRequired : Bool
  deriving DecidableEq, Repr

/-- `reviewable`, `option_queries.py:41`. -/
def isReviewable (db : Database) (attempt : RecoveryPlan) : Bool :=
  attempt.isPending && (db.plan? attempt.baseDeliveryPlanId).any (·.status == .current) &&
    (attempt.candidateDeliveryPlanId.bind db.plan?).any (·.status == .candidate)

/-- The outcome of a latest attempt without options, `option_queries.py:18`. -/
def outcomeWithoutOptions : Option Optimization.SolverStatus → OptionOutcome
  | none => .generating
  | some .error => .failed
  | some .infeasible => .noFeasibleRecovery
  | some .feasible => .legacyRecovery

/-- The answer without options, `option_queries.py:28`. -/
def noOptions (outcome : OptionOutcome) : OptionList where
  outcome := outcome
  candidates := []
  recommendedRecoveryPlanId := none
  manualInterventionRequired := outcome == .failed || outcome == .noFeasibleRecovery

/-- The attempt is an option of a batch within its limit, `option_queries.py:34`. -/
def isListed (batchId : UUID) (attempt : RecoveryPlan) : Bool :=
  attempt.options.any fun option ↦ option.batchId == batchId && !option.filteredByLimit

/-- One pass of the loop of `list_options`, `option_queries.py:36`. -/
def listOption (db : Database) (column : UUID → Option RankedOption) (attempt : RecoveryPlan) :
    Except AppError ListedOption := do
  let option ← orRaise (column attempt.id) (.uncaught "KeyError")
  return ⟨attempt.id, option.priority, option.metrics, isReviewable db attempt⟩

/-- The answer for the listed options, `option_queries.py:44`. -/
def answer (incident : Incident) (listed : List ListedOption) : OptionList :=
  let candidates := listed.insertionSort fun a b ↦ a.priority ≤ b.priority
  let active := candidates.filter (·.reviewable)
  { outcome := if active = [] then .decided else .pendingReview
    candidates := candidates
    recommendedRecoveryPlanId := active.head?.map (·.recoveryPlanId)
    manualInterventionRequired := active = [] && incident.status != .resolved }

/-- `list_options`, `option_queries.py:10`; the last attempt with options is the last attempt
whenever it has options. -/
def listOptions (db : Database) (column : UUID → Option RankedOption) (incidentId : UUID) :
    Except AppError OptionList := do
  let incident ← orRaise (db.incident? incidentId) (.notFound "INCIDENT_NOT_FOUND")
  match (db.attempts incidentId).getLast? with
  | none => return noOptions .notStarted
  | some latest =>
    match latest.options with
    | none => return noOptions (outcomeWithoutOptions latest.solverStatus)
    | some newest =>
      let listed ← ((db.attempts incidentId).filter (isListed newest.batchId)).mapM
        (listOption db column)
      return answer incident listed

end RecoveryOptionsWorkflow

end PenroseRoute.Recovery
