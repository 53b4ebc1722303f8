import PenroseRoute.Lifecycle.InForce
import PenroseRoute.Recovery.OptionQueries

/-!
# Batches of options

What the last transaction of the options workflow leaves behind: its rows in the order of their
keys, each with the plan that it was measured on, and nothing else under the id of the batch.
-/

namespace PenroseRoute.Lifecycle

open PenroseRoute.Db PenroseRoute.Lib PenroseRoute.Recovery PenroseRoute.Optimization
open RecoveryOptionsWorkflow

/-- An option of a batch: its attempt, its plan and its metrics. -/
structure PublishedOption where
  attempt : RecoveryPlan
  candidate : DeliveryPlan
  metrics : OptionMetrics
  deriving DecidableEq, Repr

namespace PublishedOption

/-- The row of an option in the loop. -/
def row (option : PublishedOption) : BatchRow :=
  ⟨option.attempt.id, option.attempt.attemptNo, option.metrics⟩

/-- The business plan of an option. -/
def signature (option : PublishedOption) : List (UUID × List (UUID × StopType × UUID)) :=
  planSignature option.candidate

/-- What the loop stores of an option. -/
structure Stored (db : Database) (run : Run) (batchId : UUID) (contexts : List RecoveryContext)
    (option : PublishedOption) : Prop where
  attempt : option.attempt ∈ db.recoveryPlans
  candidate : option.candidate ∈ db.plans
  candidateId : option.attempt.candidateDeliveryPlanId = some option.candidate.id
  incidentId : option.attempt.incidentId = run.incidentId
  summary : option.attempt.options.map (fun summary ↦ (summary.batchId, summary.filteredByLimit)) =
    some (batchId, false)
  pending : option.attempt.status = .pendingReview
  status : option.candidate.status = .candidate
  measured : ∃ context ∈ contexts, ∃ base ∈ db.plans, base.id = context.basePlanId ∧
    optionMetrics context base option.candidate = .ok option.metrics

/-- Rows that stay keep an option stored. -/
theorem Stored.mono {db db' : Database} {run : Run} {batchId : UUID}
    {contexts : List RecoveryContext} {option : PublishedOption}
    (h : Stored db run batchId contexts option)
    (hattempt : option.attempt ∈ db'.recoveryPlans) (hplans : db.plans ⊆ db'.plans) :
    Stored db' run batchId contexts option := by
  obtain ⟨context, hc, base, hb, hid, hm⟩ := h.measured
  exact { h with
    attempt := hattempt
    candidate := hplans h.candidate
    measured := ⟨context, hc, base, hplans hb, hid, hm⟩ }

end PublishedOption

open PublishedOption

/-! ### The loop -/

variable {db db' : Database} {run : Run}

/-- What the loop keeps: its rows are options with different business plans, numbered from the
reserved attempt on, and nothing else has the id of the batch. -/
structure BatchRows (db : Database) (run : Run) (batchId : UUID) (contexts : List RecoveryContext)
    (reserved : RecoveryPlan) (batch : Batch) (options : List PublishedOption) : Prop where
  rows : batch.rows = options.map (·.row)
  signatures : batch.signatures = options.map (·.signature)
  distinct : (options.map (·.signature)).Nodup
  stored : ∀ option ∈ options, Stored batch.db run batchId contexts option
  numbers : options.map (·.attempt.attemptNo) = List.range' reserved.attemptNo options.length
  only : ∀ attempt ∈ batch.db.recoveryPlans, attempt.options.map (·.batchId) = some batchId →
    attempt ∈ options.map (·.attempt)
  plans : ∃ added, batch.db.plans = db.plans ++ added

section

variable {batchId : UUID} {contexts : List RecoveryContext} {reserved : RecoveryPlan}
  {batch : Batch} {options : List PublishedOption}

/-- A further row is appended to the attempts, and its candidate to the plans. -/
theorem further_tables (hb : (ledgerOf batch.db).Sound) {option : RecoveryContext × SolverResult}
    {previous : BatchRow} (hprevious : batch.rows.getLast? = some previous)
    {created added : Database} {candidate : DeliveryPlan}
    (hc : createCandidate batch.db option.1 option.2 none = .ok (created, candidate))
    {attempt : RecoveryPlan}
    (hn : nextRow created reserved batch.rows option.1 = .ok (added, attempt))
    (f : RecoveryPlan → RecoveryPlan) :
    (added.updateRecoveryPlan attempt.id f).recoveryPlans =
        batch.db.recoveryPlans ++ [f attempt] ∧
      (added.updateRecoveryPlan attempt.id f).plans = batch.db.plans ++ [candidate] := by
  obtain ⟨-, -, hlt⟩ := ledgerOf_createCandidate hc
  obtain ⟨-, hdb⟩ := createCandidate_ok hc
  obtain ⟨hattempt, rfl⟩ := nextRow_ok hprevious hn
  have hsame : created.recoveryPlans = batch.db.recoveryPlans := by rw [hdb]
  have hid : attempt.id = created.nextId := by rw [hattempt]; rfl
  have hnew : ∀ other ∈ batch.db.recoveryPlans, other.id ≠ attempt.id := by
    intro other ho
    have hfresh := hb.numbered.attemptsFresh (keyOf other) (List.mem_map.mpr ⟨other, ho, rfl⟩)
    rw [hid]
    exact Nat.ne_of_lt (Nat.lt_trans hfresh hlt)
  refine ⟨?_, ?_⟩
  · have hrows := updateWhere_append_new f hnew
    rw [← hsame] at hrows ⊢
    exact hrows
  · change created.plans = _
    rw [hdb]

private theorem range'_concat {xs : List Nat} {start n : Nat} (h : xs = List.range' start xs.length)
    (hlast : n = start + xs.length) : xs ++ [n] = List.range' start (xs ++ [n]).length := by
  rw [List.length_append, List.length_singleton, List.range'_concat, Nat.one_mul, ← h, hlast]

/-- A row that is added is an option. -/
theorem BatchRows.add (h : BatchRows db run batchId contexts reserved batch options)
    {option : RecoveryContext × SolverResult} (hcontext : option.1 ∈ contexts)
    {created : Database} {candidate base : DeliveryPlan} {metrics : OptionMetrics}
    (hc : createCandidate batch.db option.1 option.2 none = .ok (created, candidate))
    (hsignature : planSignature candidate ∉ batch.signatures)
    (hbase : created.plan? option.1.basePlanId = some base)
    (hm : optionMetrics option.1 base candidate = .ok metrics) {next : Database}
    {published : RecoveryPlan} (hmem : published ∈ next.recoveryPlans)
    (hkept : ∀ kept ∈ options, kept.attempt ∈ next.recoveryPlans)
    (honly : ∀ attempt ∈ next.recoveryPlans, attempt = published ∨
      attempt ∈ batch.db.recoveryPlans)
    (hplans : next.plans = batch.db.plans ++ [candidate])
    (hi : published.incidentId = run.incidentId)
    (hcandidate : published.candidateDeliveryPlanId = some candidate.id)
    (hsummary : published.options.map (fun summary ↦
      (summary.batchId, summary.filteredByLimit)) = some (batchId, false))
    (hpending : published.status = .pendingReview)
    (hno : published.attemptNo = reserved.attemptNo + options.length) :
    BatchRows db run batchId contexts reserved {
      db := next
      rows := batch.rows ++ [⟨published.id, published.attemptNo, metrics⟩]
      signatures := batch.signatures ++ [planSignature candidate] }
      (options ++ [⟨published, candidate, metrics⟩]) where
  rows := by
    rw [h.rows, List.map_append]
    rfl
  signatures := by
    rw [h.signatures, List.map_append]
    rfl
  distinct := by
    rw [List.map_append, List.nodup_append]
    refine ⟨h.distinct, List.nodup_singleton _, ?_⟩
    intro a ha b hb he
    rw [← h.signatures, he, List.mem_singleton.mp hb] at ha
    exact hsignature ha
  stored := by
    have hsub : batch.db.plans ⊆ next.plans := by
      rw [hplans]
      exact List.subset_append_left _ _
    have hcm : candidate ∈ next.plans := by
      rw [hplans]
      exact List.mem_append_right _ (List.mem_singleton.mpr rfl)
    intro kept hk
    rcases List.mem_append.mp hk with hk | hk
    · exact (h.stored kept hk).mono (hkept kept hk) hsub
    · rw [List.mem_singleton.mp hk]
      obtain ⟨hcreated, hdb⟩ := createCandidate_ok hc
      refine ⟨hmem, hcm, hcandidate, hi, hsummary, hpending, ?_, option.1, hcontext, base, ?_,
        (plan?_mem hbase).2, hm⟩
      · change candidate.status = .candidate
        rw [hcreated.row]
        rfl
      · have hb := (plan?_mem hbase).1
        rw [hdb] at hb
        rw [hplans]
        exact hb
  numbers := by
    have hlen : (options.map (·.attempt.attemptNo)).length = options.length := List.length_map _
    have hold := h.numbers
    rw [← hlen] at hold hno
    have hnew := range'_concat hold hno
    rw [List.map_append, List.map_singleton]
    rw [List.length_append, hlen] at hnew
    rw [List.length_append]
    exact hnew
  only := by
    intro attempt ha hb
    rw [List.map_append, List.mem_append]
    rcases honly attempt ha with rfl | hold
    · exact .inr (List.mem_singleton.mpr rfl)
    · exact .inl (h.only attempt hold hb)
  plans := by
    obtain ⟨added, ha⟩ := h.plans
    exact ⟨added ++ [candidate], by rw [hplans, ha, List.append_assoc]⟩

/-- The first row is the reserved attempt. -/
theorem BatchRows.first (h : BatchRows db run batchId contexts reserved batch options)
    (hok : BatchOk (ledgerOf db) run batchId reserved batch) (hl : (ledgerOf db).Sound)
    (hi : reserved.incidentId = run.incidentId) {option : RecoveryContext × SolverResult}
    (hcontext : option.1 ∈ contexts) {created : Database} {candidate base : DeliveryPlan}
    {metrics : OptionMetrics} {fingerprint : RecoveryContext → Nat} (hnone : batch.rows = [])
    (hc : createCandidate batch.db option.1 option.2 none = .ok (created, candidate))
    (hsignature : planSignature candidate ∉ batch.signatures)
    (hbase : created.plan? option.1.basePlanId = some base)
    (hm : optionMetrics option.1 base candidate = .ok metrics) :
    ∃ options', BatchRows db run batchId contexts reserved {
      db := created.updateRecoveryPlan reserved.id
        (publishOption fingerprint batchId option.1 candidate.id)
      rows := batch.rows ++ [⟨reserved.id, reserved.attemptNo, metrics⟩]
      signatures := batch.signatures ++ [planSignature candidate] } options' := by
  have hb := hok.moves.sound hl
  have hmem : reserved ∈ batch.db.recoveryPlans := hok.reserved hnone
  have hnil : options = [] := List.map_eq_nil_iff.mp (h.rows.symm.trans hnone)
  obtain ⟨-, hdb⟩ := createCandidate_ok hc
  have hattempts : created.recoveryPlans = batch.db.recoveryPlans := by rw [hdb]
  have hplans : created.plans = batch.db.plans ++ [candidate] := by rw [hdb]
  have hpublished : publishOption fingerprint batchId option.1 candidate.id reserved ∈
      (created.updateRecoveryPlan reserved.id
        (publishOption fingerprint batchId option.1 candidate.id)).recoveryPlans := by
    refine mem_updateWhere_of_true ?_ (beq_self_eq_true _)
    rw [hattempts]
    exact hmem
  have hadd := h.add hcontext hc hsignature hbase hm hpublished
  refine ⟨_, hadd ?_ ?_ hplans hi rfl rfl rfl ?_⟩
  · intro kept hk
    rw [hnil] at hk
    cases hk
  · intro attempt ha
    obtain ⟨old, hold, ⟨he, rfl⟩ | ⟨-, rfl⟩⟩ := mem_updateWhere.mp ha
    · rw [hattempts] at hold
      rw [Ledger.attempt_eq hb.numbered hold hmem (eq_of_beq he)]
      exact .inl rfl
    · rw [hattempts] at hold
      exact .inr hold
  · rw [hnil]
    rfl

/-- A further row has the next number. -/
theorem BatchRows.next_no (h : BatchRows db run batchId contexts reserved batch options)
    {previous : BatchRow} (hprevious : batch.rows.getLast? = some previous) :
    previous.attemptNo + 1 = reserved.attemptNo + options.length := by
  rw [h.rows, List.getLast?_map] at hprevious
  obtain ⟨last, hlast, rfl⟩ := Option.map_eq_some_iff.mp hprevious
  have hnumbers := congrArg List.getLast? h.numbers
  rw [List.getLast?_map, hlast, List.getLast?_range'] at hnumbers
  have hne : options.length ≠ 0 := by
    intro h0
    rw [List.length_eq_zero_iff.mp h0] at hlast
    cases hlast
  rw [if_neg hne, Option.map_some, Option.some.injEq] at hnumbers
  have hrow : last.row.attemptNo = last.attempt.attemptNo := rfl
  omega

/-- Every further row is an attempt behind the previous one. -/
theorem BatchRows.further (h : BatchRows db run batchId contexts reserved batch options)
    (hok : BatchOk (ledgerOf db) run batchId reserved batch) (hl : (ledgerOf db).Sound)
    {option : RecoveryContext × SolverResult} (hcontext : option.1 ∈ contexts)
    (hi : option.1.incidentId = run.incidentId) {previous : BatchRow}
    (hprevious : batch.rows.getLast? = some previous) {created added : Database}
    {candidate base : DeliveryPlan} {metrics : OptionMetrics}
    {fingerprint : RecoveryContext → Nat}
    (hc : createCandidate batch.db option.1 option.2 none = .ok (created, candidate))
    (hsignature : planSignature candidate ∉ batch.signatures)
    (hbase : created.plan? option.1.basePlanId = some base)
    (hm : optionMetrics option.1 base candidate = .ok metrics) {attempt : RecoveryPlan}
    (hn : nextRow created reserved batch.rows option.1 = .ok (added, attempt)) :
    ∃ options', BatchRows db run batchId contexts reserved {
      db := added.updateRecoveryPlan attempt.id
        (publishOption fingerprint batchId option.1 candidate.id)
      rows := batch.rows ++ [⟨attempt.id, attempt.attemptNo, metrics⟩]
      signatures := batch.signatures ++ [planSignature candidate] } options' := by
  obtain ⟨hattempts, hplans⟩ := further_tables (hok.moves.sound hl) hprevious hc hn
    (publishOption fingerprint batchId option.1 candidate.id)
  obtain ⟨hattempt, -⟩ := nextRow_ok hprevious hn
  have hpublished : publishOption fingerprint batchId option.1 candidate.id attempt ∈
      (added.updateRecoveryPlan attempt.id
        (publishOption fingerprint batchId option.1 candidate.id)).recoveryPlans := by
    rw [hattempts]
    exact List.mem_append_right _ (List.mem_singleton.mpr rfl)
  have hadd := h.add hcontext hc hsignature hbase hm hpublished
  refine ⟨_, hadd ?_ ?_ hplans ?_ rfl rfl rfl ?_⟩
  · intro kept hk
    rw [hattempts]
    exact List.mem_append_left _ (h.stored kept hk).attempt
  · intro other ho
    rw [hattempts, List.mem_append, List.mem_singleton] at ho
    exact ho.symm
  · exact (congrArg RecoveryPlan.incidentId hattempt).trans hi
  · exact (congrArg RecoveryPlan.attemptNo hattempt).trans (h.next_no hprevious)

/-- Every pass of the loop keeps the rows and the options together. -/
theorem BatchRows.step (h : BatchRows db run batchId contexts reserved batch options)
    (hok : BatchOk (ledgerOf db) run batchId reserved batch) (hl : (ledgerOf db).Sound)
    (hi : reserved.incidentId = run.incidentId) {option : RecoveryContext × SolverResult}
    (hcontext : option.1 ∈ contexts) (hof : option.1.incidentId = run.incidentId)
    {services : Services} {fingerprint : RecoveryContext → Nat} {batch' : Batch}
    (hp : persistOption services fingerprint batchId reserved batch option = .ok batch') :
    ∃ options', BatchRows db run batchId contexts reserved batch' options' := by
  rcases persistOption_row hp with
    rfl | ⟨created, candidate, base, metrics, added, attempt, hc, hs, hb, hm, hn, rfl⟩
  · exact ⟨options, h⟩
  · cases hprevious : batch.rows.getLast? with
    | none =>
      rw [nextRow, hprevious, Except.ok.injEq, Prod.mk.injEq] at hn
      obtain ⟨rfl, rfl⟩ := hn
      exact h.first hok hl hi hcontext (List.getLast?_eq_none_iff.mp hprevious) hc hs hb hm
    | some previous => exact h.further hok hl hcontext hof hprevious hc hs hb hm hn

end

/-! ### The ranking -/

namespace PublishedOption

/-- What an option is ranked by. -/
def key (option : PublishedOption) : List Int :=
  priorityKey option.metrics option.attempt.attemptNo

/-- The options in the order of their keys. -/
def sorted (options : List PublishedOption) : List PublishedOption :=
  options.insertionSort fun a b ↦ ¬ b.key < a.key

/-- An option beyond the limit. -/
def filtered (option : PublishedOption) : PublishedOption where
  attempt := filterRow option.attempt
  candidate := { option.candidate with status := .cancelled }
  metrics := option.metrics

/-- The options of a batch as they are left behind. -/
def published (maxCandidates : Nat) (options : List PublishedOption) : List PublishedOption :=
  (sorted options).take maxCandidates ++ ((sorted options).drop maxCandidates).map (·.filtered)

/-- Sorting keeps the options. -/
theorem sorted_perm (options : List PublishedOption) : (sorted options).Perm options :=
  List.perm_insertionSort _ options

/-- What filtering leaves alone is as in the order of the keys. -/
theorem map_published {α : Type} {f : PublishedOption → α}
    (hf : ∀ option, f option.filtered = f option)
    (maxCandidates : Nat) (options : List PublishedOption) :
    (published maxCandidates options).map f = (sorted options).map f := by
  have hcomp : f ∘ (·.filtered) = f := funext hf
  rw [published, List.map_append, List.map_map, hcomp, ← List.map_append, List.take_append_drop]

/-- The options within the limit come first. -/
theorem take_published (maxCandidates : Nat) (options : List PublishedOption) :
    (published maxCandidates options).take maxCandidates = (sorted options).take maxCandidates := by
  rcases Nat.le_total maxCandidates (sorted options).length with hle | hle
  · exact List.take_left' (List.length_take_of_le hle)
  · rw [published, List.drop_eq_nil_of_le hle, List.map_nil, List.append_nil, List.take_take,
      Nat.min_self]

/-- The options beyond the limit are filtered. -/
theorem drop_published (maxCandidates : Nat) (options : List PublishedOption) :
    (published maxCandidates options).drop maxCandidates =
      ((sorted options).drop maxCandidates).map (·.filtered) := by
  rcases Nat.le_total maxCandidates (sorted options).length with hle | hle
  · exact List.drop_left' (List.length_take_of_le hle)
  · rw [published, List.drop_eq_nil_of_le hle, List.map_nil, List.append_nil,
      List.drop_eq_nil_of_le (List.length_take_le _ _)]

/-- The number of an option is part of its key. -/
theorem attemptNo_eq_of_key {a b : PublishedOption} (h : a.key = b.key) :
    a.attempt.attemptNo = b.attempt.attemptNo := by
  simp only [key, priorityKey, List.cons.injEq, and_true] at h
  exact Int.ofNat.inj h.2.2.2.2.2

/-- Options with different numbers are strictly ordered by their keys. -/
theorem pairwise_key_sorted {options : List PublishedOption}
    (hnos : (options.map (·.attempt.attemptNo)).Nodup) :
    ((sorted options).map (·.key)).Pairwise (· < ·) := by
  have htotal : Std.Total fun a b : PublishedOption ↦ ¬ b.key < a.key := ⟨fun a b ↦ by
    by_cases h : b.key < a.key
    · exact .inr (lt_asymm h)
    · exact .inl h⟩
  have htrans : IsTrans PublishedOption fun a b ↦ ¬ b.key < a.key :=
    ⟨fun _ _ _ h h' ↦ not_lt.mpr ((not_lt.mp h).trans (not_lt.mp h'))⟩
  have hne : (sorted options).Pairwise fun a b ↦ a.attempt.attemptNo ≠ b.attempt.attemptNo :=
    List.pairwise_map.mp (((sorted_perm options).map _).nodup_iff.mpr hnos)
  rw [List.pairwise_map]
  exact ((List.pairwise_insertionSort _ options).and hne).imp fun ⟨hle, hn⟩ ↦
    lt_of_le_of_ne (not_lt.mp hle) fun he ↦ hn (attemptNo_eq_of_key he)

/-- The rows beyond the limit are the options beyond it. -/
theorem rowsBeyond_eq (maxCandidates : Nat) (options : List PublishedOption) :
    rowsBeyond maxCandidates (options.map (·.row)) =
      ((sorted options).drop maxCandidates).map (·.row) := by
  rw [rowsBeyond, List.map_drop, sorted]
  refine congrArg (List.drop maxCandidates) (Eq.symm ?_)
  exact List.map_insertionSort _ _ row options fun _ _ _ _ ↦ not_lt

/-- The ranked options are what is stored of the options in the order of their keys. -/
theorem forall₂_rank {options : List PublishedOption} {stored : List StoredRow}
    (h : (options.map (·.row)).mapM storeRow = .ok stored) :
    List.Forall₂ (fun row column ↦ storeRow row = .ok column.row) ((sorted options).map (·.row))
      (rank stored) := by
  have hrank := rank_forall₂ h
  have hmap : (options.map (·.row)).insertionSort (fun a b ↦
      ¬ priorityKey b.metrics b.attemptNo < priorityKey a.metrics a.attemptNo) =
      (sorted options).map (·.row) :=
    (List.map_insertionSort _ _ row options fun _ _ _ _ ↦ Iff.rfl).symm
  rw [hmap] at hrank
  exact hrank

end PublishedOption

/-! ### The limit -/

section

variable {batchId : UUID} {contexts : List RecoveryContext} {reserved : RecoveryPlan}
  {batch : Batch} {options : List PublishedOption}

/-- An option of a batch is known by the id of its attempt. -/
theorem BatchRows.option_eq (h : BatchRows db run batchId contexts reserved batch options)
    (hs : (ledgerOf batch.db).Sound) {a b : PublishedOption} (ha : a ∈ options) (hb : b ∈ options)
    (hid : a.attempt.id = b.attempt.id) : a = b := by
  have hnodup : (options.map (·.attempt.attemptNo)).Nodup := by
    rw [h.numbers]
    exact List.nodup_range'
  have hattempt := Ledger.attempt_eq hs.numbered (h.stored a ha).attempt (h.stored b hb).attempt hid
  exact eq_of_key_eq hnodup ha hb (congrArg RecoveryPlan.attemptNo hattempt)

/-- The options that are filtered are those beyond the limit. -/
theorem BatchRows.mem_drop_iff (h : BatchRows db run batchId contexts reserved batch options)
    (hs : (ledgerOf batch.db).Sound) {option : PublishedOption} (ho : option ∈ options)
    (maxCandidates : Nat) :
    (((sorted options).drop maxCandidates).map (·.attempt.id)).contains option.attempt.id = true ↔
      option ∈ (sorted options).drop maxCandidates := by
  rw [List.contains_iff_mem, List.mem_map]
  constructor
  · rintro ⟨other, hother, hid⟩
    have hmem : other ∈ options := (sorted_perm options).mem_iff.mp (List.mem_of_mem_drop hother)
    rw [← h.option_eq hs hmem ho hid]
    exact hother
  · exact fun hd ↦ ⟨option, hd, rfl⟩

/-- An option within the limit is not beyond it. -/
theorem BatchRows.not_mem_drop (h : BatchRows db run batchId contexts reserved batch options)
    {option : PublishedOption} {maxCandidates : Nat}
    (ht : option ∈ (sorted options).take maxCandidates) :
    option ∉ (sorted options).drop maxCandidates := by
  have hnodup : (sorted options).Nodup :=
    (sorted_perm options).nodup_iff.mpr (List.Nodup.of_map _ h.distinct)
  exact fun hd ↦ List.disjoint_take_drop hnodup (Nat.le_refl _) ht hd

/-- The rows of the options after those beyond the limit are filtered. -/
theorem BatchRows.published_rows (h : BatchRows db run batchId contexts reserved batch options)
    (hs : (ledgerOf batch.db).Sound) (maxCandidates : Nat) {option : PublishedOption}
    (ho : option ∈ published maxCandidates options) :
    option.attempt ∈ (filterRows batch.db
        (((sorted options).drop maxCandidates).map (·.attempt.id))).recoveryPlans ∧
      option.candidate ∈ (filterRows batch.db
        (((sorted options).drop maxCandidates).map (·.attempt.id))).plans := by
  have hcancelled : ∀ kept ∈ options, ((batch.db.recoveryPlans.filter fun attempt ↦
      (((sorted options).drop maxCandidates).map (·.attempt.id)).contains attempt.id).any
        (·.candidateDeliveryPlanId == some kept.candidate.id)) = true ↔
      kept ∈ (sorted options).drop maxCandidates := by
    intro kept hk
    rw [← h.mem_drop_iff hs hk, List.any_eq_true]
    constructor
    · rintro ⟨attempt, ha, hc⟩
      rw [List.mem_filter] at ha
      rw [hs.reviewed.ownCandidate _ (h.stored kept hk).attempt attempt ha.1 _
        (h.stored kept hk).candidateId (eq_of_beq hc)]
      exact ha.2
    · intro hc
      exact ⟨kept.attempt, List.mem_filter.mpr ⟨(h.stored kept hk).attempt, hc⟩,
        beq_iff_eq.mpr (h.stored kept hk).candidateId⟩
  rcases List.mem_append.mp ho with ht | hf
  · have hk : option ∈ options := (sorted_perm options).mem_iff.mp (List.mem_of_mem_take ht)
    refine ⟨mem_updateWhere_of_false (h.stored option hk).attempt ?_,
      mem_updateWhere_of_false (h.stored option hk).candidate ?_⟩
    · exact Bool.eq_false_iff.mpr fun hc ↦ h.not_mem_drop ht ((h.mem_drop_iff hs hk _).mp hc)
    · exact Bool.eq_false_iff.mpr fun hc ↦ h.not_mem_drop ht ((hcancelled option hk).mp hc)
  · obtain ⟨kept, hd, rfl⟩ := List.mem_map.mp hf
    have hk : kept ∈ options := (sorted_perm options).mem_iff.mp (List.mem_of_mem_drop hd)
    exact ⟨mem_updateWhere_of_true (h.stored kept hk).attempt ((h.mem_drop_iff hs hk _).mpr hd),
      mem_updateWhere_of_true (h.stored kept hk).candidate ((hcancelled kept hk).mpr hd)⟩

/-- Nothing else has the id of the batch after that. -/
theorem BatchRows.published_only (h : BatchRows db run batchId contexts reserved batch options)
    (hs : (ledgerOf batch.db).Sound) (maxCandidates : Nat) {attempt : RecoveryPlan}
    (ha : attempt ∈ (filterRows batch.db
      (((sorted options).drop maxCandidates).map (·.attempt.id))).recoveryPlans)
    (hb : attempt.options.map (·.batchId) = some batchId) :
    attempt ∈ (published maxCandidates options).map (·.attempt) := by
  obtain ⟨old, hold, hcase⟩ := mem_updateWhere.mp ha
  have hbatch : old.options.map (·.batchId) = some batchId := by
    rcases hcase with ⟨-, rfl⟩ | ⟨-, rfl⟩
    · rw [filterRow, Option.map_map] at hb
      exact hb
    · exact hb
  obtain ⟨option, ho, rfl⟩ := List.mem_map.mp (h.only old hold hbatch)
  rw [published, List.map_append, List.mem_append]
  rcases hcase with ⟨hc, rfl⟩ | ⟨hc, rfl⟩
  · refine .inr (List.mem_map.mpr ⟨option.filtered, List.mem_map_of_mem ?_, rfl⟩)
    exact (h.mem_drop_iff hs ho _).mp hc
  · refine .inl (List.mem_map_of_mem ?_)
    have hmem := (sorted_perm options).mem_iff.mpr ho
    rw [← List.take_append_drop maxCandidates (sorted options), List.mem_append] at hmem
    refine hmem.resolve_right fun hd ↦ ?_
    rw [(h.mem_drop_iff hs ho _).mpr hd] at hc
    cases hc

/-- The last attempt of the incident is the one of the last row. -/
theorem BatchRows.published_latest (h : BatchRows db run batchId contexts reserved batch options)
    {l : Ledger} (hl : l.Sound) (hok : BatchOk l run batchId reserved batch)
    (hrows : batch.rows ≠ []) {maxCandidates : Nat} {after : Database}
    (hafter : (ledgerOf after).Sound) (hattempts : after.recoveryPlans = (filterRows batch.db
      (((sorted options).drop maxCandidates).map (·.attempt.id))).recoveryPlans) :
    ∃ latest, (after.attempts run.incidentId).getLast? = some latest ∧
      latest ∈ (published maxCandidates options).map (·.attempt) := by
  have hs := hok.moves.sound hl
  have hlength : ((ledgerOf after).attemptsOf run.incidentId).length =
      ((ledgerOf batch.db).attemptsOf run.incidentId).length := by
    have hfiltered := length_attemptsOf_updateAttempts (ledgerOf batch.db) (fun attempt ↦
      (((sorted options).drop maxCandidates).map (·.attempt.id)).contains attempt.id) filterRow
        (fun _ ↦ rfl) run.incidentId
    rw [← hfiltered]
    exact congrArg (fun rows ↦ (rows.filter (·.incidentId == run.incidentId)).length) hattempts
  obtain ⟨previous, hprevious⟩ := Option.ne_none_iff_exists'.mp
    (mt List.getLast?_eq_none_iff.mp hrows)
  have hlast := hok.last previous hprevious
  rw [h.rows, List.getLast?_map] at hprevious
  obtain ⟨last, hmem, rfl⟩ := Option.map_eq_some_iff.mp hprevious
  have hno : last.attempt.attemptNo ∈
      (published maxCandidates options).map (·.attempt.attemptNo) := by
    rw [map_published (fun _ ↦ rfl)]
    exact List.mem_map_of_mem ((sorted_perm options).mem_iff.mpr (List.mem_of_getLast? hmem))
  obtain ⟨option, ho, hono⟩ := List.mem_map.mp hno
  have hrow := (h.published_rows hs maxCandidates ho).1
  rw [← hattempts] at hrow
  have hi : option.attempt.incidentId = run.incidentId := by
    have hall : ∀ kept ∈ options, kept.attempt.incidentId = run.incidentId :=
      fun kept hk ↦ (h.stored kept hk).incidentId
    rcases List.mem_append.mp ho with ht | hf
    · exact hall _ ((sorted_perm options).mem_iff.mp (List.mem_of_mem_take ht))
    · obtain ⟨kept, hd, rfl⟩ := List.mem_map.mp hf
      have hk := hall kept ((sorted_perm options).mem_iff.mp (List.mem_of_mem_drop hd))
      exact hk
  have hne : after.attempts run.incidentId ≠ [] := by
    rw [hafter.attempts_eq]
    exact List.ne_nil_of_mem (List.mem_filter.mpr ⟨hrow, beq_iff_eq.mpr hi⟩)
  obtain ⟨latest, hlatest⟩ := Option.ne_none_iff_exists'.mp
    (mt List.getLast?_eq_none_iff.mp hne)
  obtain ⟨hlmem, hli, hlno⟩ := hafter.getLast?_attempts hlatest
  refine ⟨latest, hlatest, List.mem_map.mpr ⟨option, ho, ?_⟩⟩
  refine Ledger.attempt_eq_of_no hafter.numbered hrow hlmem (hli.trans hi.symm) ?_
  rw [hono, hlno, hlength, ← hlast]
  rfl

end

/-! ### The batch -/

/-- A batch as the last transaction leaves it: the options in the order of their keys with what
is stored for the listing, those within the limit pending, and those beyond it filtered. -/
structure OptionBatch (before db : Database) (run : Run) (maxCandidates : Nat)
    (contexts : List RecoveryContext) (options : List PublishedOption)
    (columns : List RankedOption) : Prop where
  stored : ∀ option ∈ options, option.attempt ∈ db.recoveryPlans ∧ option.candidate ∈ db.plans ∧
    option.attempt.candidateDeliveryPlanId = some option.candidate.id ∧
    option.attempt.incidentId = run.incidentId
  measured : ∀ option ∈ options, ∃ context ∈ contexts, ∃ base ∈ before.plans,
    base.id = option.attempt.baseDeliveryPlanId ∧
      optionMetrics context base { option.candidate with status := .candidate } =
        .ok option.metrics
  distinct : (options.map (·.signature)).Nodup
  ranked : (options.map (·.key)).Pairwise (· < ·)
  shown : List.Forall₂ (fun option column ↦ storeRow option.row = .ok column.row) options columns
  priorities : columns.map (·.priority) = List.range' 1 columns.length
  offered : ∀ option ∈ options.take maxCandidates, option.attempt.status = .pendingReview ∧
    option.candidate.status = .candidate ∧ isListed before.nextId option.attempt = true
  withheld : ∀ option ∈ options.drop maxCandidates, option.attempt.status = .draft ∧
    option.candidate.status = .cancelled ∧ isListed before.nextId option.attempt = false
  only : ∀ attempt ∈ db.recoveryPlans, attempt.options.map (·.batchId) = some before.nextId →
    attempt ∈ options.map (·.attempt)
  latest : ∃ latest, (db.attempts run.incidentId).getLast? = some latest ∧
    ((options = [] ∧ latest.options = none) ∨
      latest.options.map (·.batchId) = some before.nextId)

/-- No attempt has an id of a batch that is still to come. -/
def Batched (db : Database) : Prop :=
  ∀ attempt ∈ db.recoveryPlans, ∀ batchId, attempt.options.map (·.batchId) = some batchId →
    batchId < db.nextId

section

variable {contexts : List RecoveryContext} {reserved : RecoveryPlan} {batch : Batch}
  {options : List PublishedOption}

/-- The metrics of an option are measured on the plan that its attempt is based on. -/
theorem BatchRows.measured (h : BatchRows db run db.nextId contexts reserved batch options)
    (hl : (ledgerOf db).Sound) (hok : BatchOk (ledgerOf db) run db.nextId reserved batch)
    (hcontexts : ∀ context ∈ contexts, ContextOf (ledgerOf db) run.incidentId context)
    {option : PublishedOption} (ho : option ∈ options) : ∃ context ∈ contexts,
      ∃ base ∈ db.plans, base.id = option.attempt.baseDeliveryPlanId ∧
        optionMetrics context base option.candidate = .ok option.metrics := by
  have hs := hok.moves.sound hl
  have hstored := h.stored option ho
  obtain ⟨context, hc, base, hb, hid, hm⟩ := hstored.measured
  obtain ⟨incident, hi, hiid, hplan⟩ := (hcontexts context hc).owner
  have hinforce : ∃ plan ∈ db.plans, plan.id = incident.deliveryPlanId := by
    rcases hl.reviewed.inForce incident hi with ⟨header, hh, hhid, -⟩ | ⟨⟨header, hh, hhid, -⟩, -⟩
    all_goals
      obtain ⟨plan, hp, rfl⟩ := List.mem_map.mp hh
      exact ⟨plan, hp, hhid⟩
  obtain ⟨plan, hp, hpid⟩ := hinforce
  obtain ⟨added, ha⟩ := h.plans
  have hpb : plan ∈ batch.db.plans := by
    rw [ha]
    exact List.mem_append_left _ hp
  have hsame : base = plan := eq_of_key_eq hs.planIds hb hpb (by rw [hid, hpid, hplan])
  have hbase : incident.deliveryPlanId = option.attempt.baseDeliveryPlanId := by
    rw [← hok.incidents] at hi
    exact hs.base_eq hstored.attempt hi (hiid.trans hstored.incidentId.symm)
  exact ⟨context, hc, base, by rw [hsame]; exact hp, by rw [hid, ← hplan, hbase], hm⟩

/-- The options of a loop that has found some, behind the limit. -/
theorem BatchRows.optionBatch (h : BatchRows db run db.nextId contexts reserved batch options)
    (hl : (ledgerOf db).Sound) (hok : BatchOk (ledgerOf db) run db.nextId reserved batch)
    (hcontexts : ∀ context ∈ contexts, ContextOf (ledgerOf db) run.incidentId context)
    (hrows : batch.rows ≠ []) {maxCandidates : Nat} {stored : List StoredRow}
    (hstored : batch.rows.mapM storeRow = .ok stored)
    (hafter : (ledgerOf (closeBatch run maxCandidates batch)).Sound) :
    OptionBatch db (closeBatch run maxCandidates batch) run maxCandidates contexts
      (published maxCandidates options) (rank stored) := by
  have hs := hok.moves.sound hl
  have hmem : ∀ option ∈ sorted options, option ∈ options :=
    fun option ho ↦ (sorted_perm options).mem_iff.mp ho
  have hids : (rowsBeyond maxCandidates batch.rows).map (·.attemptId) =
      ((sorted options).drop maxCandidates).map (·.attempt.id) := by
    rw [h.rows, rowsBeyond_eq, List.map_map]
    rfl
  have hclose := @closeBatch_cons run _ hrows maxCandidates
  rw [hids] at hclose
  have hfiltered : (closeBatch run maxCandidates batch).recoveryPlans = (filterRows batch.db
      (((sorted options).drop maxCandidates).map (·.attempt.id))).recoveryPlans := by
    rw [hclose]
    rfl
  have hplans : (closeBatch run maxCandidates batch).plans = (filterRows batch.db
      (((sorted options).drop maxCandidates).map (·.attempt.id))).plans := by
    rw [hclose]
    rfl
  have hcases : ∀ {P : PublishedOption → Prop}, (∀ option ∈ options, P option) →
      (∀ option ∈ options, P option.filtered) →
      ∀ option ∈ published maxCandidates options, P option := by
    intro P hkept hfiltered option ho
    rcases List.mem_append.mp ho with ht | hf
    · exact hkept option (hmem option (List.mem_of_mem_take ht))
    · obtain ⟨kept, hd, rfl⟩ := List.mem_map.mp hf
      exact hfiltered kept (hmem kept (List.mem_of_mem_drop hd))
  refine ⟨?_, ?_, ?_, ?_, ?_, map_priority_rank stored, ?_, ?_, ?_, ?_⟩
  · intro option ho
    obtain ⟨hrow, hplan⟩ := h.published_rows hs maxCandidates ho
    rw [hfiltered, hplans]
    refine ⟨hrow, hplan, ?_⟩
    exact hcases (P := fun option ↦
      option.attempt.candidateDeliveryPlanId = some option.candidate.id ∧
        option.attempt.incidentId = run.incidentId)
      (fun kept hk ↦ ⟨(h.stored kept hk).candidateId, (h.stored kept hk).incidentId⟩)
      (fun kept hk ↦ ⟨(h.stored kept hk).candidateId, (h.stored kept hk).incidentId⟩) option ho
  · have hmeasured : ∀ option ∈ options, ∃ context ∈ contexts, ∃ base ∈ db.plans,
        base.id = option.attempt.baseDeliveryPlanId ∧ optionMetrics context base
          { option.candidate with status := .candidate } = .ok option.metrics := by
      intro option ho
      have hm := h.measured hl hok hcontexts ho
      have hst := (h.stored option ho).status
      have heta : { option.candidate with status := .candidate } = option.candidate := by
        rw [← hst]
      rw [heta]
      exact hm
    exact hcases hmeasured hmeasured
  · rw [map_published (fun _ ↦ rfl)]
    exact ((sorted_perm options).map _).nodup_iff.mpr h.distinct
  · rw [map_published (fun _ ↦ rfl)]
    refine pairwise_key_sorted ?_
    rw [h.numbers]
    exact List.nodup_range'
  · rw [h.rows] at hstored
    have hrank := forall₂_rank hstored
    rw [← map_published (f := PublishedOption.row) (fun _ ↦ rfl) maxCandidates,
      List.forall₂_map_left_iff] at hrank
    exact hrank
  · intro option ho
    rw [take_published] at ho
    have hst := h.stored option (hmem option (List.mem_of_mem_take ho))
    obtain ⟨summary, he, hpair⟩ := Option.map_eq_some_iff.mp hst.summary
    rw [Prod.mk.injEq] at hpair
    refine ⟨hst.pending, hst.status, ?_⟩
    rw [isListed, he, Option.any_some, hpair.1, hpair.2, beq_self_eq_true]
    rfl
  · intro option ho
    rw [drop_published] at ho
    obtain ⟨kept, hd, rfl⟩ := List.mem_map.mp ho
    refine ⟨rfl, rfl, ?_⟩
    change ((kept.attempt.options.map fun summary ↦
      { summary with filteredByLimit := true }).any fun option ↦
        option.batchId == db.nextId && !option.filteredByLimit) = false
    cases kept.attempt.options with
    | none => rfl
    | some summary => exact Bool.and_false _
  · intro attempt ha hb
    rw [hfiltered] at ha
    exact h.published_only hs maxCandidates ha hb
  · obtain ⟨latest, hlatest, hoption⟩ := h.published_latest hl hok hrows hafter hfiltered
    obtain ⟨option, ho, rfl⟩ := List.mem_map.mp hoption
    refine ⟨option.attempt, hlatest, .inr ?_⟩
    refine hcases (P := fun option ↦ option.attempt.options.map (·.batchId) = some db.nextId)
      ?_ ?_ option ho
    · intro kept hk
      obtain ⟨summary, he, hpair⟩ := Option.map_eq_some_iff.mp (h.stored kept hk).summary
      rw [he]
      exact congrArg some (congrArg Prod.fst hpair)
    · intro kept hk
      obtain ⟨summary, he, hpair⟩ := Option.map_eq_some_iff.mp (h.stored kept hk).summary
      change (kept.attempt.options.map fun summary ↦
        { summary with filteredByLimit := true }).map (·.batchId) = some db.nextId
      rw [he]
      exact congrArg some (congrArg Prod.fst hpair)

/-- A loop that has found nothing leaves an empty batch. -/
theorem BatchRows.emptyBatch (h : BatchRows db run db.nextId contexts reserved batch options)
    (hl : (ledgerOf db).Sound) (hok : BatchOk (ledgerOf db) run db.nextId reserved batch)
    (hof : AttemptOf run reserved) (hf : reserved.inFlight = true) (hrows : batch.rows = [])
    {maxCandidates : Nat} (hafter : (ledgerOf (closeBatch run maxCandidates batch)).Sound) :
    OptionBatch db (closeBatch run maxCandidates batch) run maxCandidates contexts [] [] := by
  have hs := hok.moves.sound hl
  have hnil : options = [] := List.map_eq_nil_iff.mp (h.rows.symm.trans hrows)
  have hmem : reserved ∈ batch.db.recoveryPlans := hok.reserved hrows
  have hattempts : (closeBatch run maxCandidates batch).recoveryPlans =
      updateWhere batch.db.recoveryPlans (·.id == run.attemptId)
        (RecoveryWorkflow.recorded .infeasible none) := by
    rw [closeBatch_nil hrows]
    rfl
  have hrecorded : RecoveryWorkflow.recorded .infeasible none reserved ∈
      (closeBatch run maxCandidates batch).recoveryPlans := by
    rw [hattempts]
    exact mem_updateWhere_of_true hmem (beq_iff_eq.mpr hof.id)
  have hlength : ((ledgerOf (closeBatch run maxCandidates batch)).attemptsOf
      run.incidentId).length = ((ledgerOf batch.db).attemptsOf run.incidentId).length := by
    rw [← length_attemptsOf_updateAttempts (ledgerOf batch.db) (·.id == run.attemptId)
      (RecoveryWorkflow.recorded .infeasible none) (fun _ ↦ rfl) run.incidentId]
    exact congrArg (fun rows ↦ (rows.filter (·.incidentId == run.incidentId)).length) hattempts
  refine ⟨fun _ ho ↦ (by cases ho), fun _ ho ↦ (by cases ho), List.nodup_nil, List.Pairwise.nil,
    .nil, rfl, fun _ ho ↦ (by cases List.mem_of_mem_take ho),
    fun _ ho ↦ (by cases List.mem_of_mem_drop ho), ?_, ?_⟩
  · intro attempt ha hb
    rw [hattempts] at ha
    obtain ⟨old, hold, ⟨-, rfl⟩ | ⟨-, rfl⟩⟩ := mem_updateWhere.mp ha
    · cases hb
    · have hoption := h.only attempt hold hb
      rwa [hnil] at hoption
  · have hne : (closeBatch run maxCandidates batch).attempts run.incidentId ≠ [] := by
      rw [hafter.attempts_eq]
      exact List.ne_nil_of_mem (List.mem_filter.mpr ⟨hrecorded, beq_iff_eq.mpr hof.incidentId⟩)
    obtain ⟨latest, hlatest⟩ := Option.ne_none_iff_exists'.mp
      (mt List.getLast?_eq_none_iff.mp hne)
    obtain ⟨hlmem, hli, hlno⟩ := hafter.getLast?_attempts hlatest
    have hno := attemptNo_eq_of_inFlight hs hmem hf
    rw [hof.incidentId, ← hlength, ← hlno] at hno
    have hsame := Ledger.attempt_eq_of_no hafter.numbered hrecorded hlmem
      (hli.trans hof.incidentId.symm) hno
    exact ⟨latest, hlatest, .inl ⟨rfl, by rw [← hsame]; rfl⟩⟩

end

/-- Closing a batch changes the status of an incident. -/
theorem closeBatch_incident {batch : Batch} (maxCandidates : Nat) {incident : IncidentHeader}
    (hi : incident ∈ (ledgerOf batch.db).incidents) :
    ∃ closed ∈ (ledgerOf (closeBatch run maxCandidates batch)).incidents,
      closed.id = incident.id ∧ closed.deliveryPlanId = incident.deliveryPlanId := by
  have hset : ∀ status, ∃ closed ∈ ((ledgerOf batch.db).setIncident run.incidentId
      status).incidents, closed.id = incident.id ∧
        closed.deliveryPlanId = incident.deliveryPlanId := by
    intro status
    by_cases hid : incident.id = run.incidentId
    · exact ⟨_, mem_updateWhere_of_true hi (beq_iff_eq.mpr hid), rfl, rfl⟩
    · exact ⟨incident, mem_updateWhere_of_false hi (beq_false_of_ne hid), rfl, rfl⟩
  by_cases hrows : batch.rows = []
  · rw [closeBatch_nil hrows, RecoveryWorkflow.record, ledgerOf_updateRecoveryPlan,
      ledgerOf_updateIncident_status]
    exact hset _
  · rw [closeBatch_cons hrows, ledgerOf_updateIncident_status, ledgerOf_filterRows]
    exact hset _

/-- A base plan that is still current. -/
theorem assertBaseStillCurrent_current {incidentId basePlanId : UUID}
    (h : RecoveryWorkflow.assertBaseStillCurrent db incidentId basePlanId = .ok ()) :
    ∃ base ∈ db.plans, base.status = .current ∧ ∃ incident ∈ (ledgerOf db).incidents,
      incident.id = incidentId ∧ incident.deliveryPlanId = base.id := by
  obtain ⟨incident, hi, hid, hplan⟩ := assertBaseStillCurrent_ok h
  obtain ⟨row, -, h⟩ := bind_eq_ok.mp h
  rw [raiseFirst_cons_eq_ok, Bool.or_eq_false_iff, Bool.not_eq_false', Option.any_eq_true] at h
  obtain ⟨base, hb, hs⟩ := h.1.2
  obtain ⟨hmem, hbid⟩ := plan?_mem hb
  exact ⟨base, hmem, eq_of_beq hs, incident, hi, hid, hplan.trans hbid.symm⟩

/-- The last transaction of the options workflow leaves a batch of options, based on a CURRENT
plan. -/
theorem publishBatch_batch (hl : (ledgerOf db).Sound) (h : Held (ledgerOf db) run)
    (hw : working run.point = true) (hbatched : Batched db) {services : Services}
    {fingerprint : RecoveryContext → Nat} {maxCandidates : Nat} {contexts : List RecoveryContext}
    {solved : List (RecoveryContext × SolverResult)}
    (hsolved : ∀ option ∈ solved, option.1 ∈ contexts) {columns : List RankedOption}
    (hp : publishBatch services fingerprint db run maxCandidates contexts solved =
      .ok (db', columns)) :
    (ledgerOf db').Sound ∧
      (∃ base ∈ db'.plans, base.status = .current ∧ ∀ attempt ∈ db'.recoveryPlans,
        attempt.incidentId = run.incidentId → attempt.baseDeliveryPlanId = base.id) ∧
      ∃ options, OptionBatch db db' run maxCandidates contexts options columns := by
  obtain ⟨hfinish, reserved, batch, stored, hr, hfold, hstored, rfl, rfl⟩ := publishBatch_ok hp
  obtain ⟨⟨initial, hinitial, hassert⟩, hfresh, -⟩ := finish_ok hfinish
  obtain ⟨hmem, hid⟩ := recoveryPlan?_mem hr
  obtain ⟨hof, hf⟩ := h.row hl hw hmem hid
  have hcontexts : ∀ context ∈ contexts, ContextOf (ledgerOf db) run.incidentId context :=
    fun context hc ↦ contextOf_materialize hl (hfresh context hc)
  have hok := batchOk_start hl hmem hof hf
  have hrows : BatchRows db run db.nextId contexts reserved
      { db := { db with nextId := db.nextId + 1 }, rows := [], signatures := [] } [] := by
    refine ⟨rfl, rfl, List.nodup_nil, fun _ ho ↦ (by cases ho), rfl, ?_, [],
      (List.append_nil _).symm⟩
    exact fun attempt ha hb ↦ absurd (hbatched attempt ha _ hb) (Nat.lt_irrefl _)
  have hloop : BatchOk (ledgerOf db) run db.nextId reserved batch ∧
      ∃ options, BatchRows db run db.nextId contexts reserved batch options := by
    refine foldlM_invariant (I := fun batch ↦ BatchOk (ledgerOf db) run db.nextId reserved batch ∧
      ∃ options, BatchRows db run db.nextId contexts reserved batch options)
      (fun batch option ho batch' hb hstep ↦ ?_) ⟨hok, [], hrows⟩ hfold
    have hcontext := hcontexts option.1 (hsolved option ho)
    obtain ⟨hbok, options, hoptions⟩ := hb
    exact ⟨hbok.step hl hof.id hof.incidentId hf hcontext hstep,
      hoptions.step hbok hl hof.incidentId (hsolved option ho) hcontext.incidentId hstep⟩
  obtain ⟨hbok, options, hoptions⟩ := hloop
  have hafter := (hbok.closed hl hof.id hof.incidentId hf
    (hcontexts initial hinitial).incidentOpen maxCandidates).moves.sound hl
  refine ⟨hafter, ?_, ?_⟩
  · obtain ⟨base, hb, hs, incident, hi, hiid, hplan⟩ := assertBaseStillCurrent_current hassert
    refine ⟨base, (closeBatch_sameCurrent hl hbok hfold base hs).mpr hb, hs,
      fun attempt ha hai ↦ ?_⟩
    rw [← hbok.incidents] at hi
    obtain ⟨closed, hc, hcid, hcplan⟩ := @closeBatch_incident run _ maxCandidates _ hi
    rw [← hplan, ← hcplan]
    exact (hafter.base_eq ha hc (hcid.trans (hiid.trans hai.symm))).symm
  by_cases hnone : batch.rows = []
  · rw [hnone] at hstored
    cases hstored
    exact ⟨[], hoptions.emptyBatch hl hbok hof hf hnone hafter⟩
  · exact ⟨_, hoptions.optionBatch hl hbok hcontexts hnone hstored hafter⟩

end PenroseRoute.Lifecycle
