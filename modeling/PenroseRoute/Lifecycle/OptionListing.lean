import Mathlib.Data.List.Perm.Basic
import PenroseRoute.Lifecycle.OptionBatch

/-!
# Listing options

What `list_options` answers for a batch while decisions are taken: the options within the limit
in the order of their priorities, and the first one that can still be reviewed.
-/

namespace PenroseRoute.Lifecycle

open PenroseRoute.Db PenroseRoute.Lib PenroseRoute.Recovery
open RecoveryOptionsWorkflow

variable {db db' : Database}

/-! ### The answer -/

/-- The entry of a ranked option. -/
def entry (db : Database) (column : RankedOption) : ListedOption where
  recoveryPlanId := column.attemptId
  priority := column.priority
  metrics := column.metrics
  reviewable := (db.recoveryPlan? column.attemptId).any (isReviewable db)

/-- The last attempt of an incident belongs to a batch, and these of its options are within its
limit. -/
structure Shown (db : Database) (incidentId batchId : UUID) (shown : List RankedOption) :
    Prop where
  latest : ∃ latest, (db.attempts incidentId).getLast? = some latest ∧
    ((shown = [] ∧ latest.options = none) ∨ latest.options.map (·.batchId) = some batchId)
  listed : (((db.attempts incidentId).filter (isListed batchId)).map (·.id)).Perm
    (shown.map (·.attemptId))

private theorem listOption_entries (hl : (ledgerOf db).Sound)
    {column : UUID → Option RankedOption} {attempts : List RecoveryPlan}
    (hmem : ∀ attempt ∈ attempts, attempt ∈ db.recoveryPlans) {shown : List RankedOption}
    (hperm : (attempts.map (·.id)).Perm (shown.map (·.attemptId)))
    (hcolumn : ∀ c ∈ shown, column c.attemptId = some c) :
    ∃ entries, attempts.mapM (listOption db column) = .ok entries ∧
      entries.Perm (shown.map (entry db)) := by
  have hself : List.Forall₂ (fun id c ↦ id = c.attemptId) (shown.map (·.attemptId)) shown := by
    rw [List.forall₂_map_left_iff]
    exact List.forall₂_same.mpr fun _ _ ↦ rfl
  obtain ⟨columns, hcolumns, hshown⟩ := List.perm_comp_forall₂ hperm hself
  rw [List.forall₂_map_left_iff] at hcolumns
  refine ⟨columns.map (entry db), mapM_eq_ok_iff.mpr ?_, hshown.map _⟩
  rw [List.forall₂_map_right_iff]
  refine (forall₂_and_mem hcolumns).imp fun attempt c ⟨ha, hc, hid⟩ ↦ ?_
  have hrow := hl.recoveryPlan? (hmem attempt ha)
  have hfound := hcolumn c (hshown.mem_iff.mp hc)
  rw [← hid] at hfound
  rw [listOption, hfound, entry, ← hid, hrow]
  rfl

private theorem insertionSort_entries {shown : List RankedOption}
    (hsorted : (shown.map (·.priority)).Pairwise (· < ·)) {entries : List ListedOption}
    (hperm : entries.Perm (shown.map (entry db))) :
    entries.insertionSort (fun a b ↦ a.priority ≤ b.priority) = shown.map (entry db) := by
  have htotal : Std.Total fun a b : ListedOption ↦ a.priority ≤ b.priority :=
    ⟨fun a b ↦ Nat.le_total a.priority b.priority⟩
  have htrans : IsTrans ListedOption fun a b ↦ a.priority ≤ b.priority :=
    ⟨fun _ _ _ h h' ↦ Nat.le_trans h h'⟩
  have hpriorities : (shown.map (entry db)).map (·.priority) = shown.map (·.priority) :=
    List.map_map
  have hnodup : ((shown.map (entry db)).map (·.priority)).Nodup := by
    rw [hpriorities]
    exact hsorted.imp Nat.ne_of_lt
  have hlt : (shown.map (entry db)).Pairwise fun a b ↦ a.priority < b.priority := by
    rw [List.pairwise_map] at hsorted ⊢
    exact hsorted
  refine List.Perm.eq_of_pairwise ?_ (List.pairwise_insertionSort _ entries)
    (hlt.imp Nat.le_of_lt) ((List.perm_insertionSort _ entries).trans hperm)
  intro a b ha hb hab hba
  have ha' := hperm.mem_iff.mp ((List.mem_insertionSort _).mp ha)
  exact eq_of_key_eq hnodup ha' hb (Nat.le_antisymm hab hba)

private theorem listOptions_some {incidentId : UUID} {incident : Incident}
    (hincident : db.incident? incidentId = some incident) {latest : RecoveryPlan}
    (hlatest : (db.attempts incidentId).getLast? = some latest) {newest : OptionSummary}
    (hnewest : latest.options = some newest) {column : UUID → Option RankedOption}
    {entries : List ListedOption}
    (hentries : ((db.attempts incidentId).filter (isListed newest.batchId)).mapM
      (listOption db column) = .ok entries) :
    listOptions db column incidentId = .ok (answer incident entries) := by
  rw [listOptions, hincident]
  refine bind_eq_ok.mpr ⟨incident, rfl, ?_⟩
  rw [hlatest]
  dsimp only
  rw [hnewest]
  exact bind_eq_ok.mpr ⟨entries, hentries, rfl⟩

private theorem listOptions_none {incidentId : UUID} {incident : Incident}
    (hincident : db.incident? incidentId = some incident) {latest : RecoveryPlan}
    (hlatest : (db.attempts incidentId).getLast? = some latest) (hnone : latest.options = none)
    (column : UUID → Option RankedOption) : listOptions db column incidentId =
      .ok (noOptions (outcomeWithoutOptions latest.solverStatus)) := by
  rw [listOptions, hincident]
  refine bind_eq_ok.mpr ⟨incident, rfl, ?_⟩
  rw [hlatest]
  dsimp only
  rw [hnone]
  rfl

/-- The listing shows the options in the order of their priorities, and recommends the first one
that is reviewable. -/
theorem listOptions_shown (hl : (ledgerOf db).Sound) {incidentId batchId : UUID}
    {shown : List RankedOption} (h : Shown db incidentId batchId shown)
    {column : UUID → Option RankedOption} (hcolumn : ∀ c ∈ shown, column c.attemptId = some c)
    (hsorted : (shown.map (·.priority)).Pairwise (· < ·)) :
    ∃ list, listOptions db column incidentId = .ok list ∧
      list.candidates = shown.map (entry db) ∧
      list.recommendedRecoveryPlanId =
        (list.candidates.find? (·.reviewable)).map (·.recoveryPlanId) := by
  obtain ⟨latest, hlatest, hcase⟩ := h.latest
  obtain ⟨hmem, hli, -⟩ := hl.getLast?_attempts hlatest
  obtain ⟨incident, hincident⟩ : ∃ incident, db.incident? incidentId = some incident := by
    have howner := hl.numbered.owner (keyOf latest) (List.mem_map.mpr ⟨latest, hmem, rfl⟩)
    obtain ⟨header, hheader, he⟩ := List.mem_map.mp howner
    obtain ⟨row, hrow, rfl⟩ := List.mem_map.mp hheader
    have hid : row.id = incidentId := (congrArg Prod.fst he).trans hli
    exact ⟨row, hid ▸ hl.incident? hrow⟩
  rcases hcase with ⟨rfl, hnone⟩ | hbatch
  · exact ⟨_, listOptions_none hincident hlatest hnone column, rfl, rfl⟩
  obtain ⟨newest, hnewest, rfl⟩ := Option.map_eq_some_iff.mp hbatch
  have hattempts : ∀ attempt ∈ (db.attempts incidentId).filter (isListed newest.batchId),
      attempt ∈ db.recoveryPlans := by
    intro attempt ha
    rw [hl.attempts_eq] at ha
    exact List.mem_of_mem_filter (List.mem_of_mem_filter ha)
  obtain ⟨entries, hentries, hperm⟩ := listOption_entries hl hattempts h.listed hcolumn
  have hordered := @insertionSort_entries db shown hsorted entries hperm
  refine ⟨_, listOptions_some hincident hlatest hnewest hentries, hordered, ?_⟩
  rw [answer, hordered]
  exact congrArg (Option.map _) List.head?_filter

/-! ### Frames -/

/-- What the listing reads of an attempt and no decision changes. -/
def stamp (attempt : RecoveryPlan) : AttemptKey × Option OptionSummary :=
  (keyOf attempt, attempt.options)

private theorem map_stamp_attempts (hl : (ledgerOf db).Sound) (incidentId : UUID) :
    (db.attempts incidentId).map stamp =
      (db.recoveryPlans.map stamp).filter fun s ↦ s.1.incidentId == incidentId := by
  rw [hl.attempts_eq, List.filter_map]
  rfl

private theorem map_id_listed (batchId : UUID) (attempts : List RecoveryPlan) :
    (attempts.filter (isListed batchId)).map (·.id) =
      ((attempts.map stamp).filter fun s ↦ s.2.any fun option ↦
        option.batchId == batchId && !option.filteredByLimit).map (·.1.id) := by
  rw [List.filter_map, List.map_map]
  rfl

/-- Attempts with the same stamps show the same options. -/
theorem Shown.of_stamps (hl : (ledgerOf db).Sound) (hl' : (ledgerOf db').Sound)
    {incidentId batchId : UUID} {shown : List RankedOption} (h : Shown db incidentId batchId shown)
    (hs : db'.recoveryPlans.map stamp = db.recoveryPlans.map stamp) :
    Shown db' incidentId batchId shown := by
  have hattempts : (db'.attempts incidentId).map stamp = (db.attempts incidentId).map stamp := by
    rw [map_stamp_attempts hl, map_stamp_attempts hl', hs]
  constructor
  · obtain ⟨latest, hlatest, hcase⟩ := h.latest
    have hlast := congrArg List.getLast? hattempts
    rw [List.getLast?_map, List.getLast?_map, hlatest] at hlast
    obtain ⟨latest', hlatest', he⟩ := Option.map_eq_some_iff.mp hlast
    have hoptions : latest'.options = latest.options := congrArg Prod.snd he
    exact ⟨latest', hlatest', by rw [hoptions]; exact hcase⟩
  · rw [map_id_listed, hattempts, ← map_id_listed]
    exact h.listed

section

variable {before : Database} {run : Run} {maxCandidates : Nat} {contexts : List RecoveryContext}
  {options : List PublishedOption} {columns : List RankedOption}

/-- The columns of a batch are those of its attempts. -/
theorem OptionBatch.map_attemptId
    (h : OptionBatch before db run maxCandidates contexts options columns) :
    columns.map (·.attemptId) = options.map (·.attempt.id) := by
  have hrow : ∀ (option : PublishedOption) (column : RankedOption),
      storeRow option.row = .ok column.row → option.attempt.id = column.attemptId :=
    fun option column hs ↦ (storeRow_ok hs).1.symm
  exact (map_eq_map_of_forall₂ hrow h.shown).symm

/-- The options of a batch have attempts of their own. -/
theorem OptionBatch.attemptIds
    (h : OptionBatch before db run maxCandidates contexts options columns)
    (hl : (ledgerOf db).Sound) : (options.map (·.attempt.id)).Nodup := by
  have hnodup := List.Nodup.of_map _ h.distinct
  refine (List.nodup_map_iff_inj_on hnodup).mpr fun a ha b hb hid ↦ ?_
  obtain ⟨hrow, hplan, hcandidate, -⟩ := h.stored a ha
  obtain ⟨hrow', hplan', hcandidate', -⟩ := h.stored b hb
  have hattempt := eq_of_key_eq hl.attemptIds hrow hrow' hid
  rw [hattempt, hcandidate', Option.some.injEq] at hcandidate
  have hsame := eq_of_key_eq hl.planIds hplan' hplan hcandidate
  refine (List.nodup_map_iff_inj_on hnodup).mp h.distinct a ha b hb ?_
  exact congrArg planSignature hsame.symm

/-- The attempts of a batch that are listed are those of the options within its limit. -/
theorem OptionBatch.mem_listed
    (h : OptionBatch before db run maxCandidates contexts options columns) {id : UUID} :
    id ∈ (((ledgerOf db).attemptsOf run.incidentId).filter (isListed before.nextId)).map (·.id) ↔
      id ∈ (options.take maxCandidates).map (·.attempt.id) := by
  constructor
  · intro hid
    obtain ⟨attempt, ha, rfl⟩ := List.mem_map.mp hid
    obtain ⟨ha, hlisted⟩ := List.mem_filter.mp ha
    have hbatch : attempt.options.map (·.batchId) = some before.nextId := by
      obtain ⟨summary, hs, hb⟩ := (Option.any_eq_true _ _).mp hlisted
      rw [Bool.and_eq_true_iff] at hb
      rw [hs, Option.map_some, eq_of_beq hb.1]
    obtain ⟨option, ho, rfl⟩ := List.mem_map.mp (h.only attempt (List.mem_of_mem_filter ha) hbatch)
    rw [← List.take_append_drop maxCandidates options, List.mem_append] at ho
    rcases ho with ho | ho
    · exact List.mem_map_of_mem ho
    · rw [(h.withheld option ho).2.2] at hlisted
      cases hlisted
  · intro hid
    obtain ⟨option, ho, rfl⟩ := List.mem_map.mp hid
    obtain ⟨hrow, -, -, hi⟩ := h.stored option (List.mem_of_mem_take ho)
    refine List.mem_map_of_mem (List.mem_filter.mpr ⟨?_, (h.offered option ho).2.2⟩)
    exact List.mem_filter.mpr ⟨hrow, beq_iff_eq.mpr hi⟩

/-- The options of a batch within its limit are shown. -/
theorem OptionBatch.shown_take
    (h : OptionBatch before db run maxCandidates contexts options columns)
    (hl : (ledgerOf db).Sound) :
    Shown db run.incidentId before.nextId (columns.take maxCandidates) := by
  constructor
  · obtain ⟨latest, hlatest, ⟨rfl, hnone⟩ | hbatch⟩ := h.latest
    · have hnil := List.forall₂_nil_left_iff.mp h.shown
      rw [hnil, List.take_nil]
      exact ⟨latest, hlatest, .inl ⟨rfl, hnone⟩⟩
    · exact ⟨latest, hlatest, .inr hbatch⟩
  · rw [hl.attempts_eq, List.map_take, h.map_attemptId, ← List.map_take]
    refine (List.perm_ext_iff_of_nodup ?_ ?_).mpr fun id ↦ h.mem_listed
    · exact (((List.filter_sublist.trans List.filter_sublist).map _).nodup hl.attemptIds)
    · exact ((List.take_sublist _ _).map _).nodup (h.attemptIds hl)

end

/-! ### Decisions -/

/-- Committed decisions, one after the other. -/
inductive DecisionRun (fingerprint : RecoveryContext → Nat) (db : Database) :
    List (UUID × DispatcherDecision) → Database → Prop where
  | nil : DecisionRun fingerprint db [] db
  | snoc {log : List (UUID × DispatcherDecision)} {db' db'' : Database}
      (h : DecisionRun fingerprint db log db') {services : Services} {recoveryId : UUID}
      {decision : DispatcherDecision} {reason : String} {now : Instant}
      (hd : Decisions.decide services fingerprint db' recoveryId decision reason now = .ok db'') :
      DecisionRun fingerprint db (log ++ [(recoveryId, decision)]) db''

variable {fingerprint : RecoveryContext → Nat}

/-- A decision keeps the stamps. -/
theorem decide_stamps {services : Services} {recoveryId : UUID} {decision : DispatcherDecision}
    {reason : String} {now : Instant}
    (hd : Decisions.decide services fingerprint db recoveryId decision reason now = .ok db') :
    db'.recoveryPlans.map stamp = db.recoveryPlans.map stamp := by
  have hset : ∀ decision (id : UUID) (rows : List RecoveryPlan),
      (updateWhere rows (·.id == id) (Decisions.setDecision decision)).map stamp =
        rows.map stamp := fun _ _ _ ↦ map_updateWhere fun _ ↦ rfl
  have hclose : ∀ (closing : RecoveryPlan → Bool) (rows : List RecoveryPlan),
      (updateWhere rows closing close).map stamp = rows.map stamp :=
    fun _ _ ↦ map_updateWhere fun _ ↦ rfl
  obtain ⟨reviewable, -, ⟨-, -, -, -, rfl⟩ | ⟨-, rfl⟩⟩ := Decisions.decide_ok hd
  · rw [Decisions.applyApproval]
    split
    · exact (hclose _ _).trans (hset _ _ _)
    · exact hset _ _ _
  · exact hset _ _ _

/-- So do decisions, and the ledger stays sound. -/
theorem DecisionRun.sound {log : List (UUID × DispatcherDecision)}
    (h : DecisionRun fingerprint db log db') (hl : (ledgerOf db).Sound) :
    (ledgerOf db').Sound ∧ db'.recoveryPlans.map stamp = db.recoveryPlans.map stamp := by
  induction h with
  | nil => exact ⟨hl, rfl⟩
  | @snoc log db' db'' _ _ _ _ _ _ hd ih =>
    have hmoves : Moves none (ledgerOf db') (ledgerOf db'') := decide_moves ih.1 hd
    exact ⟨hmoves.sound ih.1, (decide_stamps hd).trans ih.2⟩

/-- A pending attempt is reviewable while its base plan is CURRENT. -/
theorem isReviewable_iff (hl : (ledgerOf db).Sound) {attempt : RecoveryPlan}
    (ha : attempt ∈ db.recoveryPlans) : isReviewable db attempt = true ↔
      attempt.isPending = true ∧
        ∃ base ∈ db.plans, base.id = attempt.baseDeliveryPlanId ∧ base.status = .current := by
  rw [isReviewable, Bool.and_eq_true_iff, Bool.and_eq_true_iff]
  constructor
  · rintro ⟨⟨hp, hbase⟩, -⟩
    obtain ⟨base, hb, hs⟩ := (Option.any_eq_true _ _).mp hbase
    obtain ⟨hmem, hid⟩ := plan?_mem hb
    exact ⟨hp, base, hmem, hid, eq_of_beq hs⟩
  · rintro ⟨hp, base, hb, hid, hs⟩
    obtain ⟨-, -, -, header, hheader, hc, hcs, -⟩ := (hl.reviewed.shaped attempt ha).pending hp
    obtain ⟨candidate, hcandidate, rfl⟩ := List.mem_map.mp hheader
    have hcandidateStatus : candidate.status = .candidate := hcs
    have hfound : attempt.candidateDeliveryPlanId.bind db.plan? = some candidate := by
      rw [hc]
      exact hl.plan? hcandidate
    rw [← hid, hl.plan? hb, Option.any_some, hs, hfound, Option.any_some, hcandidateStatus]
    exact ⟨⟨hp, rfl⟩, rfl⟩

/-- Rejections leave the CURRENT plans, and decide their own attempts only. -/
theorem DecisionRun.rejected {log : List (UUID × DispatcherDecision)}
    (h : DecisionRun fingerprint db log db') (hl : (ledgerOf db).Sound)
    (hlog : ∀ entry ∈ log, entry.2 = .reject) : SameCurrent db db' ∧
      ∀ attempt ∈ db'.recoveryPlans, ∃ old ∈ db.recoveryPlans, old.id = attempt.id ∧
        (attempt.isPending = true ↔ old.isPending = true ∧ attempt.id ∉ log.map (·.1)) := by
  induction h with
  | nil => exact ⟨.of_plans rfl, fun attempt ha ↦ ⟨attempt, ha, rfl, by simp⟩⟩
  | @snoc log db' db'' h services recoveryId decision reason now hd ih =>
    obtain ⟨hcurrent, hpending⟩ := ih fun entry he ↦ hlog entry (List.mem_append_left _ he)
    have hreject : decision = .reject :=
      hlog (recoveryId, decision) (List.mem_append_right _ (List.mem_singleton.mpr rfl))
    obtain ⟨reviewable, hlocked, ⟨happrove, -⟩ | ⟨-, rfl⟩⟩ := Decisions.decide_ok hd
    · rw [hreject] at happrove
      cases happrove
    refine ⟨hcurrent.trans (applyRejection_sameCurrent (h.sound hl).1 hlocked), ?_⟩
    intro attempt ha
    have hid := (recoveryPlan?_mem hlocked.recovery).2
    rw [List.map_append, List.map_singleton]
    obtain ⟨row, hrow, ⟨hr, rfl⟩ | ⟨hr, rfl⟩⟩ := mem_updateWhere.mp ha
    · obtain ⟨old, hold, hoid, -⟩ := hpending row hrow
      have hin : row.id ∈ log.map (·.1) ++ [recoveryId] := by
        rw [eq_of_beq hr, hid]
        exact List.mem_append_right _ (List.mem_singleton.mpr rfl)
      exact ⟨old, hold, hoid, fun hp ↦ (by cases hp), fun hp ↦ absurd hin hp.2⟩
    · obtain ⟨old, hold, hoid, hiff⟩ := hpending attempt hrow
      have hne : attempt.id ≠ recoveryId := by
        rw [← hid]
        exact beq_eq_false_iff_ne.mp hr
      refine ⟨old, hold, hoid, hiff.trans (and_congr_right fun _ ↦ not_congr ?_)⟩
      rw [List.mem_append, List.mem_singleton, or_iff_left hne]

/-- Once an attempt has been approved, the plan that it is based on is superseded. -/
theorem DecisionRun.approved {log : List (UUID × DispatcherDecision)}
    (h : DecisionRun fingerprint db log db') (hl : (ledgerOf db).Sound) {attempt : RecoveryPlan}
    (ha : attempt ∈ db.recoveryPlans) (hlog : (attempt.id, .approve) ∈ log) :
    (ledgerOf db').HasPlan attempt.baseDeliveryPlanId .superseded := by
  induction h with
  | nil => cases hlog
  | @snoc log db' db'' h services recoveryId decision reason now hd ih =>
    obtain ⟨hsound, hstamps⟩ := h.sound hl
    rcases List.mem_append.mp hlog with hlog | hlog
    · have hmoves : Moves none (ledgerOf db') (ledgerOf db'') := decide_moves hsound hd
      exact hmoves.superseded hsound (ih hlog)
    · rw [List.mem_singleton, Prod.mk.injEq] at hlog
      obtain ⟨reviewable, hlocked, ⟨-, -, -, -, rfl⟩ | ⟨hreject, -⟩⟩ := Decisions.decide_ok hd
      · have hsuperseded := applyApproval_superseded hsound hlocked
        obtain ⟨hmem, hid⟩ := recoveryPlan?_mem hlocked.recovery
        have hstamp : stamp reviewable.recovery ∈ db.recoveryPlans.map stamp := by
          rw [← hstamps]
          exact List.mem_map_of_mem hmem
        obtain ⟨old, hold, he⟩ := List.mem_map.mp hstamp
        have hkey : keyOf old = keyOf reviewable.recovery := congrArg Prod.fst he
        have hoid : old.id = attempt.id :=
          (congrArg AttemptKey.id hkey).trans (hid.trans hlog.1.symm)
        rw [Ledger.attempt_eq hl.numbered hold ha hoid] at hkey
        have hbase : attempt.baseDeliveryPlanId = reviewable.recovery.baseDeliveryPlanId :=
          congrArg AttemptKey.baseDeliveryPlanId hkey
        rw [hbase]
        exact hsuperseded
      · rw [← hlog.2] at hreject
        cases hreject

end PenroseRoute.Lifecycle
