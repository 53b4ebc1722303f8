import Mathlib.Data.List.MinMax
import PenroseRoute.Db.Models
import PenroseRoute.Lib.Locking

/-!
# Plan versions under the locks of the code

The transactions that write `delivery_plans`, statement by statement and interleaved: those of
`PlanningWorkflow._generate` and `confirm_draft` (`planning/workflow.py:107` and `:157`), the
last transaction of a recovery with the candidates that it creates
(`deterministic_workflow.py:314`, `options.py:169`), and the decisions
(`decisions/service.py:118`). The creators take the advisory lock of their business date before
they read the latest version, decisions only lock the rows that they write.
-/

namespace PenroseRoute.Planning

open PenroseRoute.Db PenroseRoute.Lib

/-- The columns of `delivery_plans` that order its versions. -/
structure PlanVersion where
  id : UUID
  planGroupId : UUID
  businessDate : BusinessDate
  versionNo : Nat
  parentPlanId : Option UUID
  status : DeliveryPlanStatus
  validationStatus : ValidationStatus
  planningFactsSha256 : Option String
  deriving DecidableEq, Repr

/-- A row to insert; without a group it starts one of its own. -/
structure NewVersion where
  planGroupId : Option UUID
  businessDate : BusinessDate
  versionNo : Nat
  parentPlanId : Option UUID
  status : DeliveryPlanStatus
  planningFactsSha256 : Option String
  deriving DecidableEq, Repr

/-! ### Queries -/

/-- `get_latest_plan_for_business_date`, `plan_repository.py:339`. -/
def latest? (table : List PlanVersion) (businessDate : BusinessDate) : Option PlanVersion :=
  (table.filter (·.businessDate == businessDate)).reverse.argmax (·.versionNo)

/-- `get_current_plan`, `plan_repository.py:32`. -/
def current? (table : List PlanVersion) (businessDate : BusinessDate) : Option PlanVersion :=
  table.find? fun row ↦ row.businessDate == businessDate && row.status == .current

/-- A business date without a CURRENT plan. -/
def NoCurrent (table : List PlanVersion) (businessDate : BusinessDate) : Prop :=
  ∀ row ∈ table, row.businessDate = businessDate → row.status ≠ .current

/-- No plan is found when none of the date is CURRENT. -/
theorem current?_eq_none {table : List PlanVersion} {businessDate : BusinessDate} :
    current? table businessDate = none ↔ NoCurrent table businessDate := by
  rw [current?, List.find?_eq_none]
  apply forall₂_congr
  intro row _
  simp

/-- The latest version has the greatest number of its date. -/
theorem latest?_eq_some {table : List PlanVersion} {businessDate : BusinessDate}
    {row : PlanVersion} (h : latest? table businessDate = some row) :
    row ∈ table ∧ row.businessDate = businessDate ∧
      ∀ other ∈ table, other.businessDate = businessDate → other.versionNo ≤ row.versionNo := by
  have hmem := List.argmax_mem (Option.mem_def.mpr h)
  rw [List.mem_reverse, List.mem_filter, beq_iff_eq] at hmem
  refine ⟨hmem.1, hmem.2, ?_⟩
  intro other ho hd
  refine List.le_of_mem_argmax (f := fun row : PlanVersion ↦ row.versionNo) ?_
    (Option.mem_def.mpr h)
  rw [List.mem_reverse, List.mem_filter, beq_iff_eq]
  exact ⟨ho, hd⟩

/-- Without a latest version the date has no plan. -/
theorem latest?_eq_none {table : List PlanVersion} {businessDate : BusinessDate}
    (h : latest? table businessDate = none) :
    ∀ row ∈ table, row.businessDate ≠ businessDate := by
  rw [latest?, List.argmax_eq_none, List.reverse_eq_nil_iff, List.filter_eq_nil_iff] at h
  intro row hr hd
  exact h row hr (beq_iff_eq.mpr hd)

/-- The `version_no` of the latest plan, or 0, where a transaction also sees its own rows. -/
def latestVersionNo (table : List PlanVersion) (created : List NewVersion)
    (businessDate : BusinessDate) : Nat :=
  (((table.filter (·.businessDate == businessDate)).map (·.versionNo)) ++
    ((created.filter (·.businessDate == businessDate)).map (·.versionNo))).max?.getD 0

/-- The latest number is an upper bound of those stored and those created. -/
theorem le_latestVersionNo {table : List PlanVersion} {created : List NewVersion}
    {businessDate : BusinessDate} :
    (∀ row ∈ table, row.businessDate = businessDate →
      row.versionNo ≤ latestVersionNo table created businessDate) ∧
    ∀ row ∈ created, row.businessDate = businessDate →
      row.versionNo ≤ latestVersionNo table created businessDate := by
  have hle : ∀ numbers : List Nat, ∀ n ∈ numbers, n ≤ numbers.max?.getD 0 := by
    intro numbers n hn
    cases hm : numbers.max? with
    | none =>
      rw [List.max?_eq_none_iff] at hm
      rw [hm] at hn
      cases hn
    | some last => exact (List.max?_eq_some_iff.mp hm).2 n hn
  constructor
  · intro row hr hd
    refine hle _ _ (List.mem_append_left _ (List.mem_map.mpr ⟨row, ?_, rfl⟩))
    exact List.mem_filter.mpr ⟨hr, beq_iff_eq.mpr hd⟩
  · intro row hr hd
    refine hle _ _ (List.mem_append_right _ (List.mem_map.mpr ⟨row, ?_, rfl⟩))
    exact List.mem_filter.mpr ⟨hr, beq_iff_eq.mpr hd⟩

/-! ### Transactions -/

/-- Where the transaction of `_generate` is, `workflow.py:111`. -/
inductive GeneratePoint where
  | waiting
  /-- Holds the lock of the date. -/
  | locked
  /-- Has found no CURRENT plan, and the facts unchanged. -/
  | checked
  | read (previous : Option PlanVersion)
  /-- Has cancelled the previous plan when both are drafts. -/
  | flushed (cancelled : Option PlanVersion)
  /-- `PlanFinalizer.finalize` has added the plan. -/
  | built (cancelled : Option PlanVersion) (plan : NewVersion)
  deriving DecidableEq, Repr

/-- Where the transaction of `confirm_draft` is, `workflow.py:159`. -/
inductive ConfirmPoint where
  | selecting
  | waiting (businessDate : BusinessDate)
  | locked (businessDate : BusinessDate)
  /-- Holds the row of the plan. -/
  | holding (businessDate : BusinessDate) (plan : PlanVersion)
  /-- The plan is a DRAFT and the latest of the date. -/
  | reviewable (businessDate : BusinessDate) (plan : PlanVersion)
  /-- There is no CURRENT plan, and the draft is valid and up to date. -/
  | confirmed (businessDate : BusinessDate) (plan : PlanVersion)
  deriving DecidableEq, Repr

/-- Where the last transaction of a recovery is. -/
inductive RecoverPoint where
  | starting
  /-- Holds the row of its base plan, which is CURRENT. -/
  | holding (base : PlanVersion)
  /-- Holds the lock of the date and creates candidates; those beyond the limit are closed. -/
  | creating (base : PlanVersion) (created : List NewVersion) (closed : List PlanVersion)
  deriving DecidableEq, Repr

/-- Where a decision is, `service.py:118`. -/
inductive DecidePoint where
  | starting
  /-- Holds the row of the base plan. -/
  | based (base : PlanVersion)
  /-- Holds the rows of both plans. -/
  | reviewing (base candidate : PlanVersion)
  /-- Has checked both plans and closes the candidates of the alternatives. -/
  | deciding (base candidate : PlanVersion) (closed : List PlanVersion)
  deriving DecidableEq, Repr

/-- A transaction that writes plans. Which candidates a decision, a batch or a regeneration
closes is written on the attempts and not on the plans: here it may close any. -/
inductive PlanTransaction where
  | generate (businessDate : BusinessDate) (draft : Bool) (sha256 : String)
      (point : GeneratePoint)
  | confirm (planId : UUID) (sha256 : String) (point : ConfirmPoint)
  | recover (basePlanId : UUID) (point : RecoverPoint)
  | decide (basePlanId candidateId : UUID) (approve : Bool) (point : DecidePoint)
  | close (closed : List PlanVersion)
  deriving DecidableEq, Repr

namespace PlanTransaction

/-- The date whose advisory lock a transaction holds. -/
def dateLock : PlanTransaction → Option BusinessDate
  | .generate _ _ _ .waiting => none
  | .generate businessDate _ _ _ => some businessDate
  | .confirm _ _ (.locked businessDate) => some businessDate
  | .confirm _ _ (.holding businessDate _) => some businessDate
  | .confirm _ _ (.reviewable businessDate _) => some businessDate
  | .confirm _ _ (.confirmed businessDate _) => some businessDate
  | .recover _ (.creating base _ _) => some base.businessDate
  | _ => none

/-- The rows that a transaction holds, as it has read them. -/
def rows : PlanTransaction → List PlanVersion
  | .generate _ _ _ (.flushed cancelled) => cancelled.toList
  | .generate _ _ _ (.built cancelled _) => cancelled.toList
  | .confirm _ _ (.holding _ plan) => [plan]
  | .confirm _ _ (.reviewable _ plan) => [plan]
  | .confirm _ _ (.confirmed _ plan) => [plan]
  | .recover _ (.holding base) => [base]
  | .recover _ (.creating base _ closed) => base :: closed
  | .decide _ _ _ (.based base) => [base]
  | .decide _ _ _ (.reviewing base candidate) => [base, candidate]
  | .decide _ _ _ (.deciding base candidate closed) => base :: candidate :: closed
  | .close closed => closed
  | _ => []

/-- Two transactions hold the lock of one date or the same row. -/
def Conflict (a b : PlanTransaction) : Prop :=
  (∃ businessDate, a.dateLock = some businessDate ∧ b.dateLock = some businessDate) ∨
    ∃ row ∈ a.rows, ∃ other ∈ b.rows, row.id = other.id

end PlanTransaction

/-- The row that `PlanFinalizer.finalize` adds, `finalizer.py:42`. -/
def finalized (table : List PlanVersion) (businessDate : BusinessDate) (draft : Bool)
    (sha256 : String) : NewVersion :=
  let previous := latest? table businessDate
  { planGroupId := previous.map (·.planGroupId)
    businessDate := businessDate
    versionNo := previous.elim 1 (·.versionNo + 1)
    parentPlanId := previous.map (·.id)
    status := if draft then .draft else .current
    planningFactsSha256 := if draft then some sha256 else none }

/-- The row that `_create_candidate` adds, `deterministic_workflow.py:570`. -/
def createdCandidate (table : List PlanVersion) (base : PlanVersion) (created : List NewVersion) :
    NewVersion where
  planGroupId := some base.planGroupId
  businessDate := base.businessDate
  versionNo := latestVersionNo table created base.businessDate + 1
  parentPlanId := some base.id
  status := .candidate
  planningFactsSha256 := none

open PlanTransaction in
/-- One statement of a transaction. -/
inductive Statement (table : List PlanVersion) : PlanTransaction → PlanTransaction → Prop where
  | lockDate {businessDate draft sha256} :
      Statement table (.generate businessDate draft sha256 .waiting)
        (.generate businessDate draft sha256 .locked)
  | checkCurrent {businessDate draft sha256} (h : current? table businessDate = none) :
      Statement table (.generate businessDate draft sha256 .locked)
        (.generate businessDate draft sha256 .checked)
  | readPrevious {businessDate draft sha256} :
      Statement table (.generate businessDate draft sha256 .checked)
        (.generate businessDate draft sha256 (.read (latest? table businessDate)))
  | cancelPrevious {businessDate sha256 previous} (h : previous.status = .draft)
      (hrow : previous ∈ table) :
      Statement table (.generate businessDate true sha256 (.read (some previous)))
        (.generate businessDate true sha256 (.flushed (some previous)))
  | keepPrevious {businessDate draft sha256 previous}
      (h : draft = true → ∀ row ∈ previous, row.status ≠ .draft) :
      Statement table (.generate businessDate draft sha256 (.read previous))
        (.generate businessDate draft sha256 (.flushed none))
  | finalize {businessDate draft sha256 cancelled} :
      Statement table (.generate businessDate draft sha256 (.flushed cancelled))
        (.generate businessDate draft sha256
          (.built cancelled (finalized table businessDate draft sha256)))
  | select {planId sha256 plan} (hrow : plan ∈ table) (hid : plan.id = planId) :
      Statement table (.confirm planId sha256 .selecting)
        (.confirm planId sha256 (.waiting plan.businessDate))
  | lockSelected {planId sha256 businessDate} :
      Statement table (.confirm planId sha256 (.waiting businessDate))
        (.confirm planId sha256 (.locked businessDate))
  | lockPlan {planId sha256 businessDate plan} (hrow : plan ∈ table) (hid : plan.id = planId) :
      Statement table (.confirm planId sha256 (.locked businessDate))
        (.confirm planId sha256 (.holding businessDate plan))
  | checkLatest {planId sha256 businessDate plan} (hdraft : plan.status = .draft)
      (hlatest : (latest? table businessDate).map (·.id) = some plan.id) :
      Statement table (.confirm planId sha256 (.holding businessDate plan))
        (.confirm planId sha256 (.reviewable businessDate plan))
  | checkDraft {planId sha256 businessDate plan} (hcurrent : current? table businessDate = none)
      (hvalid : plan.validationStatus = .valid)
      (hfacts : plan.planningFactsSha256 = some sha256) :
      Statement table (.confirm planId sha256 (.reviewable businessDate plan))
        (.confirm planId sha256 (.confirmed businessDate plan))
  | lockBase {basePlanId base} (hrow : base ∈ table) (hid : base.id = basePlanId)
      (hcurrent : base.status = .current) :
      Statement table (.recover basePlanId .starting) (.recover basePlanId (.holding base))
  | lockBaseDate {basePlanId base} :
      Statement table (.recover basePlanId (.holding base))
        (.recover basePlanId (.creating base [] []))
  | create {basePlanId base created closed} :
      Statement table (.recover basePlanId (.creating base created closed))
        (.recover basePlanId
          (.creating base (created ++ [createdCandidate table base created]) closed))
  /-- The savepoint of an alternative with a known signature is rolled back. -/
  | rollbackCandidate {basePlanId base created closed candidate} :
      Statement table (.recover basePlanId (.creating base (created ++ [candidate]) closed))
        (.recover basePlanId (.creating base created closed))
  /-- A candidate of the batch is beyond the limit. -/
  | cancelCreated {basePlanId base before candidate after closed} :
      Statement table
        (.recover basePlanId (.creating base (before ++ candidate :: after) closed))
        (.recover basePlanId
          (.creating base (before ++ { candidate with status := .cancelled } :: after) closed))
  | cancelOther {basePlanId base created closed plan} (hrow : plan ∈ table) :
      Statement table (.recover basePlanId (.creating base created closed))
        (.recover basePlanId (.creating base created (plan :: closed)))
  | lockDecidedBase {basePlanId candidateId approve base} (hrow : base ∈ table)
      (hid : base.id = basePlanId) :
      Statement table (.decide basePlanId candidateId approve .starting)
        (.decide basePlanId candidateId approve (.based base))
  | lockCandidate {basePlanId candidateId approve base candidate} (hrow : candidate ∈ table)
      (hid : candidate.id = candidateId) :
      Statement table (.decide basePlanId candidateId approve (.based base))
        (.decide basePlanId candidateId approve (.reviewing base candidate))
  | checkReviewable {basePlanId candidateId approve base candidate}
      (hbase : base.status = .current)
      (hcurrent : (current? table base.businessDate).map (·.id) = some base.id)
      (hcandidate : candidate.status = .candidate)
      (hvalid : candidate.validationStatus = .valid)
      (hparent : candidate.parentPlanId = some base.id)
      (hdate : candidate.businessDate = base.businessDate)
      (hgroup : candidate.planGroupId = base.planGroupId) :
      Statement table (.decide basePlanId candidateId approve (.reviewing base candidate))
        (.decide basePlanId candidateId approve (.deciding base candidate []))
  | closeSibling {basePlanId candidateId approve base candidate closed plan}
      (hrow : plan ∈ table) :
      Statement table (.decide basePlanId candidateId approve (.deciding base candidate closed))
        (.decide basePlanId candidateId approve (.deciding base candidate (plan :: closed)))
  | close {closed plan} (hrow : plan ∈ table) :
      Statement table (.close closed) (.close (plan :: closed))

/-! ### Commits -/

/-- What a transaction writes at its commit. -/
structure PlanWrites where
  statuses : List (UUID × DeliveryPlanStatus)
  inserts : List NewVersion

/-- The closed rows become CANCELLED. -/
def cancelAll (closed : List PlanVersion) : List (UUID × DeliveryPlanStatus) :=
  closed.map fun row ↦ (row.id, .cancelled)

/-- The writes of a transaction that can commit. -/
def PlanTransaction.writes : PlanTransaction → Option PlanWrites
  | .generate _ _ _ (.built cancelled plan) => some ⟨cancelAll cancelled.toList, [plan]⟩
  | .confirm _ _ (.confirmed _ plan) => some ⟨[(plan.id, .current)], []⟩
  | .recover _ (.holding _) => some ⟨[], []⟩
  | .recover _ (.creating _ created closed) => some ⟨cancelAll closed, created⟩
  | .decide _ _ true (.deciding base candidate closed) =>
    some ⟨(base.id, .superseded) :: (candidate.id, .current) :: cancelAll closed, []⟩
  | .decide _ _ false (.deciding _ candidate closed) =>
    some ⟨(candidate.id, .cancelled) :: cancelAll closed, []⟩
  | .close closed => some ⟨cancelAll closed, []⟩
  | _ => none

/-- A row after the status writes of a transaction. -/
def setStatus (statuses : List (UUID × DeliveryPlanStatus)) (row : PlanVersion) : PlanVersion :=
  { row with status := (statuses.lookup row.id).getD row.status }

/-- The row of an insert: a group without an id gets one that no plan has. -/
structure Inserted (table : List PlanVersion) (plan : NewVersion) (row : PlanVersion) : Prop where
  businessDate : row.businessDate = plan.businessDate
  versionNo : row.versionNo = plan.versionNo
  parentPlanId : row.parentPlanId = plan.parentPlanId
  status : row.status = plan.status
  validationStatus : row.validationStatus = .valid
  sha256 : row.planningFactsSha256 = plan.planningFactsSha256
  group : ∀ planGroupId, plan.planGroupId = some planGroupId → row.planGroupId = planGroupId
  newGroup : plan.planGroupId = none → ∀ other ∈ table, other.planGroupId ≠ row.planGroupId

/-- The table after a commit: statuses are written, and the inserted rows have unused ids. -/
def PlanCommits (table : List PlanVersion) (t : PlanTransaction) (table' : List PlanVersion) :
    Prop :=
  ∃ writes new, t.writes = some writes ∧ List.Forall₂ (Inserted table) writes.inserts new ∧
    ((table ++ new).map (·.id)).Nodup ∧ table' = table.map (setStatus writes.statuses) ++ new

/-- How a transaction begins. -/
inductive Begins : PlanTransaction → Prop where
  | generate (businessDate : BusinessDate) (draft : Bool) (sha256 : String) :
      Begins (.generate businessDate draft sha256 .waiting)
  | confirm (planId : UUID) (sha256 : String) : Begins (.confirm planId sha256 .selecting)
  | recover (basePlanId : UUID) : Begins (.recover basePlanId .starting)
  | decide (basePlanId candidateId : UUID) (approve : Bool) :
      Begins (.decide basePlanId candidateId approve .starting)
  | close : Begins (.close [])

/-- The transactions on `delivery_plans`. -/
def planVersions : Protocol (List PlanVersion) PlanTransaction where
  begins := Begins
  statement := Statement
  conflict := PlanTransaction.Conflict
  commits := PlanCommits

end PenroseRoute.Planning
