import PenroseRoute.Planning.Versions

/-!
# The order of plan versions

What every interleaving of the transactions on `delivery_plans` keeps: one CURRENT plan and one
increasing chain of versions for each business date.
-/

namespace PenroseRoute.Planning

open PenroseRoute.Db PenroseRoute.Lib

/-! ### Tables -/

/-- The versions of every date in the order of their creation: numbers increase, a date has one
group of its own, and all but the first version have an earlier parent. -/
structure Ordered (table : List PlanVersion) : Prop where
  ids : (table.map (·.id)).Nodup
  positive : ∀ row ∈ table, 0 < row.versionNo
  increasing : table.Pairwise fun a b ↦
    a.businessDate = b.businessDate → a.versionNo < b.versionNo
  groups : ∀ a ∈ table, ∀ b ∈ table,
    a.planGroupId = b.planGroupId ↔ a.businessDate = b.businessDate
  first : ∀ row ∈ table, row.versionNo = 1 ↔ row.parentPlanId = none
  parents : ∀ row ∈ table, ∀ parentId, row.parentPlanId = some parentId →
    ∃ parent ∈ table, parent.id = parentId ∧ parent.businessDate = row.businessDate ∧
      parent.planGroupId = row.planGroupId ∧ parent.versionNo < row.versionNo

/-- A date has at most one CURRENT plan. -/
def OneCurrent (table : List PlanVersion) : Prop :=
  ∀ a ∈ table, ∀ b ∈ table, a.status = .current → b.status = .current →
    a.businessDate = b.businessDate → a = b

/-- The tables that the transactions keep. -/
structure Versioned (table : List PlanVersion) : Prop where
  ordered : Ordered table
  oneCurrent : OneCurrent table

/-- Without plans the versions are in order. -/
theorem versioned_nil : Versioned [] :=
  ⟨⟨.nil, nofun, .nil, nofun, nofun, nofun⟩, nofun⟩

/-- Rows of one id are one row. -/
theorem Ordered.eq_of_id {table : List PlanVersion} (h : Ordered table) {a b : PlanVersion}
    (ha : a ∈ table) (hb : b ∈ table) (hid : a.id = b.id) : a = b :=
  eq_of_key_eq h.ids ha hb hid

/-- Rows of one date and version are one row. -/
theorem Ordered.eq_of_version {table : List PlanVersion} (h : Ordered table) {a b : PlanVersion}
    (ha : a ∈ table) (hb : b ∈ table) (hd : a.businessDate = b.businessDate)
    (hversion : a.versionNo = b.versionNo) : a = b := by
  obtain ⟨i, hi, rfl⟩ := List.getElem_of_mem ha
  obtain ⟨j, hj, rfl⟩ := List.getElem_of_mem hb
  have hlt := List.pairwise_iff_getElem.mp h.increasing
  rcases Nat.lt_trichotomy i j with hij | rfl | hij
  · exact absurd hversion (Nat.ne_of_lt (hlt i j hi hj hij hd))
  · rfl
  · exact absurd hversion.symm (Nat.ne_of_lt (hlt j i hj hi hij hd.symm))

/-- Status writes leave the order alone. -/
theorem Ordered.setStatus {table : List PlanVersion} (h : Ordered table)
    (statuses : List (UUID × DeliveryPlanStatus)) :
    Ordered (table.map (setStatus statuses)) := by
  refine ⟨?_, ?_, ?_, ?_, ?_, ?_⟩
  · rw [List.map_map]
    exact h.ids
  · intro row hr
    obtain ⟨old, ho, rfl⟩ := List.mem_map.mp hr
    exact h.positive old ho
  · rw [List.pairwise_map]
    exact h.increasing
  · intro a ha b hb
    obtain ⟨oldA, hoa, rfl⟩ := List.mem_map.mp ha
    obtain ⟨oldB, hob, rfl⟩ := List.mem_map.mp hb
    exact h.groups oldA hoa oldB hob
  · intro row hr
    obtain ⟨old, ho, rfl⟩ := List.mem_map.mp hr
    exact h.first old ho
  · intro row hr parentId hp
    obtain ⟨old, ho, rfl⟩ := List.mem_map.mp hr
    obtain ⟨parent, hparent, hid, hd, hg, hlt⟩ := h.parents old ho parentId hp
    exact ⟨Planning.setStatus statuses parent, List.mem_map.mpr ⟨parent, hparent, rfl⟩, hid, hd,
      hg, hlt⟩

/-- New versions of one date: above all its old ones, increasing, and with an old parent unless
they found the first of the date. -/
structure Extends (table new : List PlanVersion) (businessDate : BusinessDate) : Prop where
  sameDate : ∀ row ∈ new, row.businessDate = businessDate
  above : ∀ old ∈ table, old.businessDate = businessDate → ∀ row ∈ new,
    old.versionNo < row.versionNo
  increasing : new.Pairwise fun a b ↦ a.versionNo < b.versionNo
  parents : (∀ row ∈ new, ∃ parent ∈ table, row.parentPlanId = some parent.id ∧
      parent.businessDate = businessDate ∧ parent.planGroupId = row.planGroupId) ∨
    ∃ row, new = [row] ∧ row.versionNo = 1 ∧ row.parentPlanId = none ∧
      ∀ old ∈ table, old.businessDate ≠ businessDate ∧ old.planGroupId ≠ row.planGroupId

/-- A row of the extended date is in the group of that date. -/
theorem Extends.group_iff {table new : List PlanVersion} {businessDate : BusinessDate}
    (h : Extends table new businessDate) (ho : Ordered table) {old row : PlanVersion}
    (hold : old ∈ table) (hrow : row ∈ new) :
    old.planGroupId = row.planGroupId ↔ old.businessDate = businessDate := by
  rcases h.parents with hparents | ⟨only, hnew, -, -, hfresh⟩
  · obtain ⟨parent, hp, -, hd, hg⟩ := hparents row hrow
    rw [← hg, ← hd]
    exact ho.groups old hold parent hp
  · rw [hnew, List.mem_singleton] at hrow
    subst hrow
    obtain ⟨hd, hg⟩ := hfresh old hold
    exact ⟨fun he ↦ absurd he hg, fun he ↦ absurd he hd⟩

/-- New versions of a date keep the order. -/
theorem Ordered.append {table new : List PlanVersion} {businessDate : BusinessDate}
    (h : Ordered table) (hnew : Extends table new businessDate)
    (hids : ((table ++ new).map (·.id)).Nodup) : Ordered (table ++ new) := by
  have hone : ∀ row ∈ new, (∃ parent ∈ table, row.parentPlanId = some parent.id ∧
      parent.businessDate = businessDate ∧ parent.planGroupId = row.planGroupId ∧
      1 < row.versionNo) ∨ (row.versionNo = 1 ∧ row.parentPlanId = none) := by
    intro row hr
    rcases hnew.parents with hparents | ⟨only, he, hversion, hparent, -⟩
    · obtain ⟨parent, hp, hid, hd, hg⟩ := hparents row hr
      have hpositive := h.positive parent hp
      have habove := hnew.above parent hp hd row hr
      exact .inl ⟨parent, hp, hid, hd, hg, by omega⟩
    · rw [he, List.mem_singleton] at hr
      subst hr
      exact .inr ⟨hversion, hparent⟩
  have hgroups : ∀ a ∈ new, ∀ b ∈ new, a.planGroupId = b.planGroupId := by
    intro a ha b hb
    rcases hnew.parents with hparents | ⟨only, he, -⟩
    · obtain ⟨parentA, hpa, -, hda, hga⟩ := hparents a ha
      obtain ⟨parentB, hpb, -, hdb, hgb⟩ := hparents b hb
      rw [← hga, ← hgb]
      exact (h.groups parentA hpa parentB hpb).mpr (hda.trans hdb.symm)
    · rw [he, List.mem_singleton] at ha hb
      rw [ha, hb]
  refine ⟨hids, ?_, ?_, ?_, ?_, ?_⟩
  · intro row hr
    rcases List.mem_append.mp hr with ho | hn
    · exact h.positive row ho
    · rcases hone row hn with ⟨-, -, -, -, -, hlt⟩ | ⟨he, -⟩ <;> omega
  · refine List.pairwise_append.mpr ⟨h.increasing, ?_, ?_⟩
    · refine List.Pairwise.imp ?_ hnew.increasing
      intro a b hlt _
      exact hlt
    · intro old ho row hn hd
      exact hnew.above old ho (hd.trans (hnew.sameDate row hn)) row hn
  · intro a ha b hb
    rcases List.mem_append.mp ha with hao | han <;> rcases List.mem_append.mp hb with hbo | hbn
    · exact h.groups a hao b hbo
    · rw [hnew.group_iff h hao hbn, hnew.sameDate b hbn]
    · rw [eq_comm, hnew.group_iff h hbo han, hnew.sameDate a han, eq_comm]
    · rw [hnew.sameDate a han, hnew.sameDate b hbn]
      exact ⟨fun _ ↦ rfl, fun _ ↦ hgroups a han b hbn⟩
  · intro row hr
    rcases List.mem_append.mp hr with ho | hn
    · exact h.first row ho
    · rcases hone row hn with ⟨parent, -, hp, -, -, hlt⟩ | ⟨he, hp⟩
      · rw [hp]
        exact ⟨fun he ↦ by omega, fun he ↦ by cases he⟩
      · exact ⟨fun _ ↦ hp, fun _ ↦ he⟩
  · intro row hr parentId hp
    rcases List.mem_append.mp hr with ho | hn
    · obtain ⟨parent, hparent, hrest⟩ := h.parents row ho parentId hp
      exact ⟨parent, List.mem_append_left _ hparent, hrest⟩
    · rcases hone row hn with ⟨parent, hparent, hid, hd, hg, -⟩ | ⟨-, hnone⟩
      · rw [hid, Option.some.injEq] at hp
        exact ⟨parent, List.mem_append_left _ hparent, hp, hd.trans (hnew.sameDate row hn).symm,
          hg, hnew.above parent hparent hd row hn⟩
      · rw [hnone] at hp
        cases hp

/-! ### What a transaction has read -/

/-- A row whose status alone may have changed. -/
def SameVersion (row row' : PlanVersion) : Prop := row' = { row with status := row'.status }

/-- New plans of a date that a transaction has prepared from what it read. -/
structure Prepared (table : List PlanVersion) (plans : List NewVersion)
    (businessDate : BusinessDate) : Prop where
  sameDate : ∀ plan ∈ plans, plan.businessDate = businessDate
  above : ∀ old ∈ table, old.businessDate = businessDate → ∀ plan ∈ plans,
    old.versionNo < plan.versionNo
  increasing : plans.Pairwise fun a b ↦ a.versionNo < b.versionNo
  parents : (∀ plan ∈ plans, ∃ parent ∈ table, plan.parentPlanId = some parent.id ∧
      parent.businessDate = businessDate ∧ plan.planGroupId = some parent.planGroupId) ∨
    ∃ plan, plans = [plan] ∧ plan.versionNo = 1 ∧ plan.parentPlanId = none ∧
      plan.planGroupId = none ∧ ∀ old ∈ table, old.businessDate ≠ businessDate

/-- The inserted rows of prepared plans extend their date. -/
theorem Prepared.extend {table new : List PlanVersion} {plans : List NewVersion}
    {businessDate : BusinessDate} (h : Prepared table plans businessDate)
    (hnew : List.Forall₂ (Inserted table) plans new) : Extends table new businessDate := by
  refine ⟨?_, ?_, ?_, ?_⟩
  · intro row hr
    obtain ⟨plan, hp, hi⟩ := exists_of_forall₂_right hnew hr
    exact hi.businessDate.trans (h.sameDate plan hp)
  · intro old ho hd row hr
    obtain ⟨plan, hp, hi⟩ := exists_of_forall₂_right hnew hr
    rw [hi.versionNo]
    exact h.above old ho hd plan hp
  · refine pairwise_of_forall₂ ?_ hnew h.increasing
    intro a b a' b' ha hb hlt
    rw [ha.versionNo, hb.versionNo]
    exact hlt
  · rcases h.parents with hparents | ⟨plan, rfl, hversion, hparent, hgroup, hnone⟩
    · left
      intro row hr
      obtain ⟨plan, hp, hi⟩ := exists_of_forall₂_right hnew hr
      obtain ⟨parent, hparent, hid, hd, hg⟩ := hparents plan hp
      exact ⟨parent, hparent, hi.parentPlanId.trans hid, hd, (hi.group _ hg).symm⟩
    · right
      obtain ⟨row, tail, hi, ht, rfl⟩ := List.forall₂_cons_left_iff.mp hnew
      rw [List.forall₂_nil_left_iff.mp ht]
      refine ⟨row, rfl, hi.versionNo.trans hversion, hi.parentPlanId.trans hparent, ?_⟩
      exact fun old ho ↦ ⟨hnone old ho, hi.newGroup hgroup old ho⟩

/-- Status writes do not matter to an extension. -/
theorem Extends.setStatus {table new : List PlanVersion} {businessDate : BusinessDate}
    (h : Extends table new businessDate) (statuses : List (UUID × DeliveryPlanStatus)) :
    Extends (table.map (setStatus statuses)) new businessDate := by
  refine ⟨h.sameDate, ?_, h.increasing, ?_⟩
  · intro old ho
    obtain ⟨row, hr, rfl⟩ := List.mem_map.mp ho
    exact h.above row hr
  · rcases h.parents with hparents | ⟨row, hnew, hversion, hparent, hfresh⟩
    · left
      intro row hr
      obtain ⟨parent, hp, hrest⟩ := hparents row hr
      exact ⟨Planning.setStatus statuses parent, List.mem_map.mpr ⟨parent, hp, rfl⟩, hrest⟩
    · right
      refine ⟨row, hnew, hversion, hparent, ?_⟩
      intro old ho
      obtain ⟨row, hr, rfl⟩ := List.mem_map.mp ho
      exact hfresh row hr

/-- What the statements of a transaction so far have established. -/
def Justified (table : List PlanVersion) : PlanTransaction → Prop
  | .generate businessDate _ _ .checked => NoCurrent table businessDate
  | .generate businessDate _ _ (.read _) => NoCurrent table businessDate
  | .generate businessDate _ _ (.flushed _) => NoCurrent table businessDate
  | .generate businessDate _ _ (.built _ plan) =>
    NoCurrent table businessDate ∧ Prepared table [plan] businessDate
  | .confirm planId _ (.waiting businessDate) =>
    ∃ row ∈ table, row.id = planId ∧ row.businessDate = businessDate
  | .confirm planId _ (.locked businessDate) =>
    ∃ row ∈ table, row.id = planId ∧ row.businessDate = businessDate
  | .confirm _ _ (.holding businessDate plan) => plan.businessDate = businessDate
  | .confirm _ _ (.reviewable businessDate plan) =>
    plan.businessDate = businessDate ∧ plan.status = .draft ∧
      ∀ other ∈ table, other.businessDate = businessDate → other.versionNo ≤ plan.versionNo
  | .confirm _ _ (.confirmed businessDate plan) =>
    plan.businessDate = businessDate ∧ plan.status = .draft ∧
      (∀ other ∈ table, other.businessDate = businessDate → other.versionNo ≤ plan.versionNo) ∧
      NoCurrent table businessDate
  | .recover _ (.creating base created _) =>
    Prepared table created base.businessDate ∧
      ∀ plan ∈ created, plan.status = .candidate ∨ plan.status = .cancelled
  | .decide _ _ _ (.deciding base candidate _) =>
    base.status = .current ∧ candidate.status = .candidate ∧
      candidate.businessDate = base.businessDate
  | _ => True

/-- A transaction holds rows of the table, and what it has established is true of it. -/
def Fact (table : List PlanVersion) (t : PlanTransaction) : Prop :=
  (∀ row ∈ t.rows, row ∈ table) ∧ Justified table t

/-- A transaction that has created nothing yet. -/
theorem prepared_nil (table : List PlanVersion) (businessDate : BusinessDate) :
    Prepared table [] businessDate :=
  ⟨fun _ hp ↦ (by cases hp), fun _ _ _ _ hp ↦ (by cases hp), .nil, .inl fun _ hp ↦ by cases hp⟩

/-- The plan that `finalize` adds is prepared from the latest version. -/
theorem prepared_finalized {table : List PlanVersion} (businessDate : BusinessDate)
    (draft : Bool) (sha256 : String) :
    Prepared table [finalized table businessDate draft sha256] businessDate := by
  refine ⟨?_, ?_, List.pairwise_singleton _ _, ?_⟩
  · intro plan hp
    rw [List.mem_singleton.mp hp]
    rfl
  · intro old ho hd plan hp
    rw [List.mem_singleton.mp hp, finalized]
    cases hl : latest? table businessDate with
    | none => exact absurd hd (latest?_eq_none hl old ho)
    | some latest => exact Nat.lt_succ_of_le ((latest?_eq_some hl).2.2 old ho hd)
  · cases hl : latest? table businessDate with
    | none =>
      right
      refine ⟨_, rfl, ?_, ?_, ?_, latest?_eq_none hl⟩ <;> simp [finalized, hl]
    | some latest =>
      left
      intro plan hp
      obtain ⟨hmem, hd, -⟩ := latest?_eq_some hl
      refine ⟨latest, hmem, ?_, hd, ?_⟩ <;> simp [List.mem_singleton.mp hp, finalized, hl]

/-- Fewer plans of a date with an old plan are prepared as well. -/
theorem Prepared.sublist {table : List PlanVersion} {base : PlanVersion}
    {plans plans' : List NewVersion} (h : Prepared table plans base.businessDate)
    (hsub : plans'.Sublist plans) (hbase : base ∈ table) :
    Prepared table plans' base.businessDate := by
  refine ⟨fun plan hp ↦ h.sameDate plan (hsub.subset hp),
    fun old ho hd plan hp ↦ h.above old ho hd plan (hsub.subset hp), h.increasing.sublist hsub, ?_⟩
  rcases h.parents with hparents | ⟨-, -, -, -, -, hnone⟩
  · exact .inl fun plan hp ↦ hparents plan (hsub.subset hp)
  · exact absurd rfl (hnone base hbase)

/-- A prepared plan may be cancelled before the commit. -/
theorem Prepared.setStatus {table : List PlanVersion} {base : PlanVersion}
    {before after : List NewVersion} {plan : NewVersion} {status : DeliveryPlanStatus}
    (h : Prepared table (before ++ plan :: after) base.businessDate) (hbase : base ∈ table) :
    Prepared table (before ++ { plan with status := status } :: after) base.businessDate := by
  have hmem : ∀ row ∈ before ++ { plan with status := status } :: after,
      ∃ old ∈ before ++ plan :: after, row.businessDate = old.businessDate ∧
        row.versionNo = old.versionNo ∧ row.parentPlanId = old.parentPlanId ∧
        row.planGroupId = old.planGroupId := by
    intro row hr
    rcases List.mem_append.mp hr with hb | hc
    · exact ⟨row, List.mem_append_left _ hb, rfl, rfl, rfl, rfl⟩
    · rcases List.mem_cons.mp hc with rfl | ha
      · exact ⟨plan, List.mem_append_right _ List.mem_cons_self, rfl, rfl, rfl, rfl⟩
      · exact ⟨row, List.mem_append_right _ (List.mem_cons_of_mem _ ha), rfl, rfl, rfl, rfl⟩
  refine ⟨?_, ?_, ?_, ?_⟩
  · intro row hr
    obtain ⟨old, ho, hd, -⟩ := hmem row hr
    exact hd.trans (h.sameDate old ho)
  · intro old ho hd row hr
    obtain ⟨was, hw, -, hversion, -⟩ := hmem row hr
    rw [hversion]
    exact h.above old ho hd was hw
  · have hnumbers := List.pairwise_map.mpr h.increasing
    rw [List.map_append, List.map_cons] at hnumbers
    rw [← List.pairwise_map (f := fun plan : NewVersion ↦ plan.versionNo) (R := (· < ·)),
      List.map_append, List.map_cons]
    exact hnumbers
  · rcases h.parents with hparents | ⟨-, -, -, -, -, hnone⟩
    · left
      intro row hr
      obtain ⟨old, ho, -, -, hparent, hgroup⟩ := hmem row hr
      rw [hparent, hgroup]
      exact hparents old ho
    · exact absurd rfl (hnone base hbase)

/-- One more candidate is prepared from what the transaction sees. -/
theorem Prepared.createCandidate {table : List PlanVersion} {base : PlanVersion}
    {created : List NewVersion} (h : Prepared table created base.businessDate)
    (hbase : base ∈ table) :
    Prepared table (created ++ [createdCandidate table base created]) base.businessDate := by
  obtain ⟨hold, hcreated⟩ := @le_latestVersionNo table created base.businessDate
  refine ⟨?_, ?_, ?_, ?_⟩
  · intro plan hp
    rcases List.mem_append.mp hp with ho | hn
    · exact h.sameDate plan ho
    · rw [List.mem_singleton.mp hn]
      rfl
  · intro old ho hd plan hp
    rcases List.mem_append.mp hp with hin | hn
    · exact h.above old ho hd plan hin
    · rw [List.mem_singleton.mp hn]
      exact Nat.lt_succ_of_le (hold old ho hd)
  · refine List.pairwise_append.mpr ⟨h.increasing, List.pairwise_singleton _ _, ?_⟩
    intro plan hp new hn
    rw [List.mem_singleton.mp hn]
    exact Nat.lt_succ_of_le (hcreated plan hp (h.sameDate plan hp))
  · left
    intro plan hp
    rcases List.mem_append.mp hp with ho | hn
    · rcases h.parents with hparents | ⟨-, -, -, -, -, hnone⟩
      · exact hparents plan ho
      · exact absurd rfl (hnone base hbase)
    · rw [List.mem_singleton.mp hn]
      exact ⟨base, hbase, rfl, rfl, rfl⟩

/-! ### One statement -/

/-- What a transaction has established is still true after its next statement. -/
theorem Fact.statement {table : List PlanVersion} {t t' : PlanTransaction}
    (hv : Versioned table) (hf : Fact table t) (h : Statement table t t') : Fact table t' := by
  obtain ⟨hrows, hj⟩ := hf
  cases h with
  | lockDate => exact ⟨nofun, trivial⟩
  | checkCurrent h => exact ⟨nofun, current?_eq_none.mp h⟩
  | readPrevious => exact ⟨nofun, hj⟩
  | cancelPrevious h hrow => exact ⟨fun row hr ↦ List.mem_singleton.mp hr ▸ hrow, hj⟩
  | keepPrevious h => exact ⟨nofun, hj⟩
  | finalize => exact ⟨hrows, hj, prepared_finalized _ _ _⟩
  | select hrow hid => exact ⟨nofun, _, hrow, hid, rfl⟩
  | lockSelected => exact ⟨nofun, hj⟩
  | lockPlan hrow hid =>
    obtain ⟨row, hr, hrowId, hd⟩ := hj
    refine ⟨fun row hr ↦ List.mem_singleton.mp hr ▸ hrow, ?_⟩
    rw [← hv.ordered.eq_of_id hr hrow (hrowId.trans hid.symm)] at *
    exact hd
  | @checkLatest planId sha256 businessDate plan hdraft hlatest =>
    refine ⟨hrows, hj, hdraft, ?_⟩
    obtain ⟨latest, hl, hid⟩ := Option.map_eq_some_iff.mp hlatest
    obtain ⟨hmem, -, hle⟩ := latest?_eq_some hl
    have hplan : plan ∈ table := hrows plan List.mem_cons_self
    rw [hv.ordered.eq_of_id hplan hmem hid.symm]
    exact hle
  | checkDraft hcurrent => exact ⟨hrows, hj.1, hj.2.1, hj.2.2, current?_eq_none.mp hcurrent⟩
  | lockBase hrow => exact ⟨fun row hr ↦ List.mem_singleton.mp hr ▸ hrow, trivial⟩
  | lockBaseDate => exact ⟨hrows, prepared_nil table _, fun _ hp ↦ by cases hp⟩
  | create =>
    refine ⟨hrows, hj.1.createCandidate (hrows _ List.mem_cons_self), ?_⟩
    intro plan hp
    rcases List.mem_append.mp hp with ho | hn
    · exact hj.2 plan ho
    · rw [List.mem_singleton.mp hn]
      exact .inl rfl
  | @rollbackCandidate basePlanId base created closed candidate =>
    refine ⟨hrows, hj.1.sublist (List.sublist_append_left _ _) (hrows base List.mem_cons_self), ?_⟩
    exact fun plan hp ↦ hj.2 plan (List.mem_append_left _ hp)
  | @cancelCreated basePlanId base before candidate after closed =>
    refine ⟨hrows, hj.1.setStatus (hrows base List.mem_cons_self), ?_⟩
    intro plan hp
    rcases List.mem_append.mp hp with hb | hc
    · exact hj.2 plan (List.mem_append_left _ hb)
    · rcases List.mem_cons.mp hc with rfl | ha
      · exact .inr rfl
      · exact hj.2 plan (List.mem_append_right _ (List.mem_cons_of_mem _ ha))
  | cancelOther hrow =>
    refine ⟨?_, hj⟩
    intro row hr
    rcases List.mem_cons.mp hr with rfl | hr
    · exact hrows _ List.mem_cons_self
    · rcases List.mem_cons.mp hr with rfl | hr
      · exact hrow
      · exact hrows row (List.mem_cons_of_mem _ hr)
  | lockDecidedBase hrow => exact ⟨fun row hr ↦ List.mem_singleton.mp hr ▸ hrow, trivial⟩
  | lockCandidate hrow =>
    refine ⟨?_, trivial⟩
    intro row hr
    rcases List.mem_cons.mp hr with rfl | hr
    · exact hrows _ List.mem_cons_self
    · rw [List.mem_singleton.mp hr]
      exact hrow
  | checkReviewable hbase _ hcandidate _ _ hdate => exact ⟨hrows, hbase, hcandidate, hdate⟩
  | closeSibling hrow =>
    refine ⟨?_, hj⟩
    intro row hr
    rcases List.mem_cons.mp hr with rfl | hr
    · exact hrows _ List.mem_cons_self
    · rcases List.mem_cons.mp hr with rfl | hr
      · exact hrows _ (List.mem_cons_of_mem _ List.mem_cons_self)
      · rcases List.mem_cons.mp hr with rfl | hr
        · exact hrow
        · exact hrows row (List.mem_cons_of_mem _ (List.mem_cons_of_mem _ hr))
  | close hrow =>
    refine ⟨?_, trivial⟩
    intro row hr
    rcases List.mem_cons.mp hr with rfl | hr
    · exact hrow
    · exact hrows row hr

/-! ### One commit -/

/-- A transaction writes the statuses of rows that it holds, and rows of the date that it has
locked, which it has prepared. -/
theorem PlanTransaction.writes_spec {table : List PlanVersion} {t : PlanTransaction}
    {writes : PlanWrites} (hf : Fact table t) (h : t.writes = some writes) :
    (∀ entry ∈ writes.statuses, ∃ row ∈ t.rows, row.id = entry.1) ∧
      (writes.inserts = [] ∨ ∃ businessDate, t.dateLock = some businessDate ∧
        Prepared table writes.inserts businessDate) := by
  have hcancel : ∀ closed : List PlanVersion, ∀ entry ∈ cancelAll closed,
      ∃ row ∈ closed, row.id = entry.1 := by
    intro closed entry he
    obtain ⟨row, hr, rfl⟩ := List.mem_map.mp he
    exact ⟨row, hr, rfl⟩
  obtain ⟨-, hj⟩ := hf
  cases t with
  | generate businessDate draft sha256 point =>
    cases point with
    | built cancelled plan =>
      cases h
      exact ⟨hcancel _, .inr ⟨businessDate, rfl, hj.2⟩⟩
    | _ => cases h
  | confirm planId sha256 point =>
    cases point with
    | confirmed businessDate plan =>
      cases h
      refine ⟨fun entry he ↦ ?_, .inl rfl⟩
      rw [List.mem_singleton.mp he]
      exact ⟨plan, List.mem_cons_self, rfl⟩
    | _ => cases h
  | recover basePlanId point =>
    cases point with
    | starting => cases h
    | holding base =>
      cases h
      exact ⟨fun entry he ↦ (by cases he), .inl rfl⟩
    | creating base created closed =>
      cases h
      refine ⟨fun entry he ↦ ?_, .inr ⟨base.businessDate, rfl, hj.1⟩⟩
      obtain ⟨row, hr, hid⟩ := hcancel closed entry he
      exact ⟨row, List.mem_cons_of_mem _ hr, hid⟩
  | decide basePlanId candidateId approve point =>
    cases point with
    | deciding base candidate closed =>
      cases approve with
      | true =>
        cases h
        refine ⟨fun entry he ↦ ?_, .inl rfl⟩
        rcases List.mem_cons.mp he with rfl | he
        · exact ⟨base, List.mem_cons_self, rfl⟩
        · rcases List.mem_cons.mp he with rfl | he
          · exact ⟨candidate, List.mem_cons_of_mem _ List.mem_cons_self, rfl⟩
          · obtain ⟨row, hr, hid⟩ := hcancel closed entry he
            exact ⟨row, List.mem_cons_of_mem _ (List.mem_cons_of_mem _ hr), hid⟩
      | false =>
        cases h
        refine ⟨fun entry he ↦ ?_, .inl rfl⟩
        rcases List.mem_cons.mp he with rfl | he
        · exact ⟨candidate, List.mem_cons_of_mem _ List.mem_cons_self, rfl⟩
        · obtain ⟨row, hr, hid⟩ := hcancel closed entry he
          exact ⟨row, List.mem_cons_of_mem _ (List.mem_cons_of_mem _ hr), hid⟩
    | _ => cases approve <;> cases h
  | close closed =>
    cases h
    exact ⟨hcancel closed, .inl rfl⟩

/-- A row that no status write names stays as it is. -/
theorem setStatus_of_not_mem {statuses : List (UUID × DeliveryPlanStatus)} {row : PlanVersion}
    (h : ∀ entry ∈ statuses, entry.1 ≠ row.id) : setStatus statuses row = row := by
  have hl : statuses.lookup row.id = none := by
    rw [List.lookup_eq_none_iff]
    intro entry he
    rw [bne_iff_ne]
    exact (h entry he).symm
  rw [setStatus, hl, Option.getD_none]

/-- A row that a status write makes CURRENT is named by it, or was CURRENT before. -/
theorem setStatus_current {statuses : List (UUID × DeliveryPlanStatus)} {row : PlanVersion}
    (h : (setStatus statuses row).status = .current) :
    setStatus statuses row = row ∨ statuses.lookup row.id = some .current := by
  cases hl : statuses.lookup row.id with
  | none =>
    left
    rw [setStatus, hl, Option.getD_none]
  | some status =>
    right
    rw [setStatus, hl, Option.getD_some] at h
    exact congrArg some h

/-- What the other transactions see of a commit: rows keep their versions, rows that the
transaction does not hold stay as they are, and rows are only added to the date it has locked. -/
structure Kept (t : PlanTransaction) (table table' : List PlanVersion) : Prop where
  forward : ∀ row ∈ table, ∃ row' ∈ table', SameVersion row row'
  others : ∀ row ∈ table, (∀ held ∈ t.rows, held.id ≠ row.id) → row ∈ table'
  backward : ∀ row' ∈ table', (∃ row ∈ table, SameVersion row row') ∨
    t.dateLock = some row'.businessDate

/-- Every commit keeps the versions of the others. -/
theorem PlanCommits.kept {table table' : List PlanVersion} {t : PlanTransaction}
    (hf : Fact table t) (h : PlanCommits table t table') : Kept t table table' := by
  obtain ⟨writes, new, hw, hinserted, -, rfl⟩ := h
  obtain ⟨hstatuses, hinserts⟩ := PlanTransaction.writes_spec hf hw
  refine ⟨?_, ?_, ?_⟩
  · intro row hr
    exact ⟨setStatus writes.statuses row,
      List.mem_append_left _ (List.mem_map.mpr ⟨row, hr, rfl⟩), rfl⟩
  · intro row hr hheld
    refine List.mem_append_left _ (List.mem_map.mpr ⟨row, hr, setStatus_of_not_mem ?_⟩)
    intro entry he hid
    obtain ⟨held, hh, hheldId⟩ := hstatuses entry he
    exact hheld held hh (hheldId.trans hid)
  · intro row' hr'
    rcases List.mem_append.mp hr' with hold | hnew
    · obtain ⟨row, hr, rfl⟩ := List.mem_map.mp hold
      exact .inl ⟨row, hr, rfl⟩
    · obtain ⟨plan, hp, hi⟩ := exists_of_forall₂_right hinserted hnew
      rcases hinserts with hnil | ⟨businessDate, hlock, hprepared⟩
      · rw [hnil] at hp
        cases hp
      · right
        rw [hlock, hi.businessDate, hprepared.sameDate plan hp]

/-- Every commit keeps the order of the versions. -/
theorem PlanCommits.ordered {table table' : List PlanVersion} {t : PlanTransaction}
    (ho : Ordered table) (hf : Fact table t) (h : PlanCommits table t table') :
    Ordered table' := by
  obtain ⟨writes, new, hw, hinserted, hids, rfl⟩ := h
  obtain ⟨-, hinserts⟩ := PlanTransaction.writes_spec hf hw
  rcases hinserts with hnil | ⟨businessDate, -, hprepared⟩
  · rw [hnil, List.forall₂_nil_left_iff] at hinserted
    rw [hinserted, List.append_nil]
    exact ho.setStatus writes.statuses
  · refine (ho.setStatus writes.statuses).append ((hprepared.extend hinserted).setStatus _) ?_
    rw [List.map_append, List.map_map]
    rw [List.map_append] at hids
    exact hids

/-- Where a plan that a commit has made CURRENT comes from: its date had none, and the
transaction holds the lock of that date, or it takes the place of the only one. -/
inductive Raised (table table' : List PlanVersion) (t : PlanTransaction) (row : PlanVersion) :
    Prop where
  | alone (hlock : t.dateLock = some row.businessDate) (hnone : NoCurrent table row.businessDate)
  | replaces (base : PlanVersion) (hbase : base ∈ table) (hcurrent : base.status = .current)
      (hdate : base.businessDate = row.businessDate)
      (hleft : ∀ other ∈ table', other.id = base.id → other.status ≠ .current)

private theorem lookup_cancelAll {closed : List PlanVersion} {id : UUID}
    {status : DeliveryPlanStatus} (h : (cancelAll closed).lookup id = some status) :
    status = .cancelled := by
  obtain ⟨front, back, he, -⟩ := List.lookup_eq_some_iff.mp h
  have hmem : (id, status) ∈ cancelAll closed := by
    rw [he]
    exact List.mem_append_right _ List.mem_cons_self
  obtain ⟨row, -, hr⟩ := List.mem_map.mp hmem
  exact (congrArg Prod.snd hr).symm

private theorem mem_of_no_current {table : List PlanVersion}
    {statuses : List (UUID × DeliveryPlanStatus)}
    (h : ∀ id, statuses.lookup id ≠ some .current) {row : PlanVersion}
    (hr : row ∈ table.map (setStatus statuses)) (hcurrent : row.status = .current) :
    row ∈ table := by
  obtain ⟨old, ho, rfl⟩ := List.mem_map.mp hr
  rcases setStatus_current hcurrent with he | hl
  · rw [he]
    exact ho
  · exact absurd hl (h old.id)

private theorem lookup_cancelAll_ne (closed : List PlanVersion) (id : UUID) :
    (cancelAll closed).lookup id ≠ some .current := by
  intro h
  cases lookup_cancelAll h

/-- A row that is CURRENT after a commit was CURRENT before, or the commit has raised it. -/
theorem PlanCommits.current {table table' : List PlanVersion} {t : PlanTransaction}
    (ho : Ordered table) (hf : Fact table t) (h : PlanCommits table t table') :
    ∃ raised : Option PlanVersion,
      (∀ row ∈ table', row.status = .current → row ∈ table ∨ raised = some row) ∧
      ∀ row, raised = some row → Raised table table' t row := by
  obtain ⟨writes, new, hw, hinserted, -, rfl⟩ := h
  obtain ⟨hrows, hj⟩ := hf
  cases t with
  | generate businessDate draft sha256 point =>
    cases point with
    | built cancelled plan =>
      cases hw
      obtain ⟨row, tail, hi, ht, rfl⟩ := List.forall₂_cons_left_iff.mp hinserted
      rw [List.forall₂_nil_left_iff.mp ht]
      refine ⟨some row, ?_, ?_⟩
      · intro other hother hcurrent
        rcases List.mem_append.mp hother with hold | hnew
        · exact .inl (mem_of_no_current (lookup_cancelAll_ne _) hold hcurrent)
        · exact .inr (congrArg some (List.mem_singleton.mp hnew).symm)
      · intro other he
        cases he
        have hdate : row.businessDate = businessDate :=
          hi.businessDate.trans (hj.2.sameDate plan List.mem_cons_self)
        rw [← hdate] at hj
        exact .alone (congrArg some hdate.symm) hj.1
    | _ => cases hw
  | confirm planId sha256 point =>
    cases point with
    | confirmed businessDate plan =>
      cases hw
      rw [List.forall₂_nil_left_iff.mp hinserted, List.append_nil]
      refine ⟨some (setStatus [(plan.id, .current)] plan), ?_, ?_⟩
      · intro row hr hcurrent
        obtain ⟨old, hold, rfl⟩ := List.mem_map.mp hr
        rcases setStatus_current hcurrent with he | hl
        · rw [he]
          exact .inl hold
        · have hid : old.id = plan.id := by
            rw [List.lookup_cons] at hl
            split at hl
            · next hbeq => exact eq_of_beq hbeq
            · cases hl
          rw [ho.eq_of_id hold (hrows plan List.mem_cons_self) hid]
          exact .inr rfl
      · intro row he
        cases he
        exact .alone (congrArg some hj.1.symm) (hj.1 ▸ hj.2.2.2)
    | _ => cases hw
  | recover basePlanId point =>
    cases point with
    | starting => cases hw
    | holding base =>
      cases hw
      rw [List.forall₂_nil_left_iff.mp hinserted, List.append_nil]
      refine ⟨none, ?_, nofun⟩
      intro row hr hcurrent
      exact .inl (mem_of_no_current (fun _ hl ↦ by cases hl) hr hcurrent)
    | creating base created closed =>
      cases hw
      refine ⟨none, ?_, nofun⟩
      intro row hr hcurrent
      rcases List.mem_append.mp hr with hold | hnew
      · exact .inl (mem_of_no_current (lookup_cancelAll_ne _) hold hcurrent)
      · obtain ⟨plan, hp, hi⟩ := exists_of_forall₂_right hinserted hnew
        rw [hi.status] at hcurrent
        rcases hj.2 plan hp with hs | hs <;> rw [hs] at hcurrent <;> cases hcurrent
  | decide basePlanId candidateId approve point =>
    cases point with
    | deciding base candidate closed =>
      obtain ⟨hbase, hcandidate, hdate⟩ := hj
      have hne : candidate.id ≠ base.id := by
        intro hid
        have hsame := ho.eq_of_id (hrows candidate (List.mem_cons_of_mem _ List.mem_cons_self))
          (hrows base List.mem_cons_self) hid
        rw [hsame, hbase] at hcandidate
        cases hcandidate
      cases approve with
      | true =>
        cases hw
        rw [List.forall₂_nil_left_iff.mp hinserted, List.append_nil]
        refine ⟨some (setStatus ((base.id, .superseded) :: (candidate.id, .current) ::
          cancelAll closed) candidate), ?_, ?_⟩
        · intro row hr hcurrent
          obtain ⟨old, hold, rfl⟩ := List.mem_map.mp hr
          rcases setStatus_current hcurrent with he | hl
          · rw [he]
            exact .inl hold
          · have hid : old.id = candidate.id := by
              rw [List.lookup_cons] at hl
              split at hl
              · cases hl
              · rw [List.lookup_cons] at hl
                split at hl
                · next hbeq => exact eq_of_beq hbeq
                · exact absurd hl (lookup_cancelAll_ne closed old.id)
            rw [ho.eq_of_id hold (hrows candidate (List.mem_cons_of_mem _ List.mem_cons_self)) hid]
            exact .inr rfl
        · intro row he
          cases he
          refine .replaces base (hrows base List.mem_cons_self) hbase hdate.symm ?_
          intro other hother hid hcurrent
          obtain ⟨old, hold, rfl⟩ := List.mem_map.mp hother
          have hidOld : old.id = base.id := hid
          rw [setStatus, hidOld, List.lookup_cons, beq_self_eq_true] at hcurrent
          cases hcurrent
      | false =>
        cases hw
        rw [List.forall₂_nil_left_iff.mp hinserted, List.append_nil]
        refine ⟨none, ?_, nofun⟩
        intro row hr hcurrent
        refine .inl (mem_of_no_current ?_ hr hcurrent)
        intro id hl
        rw [List.lookup_cons] at hl
        split at hl
        · cases hl
        · exact lookup_cancelAll_ne closed id hl
    | _ => cases approve <;> cases hw
  | close closed =>
    cases hw
    rw [List.forall₂_nil_left_iff.mp hinserted, List.append_nil]
    refine ⟨none, ?_, nofun⟩
    intro row hr hcurrent
    exact .inl (mem_of_no_current (lookup_cancelAll_ne closed) hr hcurrent)

/-- Every commit keeps one CURRENT plan for each date. -/
theorem PlanCommits.versioned {table table' : List PlanVersion} {t : PlanTransaction}
    (hv : Versioned table) (hf : Fact table t) (h : PlanCommits table t table') :
    Versioned table' := by
  refine ⟨h.ordered hv.ordered hf, ?_⟩
  obtain ⟨raised, hfrom, hraised⟩ := h.current hv.ordered hf
  -- An old CURRENT row and the raised one are never of one date.
  have hapart : ∀ old ∈ table, old ∈ table' → old.status = .current → ∀ row, raised = some row →
      old.businessDate ≠ row.businessDate := by
    intro old ho ho' hcurrent row hr hd
    cases hraised row hr with
    | alone _ hnone => exact hnone old ho hd hcurrent
    | replaces base hbase hbaseCurrent hdate hleft =>
      have hsame := hv.oneCurrent old ho base hbase hcurrent hbaseCurrent (hd.trans hdate.symm)
      exact hleft old ho' (congrArg _ hsame) hcurrent
  intro a ha b hb hca hcb hd
  rcases hfrom a ha hca with hoa | hra <;> rcases hfrom b hb hcb with hob | hrb
  · exact hv.oneCurrent a hoa b hob hca hcb hd
  · exact absurd hd (hapart a hoa ha hca b hrb)
  · exact absurd hd.symm (hapart b hob hb hcb a hra)
  · exact Option.some.inj (hra.symm.trans hrb)

/-! ### The others -/

section Stable

variable {table table' : List PlanVersion} {t other : PlanTransaction}
  {businessDate : BusinessDate}

/-- The commit of one transaction adds no plan to a date that another one has locked. -/
theorem Kept.backward_of_lock (h : Kept t table table') (hfree : ¬ t.Conflict other)
    (hlock : other.dateLock = some businessDate) {row' : PlanVersion} (hr : row' ∈ table')
    (hd : row'.businessDate = businessDate) : ∃ row ∈ table, SameVersion row row' := by
  rcases h.backward row' hr with hold | hheld
  · exact hold
  · exact absurd (.inl ⟨businessDate, hd ▸ hheld, hlock⟩) hfree

/-- Nor does it make one of its plans CURRENT while none is. -/
theorem noCurrent_stable (hv : Versioned table) (hf : Fact table t)
    (h : PlanCommits table t table') (hfree : ¬ t.Conflict other)
    (hlock : other.dateLock = some businessDate) (hnone : NoCurrent table businessDate) :
    NoCurrent table' businessDate := by
  obtain ⟨raised, hfrom, hraised⟩ := h.current hv.ordered hf
  intro row hr hd hcurrent
  rcases hfrom row hr hcurrent with hold | hnew
  · exact hnone row hold hd hcurrent
  · cases hraised row hnew with
    | alone hheld _ => exact hfree (.inl ⟨businessDate, hd ▸ hheld, hlock⟩)
    | replaces base hbase hbaseCurrent hdate _ =>
      exact hnone base hbase (hdate.trans hd) hbaseCurrent

/-- Nor does it get in the way of plans that are prepared for the date. -/
theorem Prepared.stable {plans : List NewVersion} (h : Prepared table plans businessDate)
    (hk : Kept t table table') (hfree : ¬ t.Conflict other)
    (hlock : other.dateLock = some businessDate) : Prepared table' plans businessDate := by
  refine ⟨h.sameDate, ?_, h.increasing, ?_⟩
  · intro row' hr hd plan hp
    obtain ⟨row, hrow, hsame⟩ := hk.backward_of_lock hfree hlock hr hd
    rw [hsame] at hd ⊢
    exact h.above row hrow hd plan hp
  · rcases h.parents with hparents | ⟨plan, hplans, hversion, hparent, hgroup, hnone⟩
    · left
      intro plan hp
      obtain ⟨parent, hmem, hid, hd, hg⟩ := hparents plan hp
      obtain ⟨parent', hmem', hsame⟩ := hk.forward parent hmem
      rw [hsame] at hmem'
      exact ⟨_, hmem', hid, hd, hg⟩
    · right
      refine ⟨plan, hplans, hversion, hparent, hgroup, ?_⟩
      intro row' hr hd
      obtain ⟨row, hrow, hsame⟩ := hk.backward_of_lock hfree hlock hr hd
      rw [hsame] at hd
      exact hnone row hrow hd

/-- What a transaction has established is still true after the commit of another one. -/
theorem Fact.stable (hv : Versioned table) (hf : Fact table t) (h : PlanCommits table t table')
    (hfree : ¬ t.Conflict other) (ho : Fact table other) : Fact table' other := by
  have hk := h.kept hf
  obtain ⟨hrows, hj⟩ := ho
  refine ⟨?_, ?_⟩
  · intro row hr
    refine hk.others row (hrows row hr) ?_
    intro held hheld hid
    exact hfree (.inr ⟨held, hheld, row, hr, hid⟩)
  have hselected : ∀ planId selectedDate,
      (∃ row ∈ table, row.id = planId ∧ row.businessDate = selectedDate) →
      ∃ row ∈ table', row.id = planId ∧ row.businessDate = selectedDate := by
    rintro planId selectedDate ⟨row, hrow, hid, hd⟩
    obtain ⟨row', hrow', hsame⟩ := hk.forward row hrow
    rw [hsame] at hrow'
    exact ⟨_, hrow', hid, hd⟩
  have hnewest : ∀ {lockedDate : BusinessDate} {versionNo : Nat},
      other.dateLock = some lockedDate →
      (∀ row ∈ table, row.businessDate = lockedDate → row.versionNo ≤ versionNo) →
      ∀ row ∈ table', row.businessDate = lockedDate → row.versionNo ≤ versionNo := by
    intro lockedDate versionNo hlock hle row' hr hd
    obtain ⟨row, hrow, hsame⟩ := hk.backward_of_lock hfree hlock hr hd
    rw [hsame] at hd ⊢
    exact hle row hrow hd
  cases other with
  | generate lockedDate draft sha256 point =>
    cases point with
    | waiting => trivial
    | locked => trivial
    | checked => exact noCurrent_stable hv hf h hfree rfl hj
    | read previous => exact noCurrent_stable hv hf h hfree rfl hj
    | flushed cancelled => exact noCurrent_stable hv hf h hfree rfl hj
    | built cancelled plan =>
      exact ⟨noCurrent_stable hv hf h hfree rfl hj.1, hj.2.stable hk hfree rfl⟩
  | confirm planId sha256 point =>
    cases point with
    | selecting => trivial
    | waiting selectedDate => exact hselected planId selectedDate hj
    | locked selectedDate => exact hselected planId selectedDate hj
    | holding selectedDate plan => exact hj
    | reviewable selectedDate plan =>
      obtain ⟨hd, hdraft, hlatest⟩ := hj
      exact ⟨hd, hdraft, hnewest rfl hlatest⟩
    | confirmed selectedDate plan =>
      obtain ⟨hd, hdraft, hlatest, hnone⟩ := hj
      exact ⟨hd, hdraft, hnewest rfl hlatest, noCurrent_stable hv hf h hfree rfl hnone⟩
  | recover basePlanId point =>
    cases point with
    | starting => trivial
    | holding base => trivial
    | creating base created closed => exact ⟨hj.1.stable hk hfree rfl, hj.2⟩
  | decide basePlanId candidateId approve point =>
    cases point with
    | starting => trivial
    | based base => trivial
    | reviewing base candidate => trivial
    | deciding base candidate closed => exact hj
  | close closed => trivial

end Stable

/-! ### Every interleaving -/

/-- Single transactions keep the order of the versions, and the locks protect what they have
read. -/
theorem planVersions_keeps : planVersions.Keeps Versioned Fact where
  symm a b h := by
    rcases h with ⟨businessDate, ha, hb⟩ | ⟨row, hr, other, ho, hid⟩
    · exact .inl ⟨businessDate, hb, ha⟩
    · exact .inr ⟨other, ho, row, hr, hid.symm⟩
  begins table t h := by
    cases h <;> exact ⟨fun _ hr ↦ (by cases hr), trivial⟩
  statement _ _ _ hv hf h := hf.statement hv h
  commits _ _ _ hv hf h := h.versioned hv hf
  stable _ _ _ _ hv hf h hfree ho := Fact.stable hv hf h hfree ho

/-- A row whose status a commit writes is closed, is reviewed, or is the latest of its date. -/
theorem PlanTransaction.writes_status {table : List PlanVersion} {t : PlanTransaction}
    {writes : PlanWrites} {row : PlanVersion} {status : DeliveryPlanStatus}
    (ho : Ordered table) (hf : Fact table t) (hw : t.writes = some writes) (hr : row ∈ table)
    (hl : writes.statuses.lookup row.id = some status) :
    status = .cancelled ∨ row.status = .current ∨ row.status = .candidate ∨
      ∀ other ∈ table, other.businessDate = row.businessDate → other.versionNo ≤ row.versionNo := by
  obtain ⟨hrows, hj⟩ := hf
  cases t with
  | generate businessDate draft sha256 point =>
    cases point with
    | built cancelled plan =>
      cases hw
      exact .inl (lookup_cancelAll hl)
    | _ => cases hw
  | confirm planId sha256 point =>
    cases point with
    | confirmed businessDate plan =>
      cases hw
      rw [List.lookup_cons] at hl
      split at hl
      · next hbeq =>
        rw [ho.eq_of_id hr (hrows plan List.mem_cons_self) (eq_of_beq hbeq), hj.1]
        exact .inr (.inr (.inr hj.2.2.1))
      · cases hl
    | _ => cases hw
  | recover basePlanId point =>
    cases point with
    | starting => cases hw
    | holding base =>
      cases hw
      cases hl
    | creating base created closed =>
      cases hw
      exact .inl (lookup_cancelAll hl)
  | decide basePlanId candidateId approve point =>
    cases point with
    | deciding base candidate closed =>
      have hbase : base ∈ table := hrows base List.mem_cons_self
      have hcandidate : candidate ∈ table :=
        hrows candidate (List.mem_cons_of_mem _ List.mem_cons_self)
      cases approve with
      | true =>
        cases hw
        rw [List.lookup_cons, List.lookup_cons] at hl
        split at hl
        · next hbeq =>
          rw [ho.eq_of_id hr hbase (eq_of_beq hbeq)]
          exact .inr (.inl hj.1)
        · split at hl
          · next hbeq =>
            rw [ho.eq_of_id hr hcandidate (eq_of_beq hbeq)]
            exact .inr (.inr (.inl hj.2.1))
          · exact .inl (lookup_cancelAll hl)
      | false =>
        cases hw
        rw [List.lookup_cons] at hl
        split at hl
        · exact .inl (Option.some.inj hl).symm
        · exact .inl (lookup_cancelAll hl)
    | _ => cases approve <;> cases hw
  | close closed =>
    cases hw
    exact .inl (lookup_cancelAll hl)

/-- A plan that is no longer reviewable: a draft, perhaps cancelled, with a later version of its
date. -/
def Overtaken (planId : UUID) (table : List PlanVersion) : Prop :=
  ∃ row ∈ table, row.id = planId ∧ (row.status = .draft ∨ row.status = .cancelled) ∧
    ∃ later ∈ table, later.businessDate = row.businessDate ∧ row.versionNo < later.versionNo

/-- No commit makes an overtaken draft reviewable again. -/
theorem Overtaken.commits {table table' : List PlanVersion} {t : PlanTransaction} {planId : UUID}
    (hv : Versioned table) (hf : Fact table t) (h : PlanCommits table t table')
    (ho : Overtaken planId table) : Overtaken planId table' := by
  obtain ⟨row, hr, hid, hstatus, later, hlater, hd, hlt⟩ := ho
  obtain ⟨writes, new, hw, -, -, rfl⟩ := h
  refine ⟨setStatus writes.statuses row, List.mem_append_left _ (List.mem_map.mpr ⟨row, hr, rfl⟩),
    hid, ?_, setStatus writes.statuses later,
    List.mem_append_left _ (List.mem_map.mpr ⟨later, hlater, rfl⟩), hd, hlt⟩
  cases hl : writes.statuses.lookup row.id with
  | none =>
    rw [setStatus, hl, Option.getD_none]
    exact hstatus
  | some status =>
    rw [setStatus, hl, Option.getD_some]
    rcases PlanTransaction.writes_status hv.ordered hf hw hr hl with he | he | he | hle
    · exact .inr he
    · rw [he] at hstatus
      rcases hstatus with hs | hs <;> cases hs
    · rw [he] at hstatus
      rcases hstatus with hs | hs <;> cases hs
    · have := hle later hlater hd
      omega

/-- A DRAFT that can still be confirmed: some continuation makes it CURRENT. -/
def Confirmable (s : Protocol.State (List PlanVersion) PlanTransaction) (row : PlanVersion) :
    Prop :=
  row ∈ s.table ∧ row.status = .draft ∧
    ∃ s', planVersions.Run s s' ∧ ∃ row' ∈ s'.table, row'.id = row.id ∧ row'.status = .current

/-- A confirmable draft is the latest version of its date. -/
theorem Confirmable.latest {s : Protocol.State (List PlanVersion) PlanTransaction}
    {row : PlanVersion} (hs : planVersions.Holds Versioned Fact s) (h : Confirmable s row) :
    ∀ other ∈ s.table, other.businessDate = row.businessDate →
      other.versionNo ≤ row.versionNo := by
  obtain ⟨hr, hdraft, s', hrun, row', hr', hid, hcurrent⟩ := h
  intro other hother hd
  by_contra hlt
  have hovertaken : Overtaken row.id s.table :=
    ⟨row, hr, rfl, .inl hdraft, other, hother, hd, Nat.lt_of_not_le hlt⟩
  obtain ⟨old, hold, holdId, hstatus, -⟩ := hs.kept planVersions_keeps
    (fun _ _ _ hv hf hc ↦ Overtaken.commits hv hf hc) hrun hovertaken
  have hv := (hs.run planVersions_keeps hrun).table
  rw [hv.ordered.eq_of_id hold hr' (holdId.trans hid.symm), hcurrent] at hstatus
  rcases hstatus with hs | hs <;> cases hs

/-- In every interleaving a date has at most one CURRENT plan, its versions increase in the
order of their creation, a plan is the first version exactly when it has no parent, its parent
is an earlier version of its date and group, and at most one draft can still be confirmed. -/
theorem plan_versioning {s : Protocol.State (List PlanVersion) PlanTransaction}
    (h : planVersions.Run ⟨[], []⟩ s) :
    OneCurrent s.table ∧
      s.table.Pairwise (fun a b ↦ a.businessDate = b.businessDate → a.versionNo < b.versionNo) ∧
      (∀ row ∈ s.table, (row.versionNo = 1 ↔ row.parentPlanId = none) ∧
        ∀ parentId, row.parentPlanId = some parentId →
          ∃ parent ∈ s.table, parent.id = parentId ∧ parent.businessDate = row.businessDate ∧
            parent.planGroupId = row.planGroupId ∧ parent.versionNo < row.versionNo) ∧
      ∀ a b, Confirmable s a → Confirmable s b → a.businessDate = b.businessDate → a = b := by
  have hs := (Protocol.Holds.of_idle versioned_nil).run planVersions_keeps h
  have ho := hs.table.ordered
  refine ⟨hs.table.oneCurrent, ho.increasing,
    fun row hr ↦ ⟨ho.first row hr, ho.parents row hr⟩, ?_⟩
  intro a b ha hb hd
  have hab := hb.latest hs a ha.1 hd
  have hba := ha.latest hs b hb.1 hd.symm
  exact ho.eq_of_version ha.1 hb.1 hd (Nat.le_antisymm hab hba)

/-! ### Two versions and a candidate -/

/-- The first draft of a date. -/
def firstDraft : PlanVersion where
  id := 1
  planGroupId := 2
  businessDate := 0
  versionNo := 1
  parentPlanId := none
  status := .draft
  validationStatus := .valid
  planningFactsSha256 := some "facts"

/-- The draft that replaces it. -/
def secondDraft : PlanVersion :=
  { firstDraft with id := 3, versionNo := 2, parentPlanId := some 1 }

/-- A recovery candidate of the second draft, once this is CURRENT. -/
def thirdVersion : PlanVersion :=
  { firstDraft with
    id := 4
    versionNo := 3
    parentPlanId := some 3
    status := .candidate
    planningFactsSha256 := none }

/-- The first draft of another date. -/
def otherDraft : PlanVersion := { firstDraft with id := 5, planGroupId := 6, businessDate := 1 }

/-- The rows once the second draft has replaced the first one. -/
def replacedTable : List PlanVersion := [{ firstDraft with status := .cancelled }, secondDraft]

/-- The rows while the candidate waits for its review. -/
def reviewedTable : List PlanVersion :=
  [{ firstDraft with status := .cancelled }, { secondDraft with status := .current }, thirdVersion]

/-- The rows once the candidate has been approved. -/
def approvedTable : List PlanVersion :=
  [{ firstDraft with status := .cancelled }, { secondDraft with status := .superseded },
    { thirdVersion with status := .current }]

/-- A date without plans gets its first draft. -/
theorem firstDraft_generated : planVersions.Alone [] [firstDraft] := by
  refine ⟨_, .generate 0 true "facts" (.built none (finalized [] 0 true "facts")),
    .generate 0 true "facts", ?_, ⟨[], [finalized [] 0 true "facts"]⟩, [firstDraft], rfl, ?_,
    by decide, rfl⟩
  · refine .head .lockDate (.head (.checkCurrent rfl) (.head .readPrevious
      (.head (.keepPrevious ?_) (.single .finalize))))
    exact fun _ _ hr ↦ (by cases hr)
  · refine .cons ⟨rfl, rfl, rfl, rfl, rfl, rfl, ?_, ?_⟩ .nil
    · exact fun _ hg ↦ (by cases hg)
    · exact fun _ _ ho ↦ (by cases ho)

-- The row of the second draft as it is inserted.
private def secondInsert : NewVersion := finalized [firstDraft] 0 true "facts"

/-- The second draft is generated while the first one is about to be confirmed: the confirmation
waits for the lock of the date and finds a cancelled draft. -/
theorem secondDraft_replaces : planVersions.Run ⟨[firstDraft], []⟩ ⟨replacedTable, []⟩ := by
  have hbegin : planVersions.Step ⟨[firstDraft], []⟩
      ⟨[firstDraft], [.confirm 1 "facts" .selecting]⟩ :=
    .begin (.confirm 1 "facts") fun _ ho ↦ (by cases ho)
  have hselect : planVersions.Step ⟨[firstDraft], [.confirm 1 "facts" .selecting]⟩
      ⟨[firstDraft], [.confirm 1 "facts" (.waiting 0)]⟩ :=
    Protocol.Step.statement_head (.select List.mem_cons_self rfl) fun _ ho ↦ (by cases ho)
  have hfree : ∀ point, ∀ other ∈ [PlanTransaction.confirm 1 "facts" (.waiting 0)],
      ¬ planVersions.conflict (.generate 0 true "facts" point) other := by
    rintro point other ho (⟨businessDate, -, hlock⟩ | ⟨-, -, row, hrow, -⟩)
    · rw [List.mem_singleton.mp ho] at hlock
      cases hlock
    · rw [List.mem_singleton.mp ho] at hrow
      cases hrow
  have hwork : ∀ {before after : GeneratePoint},
      Statement [firstDraft] (.generate 0 true "facts" before) (.generate 0 true "facts" after) →
      planVersions.Step
        ⟨[firstDraft], [.generate 0 true "facts" before, .confirm 1 "facts" (.waiting 0)]⟩
        ⟨[firstDraft], [.generate 0 true "facts" after, .confirm 1 "facts" (.waiting 0)]⟩ :=
    fun h ↦ Protocol.Step.statement_head h (hfree _)
  have hgenerate : planVersions.Step ⟨[firstDraft], [.confirm 1 "facts" (.waiting 0)]⟩
      ⟨[firstDraft], [.generate 0 true "facts" .waiting, .confirm 1 "facts" (.waiting 0)]⟩ :=
    .begin (.generate 0 true "facts") (hfree _)
  have hcommit : planVersions.Step
      ⟨[firstDraft], [.generate 0 true "facts" (.built (some firstDraft) secondInsert),
        .confirm 1 "facts" (.waiting 0)]⟩
      ⟨replacedTable, [.confirm 1 "facts" (.waiting 0)]⟩ := by
    refine Protocol.Step.commit_head ⟨⟨[(1, .cancelled)], [secondInsert]⟩, [secondDraft], rfl,
      .cons ⟨rfl, rfl, rfl, rfl, rfl, rfl, ?_, ?_⟩ .nil, by decide, rfl⟩
    · intro planGroupId hg
      cases hg
      rfl
    · exact fun hg ↦ (by cases hg)
  have hlock : planVersions.Step ⟨replacedTable, [.confirm 1 "facts" (.waiting 0)]⟩
      ⟨replacedTable, [.confirm 1 "facts" (.locked 0)]⟩ :=
    Protocol.Step.statement_head .lockSelected fun _ ho ↦ (by cases ho)
  have hrefused : planVersions.Step ⟨replacedTable, [.confirm 1 "facts" (.locked 0)]⟩
      ⟨replacedTable, []⟩ :=
    Protocol.Step.rollback_head
  refine .head hbegin (.head hselect (.head hgenerate ?_))
  refine .head (hwork .lockDate) (.head (hwork (.checkCurrent rfl)) ?_)
  refine .head (hwork .readPrevious) (.head (hwork (.cancelPrevious rfl List.mem_cons_self)) ?_)
  refine .head (hwork .finalize) ?_
  exact .head hcommit (.head hlock (.single hrefused))

/-- The second draft is confirmed, and a recovery makes a candidate of it. -/
theorem thirdVersion_created : planVersions.Run ⟨replacedTable, []⟩ ⟨reviewedTable, []⟩ := by
  have hconfirm : planVersions.Alone replacedTable
      [{ firstDraft with status := .cancelled }, { secondDraft with status := .current }] := by
    refine ⟨_, .confirm 3 "facts" (.confirmed 0 secondDraft), .confirm 3 "facts", ?_,
      ⟨[(3, .current)], []⟩, [], rfl, .nil, by decide, rfl⟩
    have hmem : secondDraft ∈ replacedTable := by decide
    exact .head (.select hmem rfl) (.head .lockSelected
      (.head (.lockPlan hmem rfl) (.head (.checkLatest rfl rfl)
        (.single (.checkDraft rfl rfl rfl)))))
  have hrecover : planVersions.Alone
      [{ firstDraft with status := .cancelled }, { secondDraft with status := .current }]
      reviewedTable := by
    let base : PlanVersion := { secondDraft with status := .current }
    let table : List PlanVersion := [{ firstDraft with status := .cancelled }, base]
    refine ⟨_, .recover 3 (.creating base [createdCandidate table base []] []), .recover 3, ?_,
      ⟨[], [createdCandidate table base []]⟩, [thirdVersion], rfl, ?_, by decide, rfl⟩
    · have hmem : base ∈ table := by decide
      exact .head (.lockBase hmem rfl rfl) (.head .lockBaseDate (.single .create))
    · refine .cons ⟨rfl, by decide, rfl, rfl, rfl, rfl, ?_, ?_⟩ .nil
      · intro planGroupId hg
        cases hg
        rfl
      · exact fun hg ↦ (by cases hg)
  exact hconfirm.run.trans hrecover.run

/-- The candidate is approved, and another date gets a draft. -/
theorem thirdVersion_approved :
    planVersions.Run ⟨reviewedTable, []⟩ ⟨approvedTable ++ [otherDraft], []⟩ := by
  have happrove : planVersions.Alone reviewedTable approvedTable := by
    let base : PlanVersion := { secondDraft with status := .current }
    refine ⟨_, .decide 3 4 true (.deciding base thirdVersion []), .decide 3 4 true, ?_,
      ⟨[(3, .superseded), (4, .current)], []⟩, [], rfl, .nil, by decide, rfl⟩
    have hbase : base ∈ reviewedTable := by decide
    have hcandidate : thirdVersion ∈ reviewedTable := by decide
    exact .head (.lockDecidedBase hbase rfl) (.head (.lockCandidate hcandidate rfl)
      (.single (.checkReviewable rfl rfl rfl rfl rfl rfl rfl)))
  have hgenerate : planVersions.Alone approvedTable (approvedTable ++ [otherDraft]) := by
    refine ⟨_, .generate 1 true "facts" (.built none (finalized approvedTable 1 true "facts")),
      .generate 1 true "facts", ?_, ⟨[], [finalized approvedTable 1 true "facts"]⟩, [otherDraft],
      rfl, ?_, by decide, by decide⟩
    · refine .head .lockDate (.head (.checkCurrent rfl) (.head .readPrevious
        (.head (.keepPrevious ?_) (.single .finalize))))
      exact fun _ _ hr ↦ (by cases hr)
    · refine .cons ⟨rfl, rfl, rfl, rfl, rfl, rfl, ?_, ?_⟩ .nil
      · exact fun _ hg ↦ (by cases hg)
      · exact fun _ ↦ by decide
  exact happrove.run.trans hgenerate.run

/-- The dates of the approved candidate and of the other draft are in order. -/
theorem approvedTable_versioning :
    OneCurrent (approvedTable ++ [otherDraft]) ∧
      (approvedTable ++ [otherDraft]).Pairwise
        (fun a b ↦ a.businessDate = b.businessDate → a.versionNo < b.versionNo) ∧
      (∀ row ∈ approvedTable ++ [otherDraft], (row.versionNo = 1 ↔ row.parentPlanId = none) ∧
        ∀ parentId, row.parentPlanId = some parentId →
          ∃ parent ∈ approvedTable ++ [otherDraft], parent.id = parentId ∧
            parent.businessDate = row.businessDate ∧ parent.planGroupId = row.planGroupId ∧
            parent.versionNo < row.versionNo) ∧
      ∀ a b, Confirmable ⟨approvedTable ++ [otherDraft], []⟩ a →
        Confirmable ⟨approvedTable ++ [otherDraft], []⟩ b →
          a.businessDate = b.businessDate → a = b :=
  plan_versioning (firstDraft_generated.run.trans
    (secondDraft_replaces.trans (thirdVersion_created.trans thirdVersion_approved)))

end PenroseRoute.Planning
