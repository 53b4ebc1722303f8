import PenroseRoute.Operations.Alerts
import PenroseRoute.Lib.Keyed
import Mathlib.Data.List.Chain

/-!
# The history of alerts

What every write of `AlertService` keeps: one active alert for each plan and order, a log for
each alert that tells its reasons, and recorded times that do not go back on a business date.
-/

namespace PenroseRoute.Operations.AlertService

open PenroseRoute.Db PenroseRoute.Lib AlertRepository

/-! ### Logs -/

/-- The log of an alert that is not resolved: `CREATED`, then `UPDATED` entries, each with another
reason than the one before. -/
def OpenLog (log : List RiskAlertChange) : Prop :=
  (∃ first updates, log = first :: updates ∧ first.changeType = .created ∧
    ∀ change ∈ updates, change.changeType = .updated) ∧
  log.IsChain fun a b ↦ a.evidenceSnapshot.reasonCategory ≠ b.evidenceSnapshot.reasonCategory

/-- The log tells the stored reason of the alert, and ends with `RESOLVED` if it is resolved. -/
def History (alert : RiskAlert) (log : List RiskAlertChange) : Prop :=
  log.getLast?.map (·.evidenceSnapshot.reasonCategory) = some alert.evidence.reasonCategory ∧
    match alert.status with
    | .active => OpenLog log
    | .resolved => ∃ body last, log = body ++ [last] ∧ OpenLog body ∧ last.changeType = .resolved

/-- The row that `_append` adds for an alert. -/
def changeRow (alert : RiskAlert) (kind : AlertChangeType) (now : Instant) (cursor : Nat) :
    RiskAlertChange := ⟨cursor, alert.id, kind, now, alert.evidence⟩

variable {alert alert' : RiskAlert} {log : List RiskAlertChange} {now : Instant} {cursor : Nat}

/-- A new alert begins its log. -/
theorem History.created (h : alert.status = .active) :
    History alert [changeRow alert .created now cursor] := by
  refine ⟨rfl, ?_⟩
  rw [h]
  refine ⟨⟨_, [], rfl, rfl, fun _ hc ↦ ?_⟩, .singleton _⟩
  cases hc

/-- An alert that keeps its reason keeps its log. -/
theorem History.kept (h : History alert log) (hstatus : alert'.status = alert.status)
    (hreason : alert'.evidence.reasonCategory = alert.evidence.reasonCategory) :
    History alert' log := by
  unfold History at h ⊢
  rw [hstatus, hreason]
  exact h

/-- A new reason is logged. -/
theorem History.updated (h : History alert log) (hactive : alert.status = .active)
    (hactive' : alert'.status = .active)
    (hreason : alert.evidence.reasonCategory ≠ alert'.evidence.reasonCategory) :
    History alert' (log ++ [changeRow alert' .updated now cursor]) := by
  obtain ⟨hlast, hopen⟩ := h
  rw [hactive] at hopen
  obtain ⟨⟨first, updates, rfl, hfirst, hupdates⟩, hchain⟩ := hopen
  refine ⟨by rw [List.getLast?_concat]; rfl, ?_⟩
  rw [hactive']
  refine ⟨⟨first, updates ++ [changeRow alert' .updated now cursor], rfl, hfirst, ?_⟩, ?_⟩
  · intro change hc
    cases List.mem_append.mp hc with
    | inl hc => exact hupdates change hc
    | inr hc =>
      rw [List.mem_singleton.mp hc]
      rfl
  · refine hchain.append (.singleton _) fun last hl row hrow ↦ ?_
    rw [Option.mem_def] at hl
    rw [hl, Option.map_some, Option.some.injEq] at hlast
    rw [Option.mem_def, List.head?_cons, Option.some.injEq] at hrow
    rw [hlast, ← hrow]
    exact hreason

/-- A resolved alert ends its log. -/
theorem History.resolved (h : History alert log) (hactive : alert.status = .active)
    (hresolved : alert'.status = .resolved) :
    History alert' (log ++ [changeRow alert' .resolved now cursor]) := by
  obtain ⟨-, hopen⟩ := h
  rw [hactive] at hopen
  refine ⟨by rw [List.getLast?_concat]; rfl, ?_⟩
  rw [hresolved]
  exact ⟨log, _, rfl, hopen, rfl⟩

/-! ### The tables -/

/-- The changes of one alert. -/
def logOf (tables : AlertTables) (alertId : UUID) : List RiskAlertChange :=
  tables.changes.filter (·.alertId == alertId)

/-- What holds of the tables after every evaluation. -/
structure Sound (tables : AlertTables) : Prop where
  ids : (tables.alerts.map (·.id)).Nodup
  fresh : ∀ alert ∈ tables.alerts, alert.id < tables.nextId
  active : ∀ a ∈ tables.alerts, ∀ b ∈ tables.alerts, a.status = .active → b.status = .active →
    key a = key b → a = b
  times : ∀ alert ∈ tables.alerts, alert.timesHold = true
  sorted : tables.changes.Pairwise fun a b ↦ a.changeId < b.changeId
  bounded : ∀ change ∈ tables.changes, change.changeId ≤ tables.sequence
  logged : ∀ change ∈ tables.changes, ∃ alert ∈ tables.alerts, alert.id = change.alertId ∧
    change.recordedAt ≤ alert.lastEvaluatedAt
  history : ∀ alert ∈ tables.alerts, History alert (logOf tables alert.id)
  chronology : tables.changes.Pairwise fun c c' ↦ ∀ a ∈ tables.alerts, ∀ a' ∈ tables.alerts,
    a.id = c.alertId → a'.id = c'.alertId → a.businessDate = a'.businessDate →
      c.recordedAt ≤ c'.recordedAt

/-- No alert of the date was evaluated later. -/
def Clock (businessDate : BusinessDate) (now : Instant) (tables : AlertTables) : Prop :=
  ∀ alert ∈ tables.alerts, alert.businessDate = businessDate → alert.lastEvaluatedAt ≤ now

variable {tables tables' : AlertTables} {businessDate : BusinessDate}

/-- The tables before the first alert. -/
theorem Sound.empty : Sound ⟨[], [], 0, 0⟩ := by
  constructor <;> simp

/-- By change id, the log of an alert is in the order of the table. -/
theorem Sound.listChangesForAlert (h : Sound tables) (alertId : UUID) :
    listChangesForAlert tables alertId = logOf tables alertId := by
  rw [AlertRepository.listChangesForAlert, logOf, List.Pairwise.insertionSort_eq]
  exact (h.sorted.filter _).imp le_of_lt

/-- `_append` fails only when the sequence is at its end. -/
theorem append_eq_ok {kind : AlertChangeType} :
    append tables alert kind now = .ok tables' ↔ tables.sequence < ChangeFeed.maxBigint ∧
      tables' = { tables with
        changes := tables.changes ++ [changeRow alert kind now (tables.sequence + 1)]
        sequence := tables.sequence + 1 } := by
  unfold append appendChange
  simp only [ChangeFeed.accepts, Option.isNone_none, Bool.and_self, Bool.not_true,
    Bool.false_eq_true, if_false]
  split
  · next hlt => simp [hlt, NewAlertChange.row, changeRow, eq_comm]
  · next hlt => simp [hlt]

/-- The rows after an alert is saved: the alert, and the others as they were. -/
theorem mem_saveAlert (hmem : ∃ row ∈ tables.alerts, row.id = alert'.id) {row : RiskAlert} :
    row ∈ (saveAlert tables alert').alerts ↔
      row = alert' ∨ row ∈ tables.alerts ∧ row.id ≠ alert'.id := by
  rw [saveAlert, mem_updateWhere]
  constructor
  · rintro ⟨old, hold, ⟨-, hrow⟩ | ⟨hne, rfl⟩⟩
    · exact .inl hrow
    · exact .inr ⟨hold, by simpa using hne⟩
  · rintro (rfl | ⟨hrow, hne⟩)
    · obtain ⟨old, hold, hid⟩ := hmem
      exact ⟨old, hold, .inl ⟨by simpa using hid, rfl⟩⟩
    · exact ⟨row, hrow, .inr ⟨by simpa using hne, rfl⟩⟩

/-- The changes that a write of one alert at a time adds. -/
structure NewRows (tables : AlertTables) (alertId : UUID) (now : Instant)
    (rows : List RiskAlertChange) (sequence : Nat) : Prop where
  grows : tables.sequence ≤ sequence
  alertId : ∀ row ∈ rows, row.alertId = alertId
  recordedAt : ∀ row ∈ rows, row.recordedAt = now
  sorted : rows.Pairwise fun a b ↦ a.changeId < b.changeId
  bounded : ∀ row ∈ rows, tables.sequence < row.changeId ∧ row.changeId ≤ sequence

/-- No row is new. -/
theorem NewRows.nil {alertId : UUID} : NewRows tables alertId now [] tables.sequence := by
  constructor <;> simp

/-- One change is one new row. -/
theorem NewRows.single {kind : AlertChangeType} :
    NewRows tables alert.id now [changeRow alert kind now (tables.sequence + 1)]
      (tables.sequence + 1) := by
  constructor <;> simp [changeRow]

/-- The alerts that a write leaves, seen from those before it: the alert that is written, and the
others. -/
structure Written (tables : AlertTables) (businessDate : BusinessDate) (now : Instant)
    (alert : RiskAlert) (alerts : List RiskAlert) : Prop where
  mem : ∀ row, row ∈ alerts ↔ row = alert ∨ row ∈ tables.alerts ∧ row.id ≠ alert.id
  known : ∀ row ∈ tables.alerts, row.id = alert.id → row.businessDate = businessDate
  date : alert.businessDate = businessDate
  now : alert.lastEvaluatedAt = now
  times : alert.timesHold = true
  alone : alert.status = .active → ∀ row ∈ tables.alerts, row.status = .active →
    key row = key alert → row.id = alert.id

/-- A write of one alert with its log keeps the tables sound. -/
theorem Sound.write (h : Sound tables) (hclock : Clock businessDate now tables)
    {alerts : List RiskAlert} (hw : Written tables businessDate now alert alerts)
    (hids : (alerts.map (·.id)).Nodup) {nextId : UUID} (hnext : tables.nextId ≤ nextId)
    (hfresh : alert.id < nextId) {rows : List RiskAlertChange} {sequence : Nat}
    (hrows : NewRows tables alert.id now rows sequence)
    (hhistory : History alert (logOf tables alert.id ++ rows)) :
    Sound ⟨alerts, tables.changes ++ rows, nextId, sequence⟩ ∧
      Clock businessDate now ⟨alerts, tables.changes ++ rows, nextId, sequence⟩ := by
  have hself : alert ∈ alerts := (hw.mem alert).mpr (.inl rfl)
  have hrecorded : ∀ change ∈ tables.changes, change.alertId = alert.id →
      change.recordedAt ≤ now := by
    intro change hchange hid
    obtain ⟨old, hold, hoid, hle⟩ := h.logged change hchange
    exact hle.trans (hclock old hold (hw.known old hold (hoid.trans hid)))
  -- A row after the write stands for one before it, unless it is new.
  have hold : ∀ row ∈ alerts, ∀ change ∈ tables.changes, row.id = change.alertId →
      ∃ old ∈ tables.alerts, old.id = change.alertId ∧ old.businessDate = row.businessDate := by
    intro row hrow change hchange hid
    cases (hw.mem row).mp hrow with
    | inr hother => exact ⟨row, hother.1, hid, rfl⟩
    | inl hsame =>
      obtain ⟨old, ho, hoid, -⟩ := h.logged change hchange
      refine ⟨old, ho, hoid, ?_⟩
      rw [hsame, hw.date]
      exact hw.known old ho (hoid.trans (hid.symm.trans (by rw [hsame])))
  constructor
  · refine ⟨hids, fun row hrow ↦ ?_, ?_, fun row hrow ↦ ?_, ?_, ?_, ?_, fun row hrow ↦ ?_, ?_⟩
    · cases (hw.mem row).mp hrow with
      | inl hsame => exact hsame ▸ hfresh
      | inr hother => exact Nat.lt_of_lt_of_le (h.fresh row hother.1) hnext
    · intro a ha b hb hactive hactive' hkey
      cases (hw.mem a).mp ha with
      | inl ha =>
        cases (hw.mem b).mp hb with
        | inl hb => rw [ha, hb]
        | inr hb =>
          subst ha
          exact absurd (hw.alone hactive b hb.1 hactive' hkey.symm) hb.2
      | inr ha =>
        cases (hw.mem b).mp hb with
        | inl hb =>
          subst hb
          exact absurd (hw.alone hactive' a ha.1 hactive hkey) ha.2
        | inr hb => exact h.active a ha.1 b hb.1 hactive hactive' hkey
    · cases (hw.mem row).mp hrow with
      | inl hsame => exact hsame ▸ hw.times
      | inr hother => exact h.times row hother.1
    · refine List.pairwise_append.mpr ⟨h.sorted, hrows.sorted, fun a ha b hb ↦ ?_⟩
      exact Nat.lt_of_le_of_lt (h.bounded a ha) (hrows.bounded b hb).1
    · intro change hchange
      cases List.mem_append.mp hchange with
      | inl hchange => exact (h.bounded change hchange).trans hrows.grows
      | inr hchange => exact (hrows.bounded change hchange).2
    · intro change hchange
      cases List.mem_append.mp hchange with
      | inl hchange =>
        obtain ⟨old, ho, hoid, hle⟩ := h.logged change hchange
        by_cases hid : old.id = alert.id
        · refine ⟨alert, hself, hid.symm.trans hoid, ?_⟩
          rw [hw.now]
          exact hrecorded change hchange (hoid.symm.trans hid)
        · exact ⟨old, (hw.mem old).mpr (.inr ⟨ho, hid⟩), hoid, hle⟩
      | inr hchange =>
        refine ⟨alert, hself, (hrows.alertId change hchange).symm, ?_⟩
        rw [hw.now, hrows.recordedAt change hchange]
    · show History row ((tables.changes ++ rows).filter (·.alertId == row.id))
      rw [List.filter_append]
      cases (hw.mem row).mp hrow with
      | inl hsame =>
        have hall : rows.filter (·.alertId == row.id) = rows :=
          List.filter_eq_self.mpr fun r hr ↦ by rw [hsame]; simpa using hrows.alertId r hr
        rw [hall, hsame]
        exact hhistory
      | inr hother =>
        have hnone : rows.filter (·.alertId == row.id) = [] :=
          List.filter_eq_nil_iff.mpr fun r hr ↦ by
            rw [hrows.alertId r hr]
            simpa using Ne.symm hother.2
        rw [hnone, List.append_nil]
        exact h.history row hother.1
    · refine List.pairwise_append.mpr ⟨?_, ?_, ?_⟩
      · refine h.chronology.imp_of_mem fun {c c'} hc hc' hle a ha a' ha' hid hid' hdate ↦ ?_
        obtain ⟨old, ho, hoid, hodate⟩ := hold a ha c hc hid
        obtain ⟨old', ho', hoid', hodate'⟩ := hold a' ha' c' hc' hid'
        exact hle old ho old' ho' hoid hoid' (hodate.trans (hdate.trans hodate'.symm))
      · refine List.Pairwise.imp_of_mem ?_ hrows.sorted
        intro c c' hc hc' _ _ _ _ _ _ _ _
        rw [hrows.recordedAt c hc, hrows.recordedAt c' hc']
      · intro c hc c' hc' a ha a' ha' hid hid' hdate
        rw [hrows.recordedAt c' hc']
        obtain ⟨old, ho, hoid, hle⟩ := h.logged c hc
        obtain ⟨old', ho', hoid', hodate'⟩ := hold a ha c hc hid
        have hsame : old = old' := eq_of_key_eq h.ids ho ho' (hoid.trans hoid'.symm)
        have hnew : a' = alert := by
          refine eq_of_key_eq hids ha' hself ?_
          exact hid'.trans (hrows.alertId c' hc')
        refine hle.trans (hclock old ho ?_)
        rw [hsame, hodate', hdate, hnew, hw.date]
  · intro row hrow hdate
    cases (hw.mem row).mp hrow with
    | inl hsame => rw [hsame, hw.now]
    | inr hother => exact hclock row hother.1 hdate

/-! ### The writes -/

/-- The tables after a write of one alert. -/
structure Wrote (businessDate : BusinessDate) (now : Instant) (alert : RiskAlert)
    (tables tables' : AlertTables) : Prop where
  sound : Sound tables'
  clock : Clock businessDate now tables'
  mem : ∀ row, row ∈ tables'.alerts ↔ row = alert ∨ row ∈ tables.alerts ∧ row.id ≠ alert.id
  same : ∀ row ∈ tables.alerts, row.id = alert.id → key row = key alert

/-- The alerts of other plans or orders stay. -/
theorem Wrote.others (h : Wrote businessDate now alert tables tables') {row : RiskAlert}
    (hrow : row ∈ tables.alerts) (hkey : key row ≠ key alert) : row ∈ tables'.alerts :=
  (h.mem row).mpr (.inr ⟨hrow, fun hid ↦ hkey (h.same row hrow hid)⟩)

/-- The times of an active alert. -/
theorem timesHold_active (h : alert.timesHold = true) (hactive : alert.status = .active) :
    alert.detectedAt ≤ alert.lastEvaluatedAt ∧ alert.resolvedAt = none := by
  unfold RiskAlert.timesHold at h
  rw [Bool.and_eq_true, decide_eq_true_eq] at h
  refine ⟨h.1, ?_⟩
  cases hr : alert.resolvedAt with
  | none => rfl
  | some resolvedAt =>
    have hresolved := h.2
    rw [hr, hactive] at hresolved
    simp at hresolved

/-- A new alert, with its first change. -/
theorem raiseAlert_wrote {planId orderId : UUID} {evidence : AlertEvidence} (h : Sound tables)
    (hclock : Clock businessDate now tables)
    (hok : raiseAlert businessDate now planId orderId evidence tables = .ok tables') :
    ∃ alert : RiskAlert, Wrote businessDate now alert tables tables' ∧
      alert.status = .active ∧ alert.businessDate = businessDate ∧
      key alert = (planId, orderId) ∧ alert.evidence = evidence ∧ alert.lastEvaluatedAt = now := by
  unfold raiseAlert at hok
  dsimp only at hok
  split at hok
  · cases hok
  next hfree =>
    rw [append_eq_ok] at hok
    obtain ⟨-, rfl⟩ := hok
    have hnew : ∀ row ∈ tables.alerts, row.id ≠ tables.nextId := fun row hrow ↦
      Nat.ne_of_lt (h.fresh row hrow)
    let alert : RiskAlert := ⟨tables.nextId, planId, orderId, businessDate, .active, evidence, now,
      now, none⟩
    have hrows : ∀ row, row ∈ tables.alerts ++ [alert] ↔
        row = alert ∨ row ∈ tables.alerts ∧ row.id ≠ alert.id := by
      intro row
      rw [List.mem_append, List.mem_singleton, or_comm]
      refine or_congr_right ⟨fun hrow ↦ ⟨hrow, hnew row hrow⟩, And.left⟩
    have hempty : logOf tables tables.nextId = [] := by
      rw [logOf, List.filter_eq_nil_iff]
      intro change hchange hid
      obtain ⟨old, ho, hoid, -⟩ := h.logged change hchange
      exact hnew old ho (hoid.trans (by simpa using hid))
    have hwritten : Written tables businessDate now alert (tables.alerts ++ [alert]) := by
      refine ⟨hrows, fun row hrow hid ↦ absurd hid (hnew row hrow), rfl, rfl, ?_, ?_⟩
      · simp [alert, RiskAlert.timesHold]
      · intro _ row hrow hactive hkey
        refine absurd ?_ hfree
        unfold activeTaken
        rw [List.any_eq_true]
        refine ⟨row, hrow, ?_⟩
        simp only [key, Prod.mk.injEq] at hkey
        simp [hactive, hkey, alert]
    have hids : ((tables.alerts ++ [alert]).map (·.id)).Nodup := by
      rw [List.map_append, List.nodup_append]
      refine ⟨h.ids, List.nodup_singleton _, ?_⟩
      intro id hid id' hid'
      obtain ⟨row, hrow, rfl⟩ := List.mem_map.mp hid
      rw [List.map_singleton, List.mem_singleton] at hid'
      rw [hid']
      exact hnew row hrow
    have hhistory : History alert (logOf tables alert.id ++
        [changeRow alert .created now (tables.sequence + 1)]) := by
      rw [show logOf tables alert.id = [] from hempty]
      exact .created rfl
    obtain ⟨hsound, hclock'⟩ := h.write hclock hwritten hids (Nat.le_succ _) (Nat.lt_succ_self _)
      .single hhistory
    exact ⟨alert, ⟨hsound, hclock', hrows, fun row hrow hid ↦ absurd hid (hnew row hrow)⟩, rfl,
      rfl, rfl, rfl, rfl⟩

/-- An active alert of the date in its new form. -/
theorem Written.save (h : Sound tables) (hmem : alert ∈ tables.alerts)
    (hactive : alert.status = .active) (hdate : alert.businessDate = businessDate)
    (hid : alert'.id = alert.id) (hkey : key alert' = key alert)
    (hdate' : alert'.businessDate = alert.businessDate) (hnow : alert'.lastEvaluatedAt = now)
    (htimes : alert'.timesHold = true) :
    Written tables businessDate now alert' (saveAlert tables alert').alerts ∧
      ((saveAlert tables alert').alerts.map (·.id)).Nodup := by
  constructor
  · refine ⟨fun row ↦ mem_saveAlert ⟨alert, hmem, hid.symm⟩, fun row hrow hrid ↦ ?_,
      hdate'.trans hdate, hnow, htimes, fun _ row hrow hractive hrkey ↦ ?_⟩
    · rw [eq_of_key_eq h.ids hrow hmem (hrid.trans hid), hdate]
    · rw [hid, h.active row hrow alert hmem hractive hactive (hrkey.trans hkey)]
  · have hsame : (saveAlert tables alert').alerts.map (·.id) = tables.alerts.map (·.id) := by
      rw [saveAlert, updateWhere, List.map_map]
      refine List.map_congr_left fun row _ ↦ ?_
      rw [Function.comp_apply]
      split
      · next hrow => exact (beq_iff_eq.mp hrow).symm
      · rfl
    rw [hsame]
    exact h.ids

/-- A delivery that is still at risk, with a change if the reason is new. -/
theorem refreshAlert_wrote {evidence : AlertEvidence} (h : Sound tables)
    (hclock : Clock businessDate now tables) (hmem : alert ∈ tables.alerts)
    (hactive : alert.status = .active) (hdate : alert.businessDate = businessDate)
    (hok : refreshAlert now evidence alert tables = .ok tables') :
    Wrote businessDate now { alert with evidence := evidence, lastEvaluatedAt := now }
      tables tables' := by
  have htimes := timesHold_active (h.times alert hmem) hactive
  have hdetected := htimes.1.trans (hclock alert hmem hdate)
  obtain ⟨hwritten, hids⟩ := @Written.save alert
    { alert with evidence := evidence, lastEvaluatedAt := now } now tables businessDate h hmem
    hactive hdate rfl rfl rfl rfl (by simp [RiskAlert.timesHold, hdetected, htimes.2, hactive])
  have hhistory := h.history alert hmem
  have hfresh := h.fresh alert hmem
  have hsamekey : ∀ row ∈ tables.alerts, row.id = alert.id → key row = key alert :=
    fun row hrow hid ↦ by rw [eq_of_key_eq h.ids hrow hmem hid]
  unfold refreshAlert at hok
  dsimp only at hok
  split at hok
  · next hreason =>
    rw [append_eq_ok] at hok
    obtain ⟨-, rfl⟩ := hok
    have hnew : History { alert with evidence := evidence, lastEvaluatedAt := now }
        (logOf tables alert.id ++ [changeRow { alert with
          evidence := evidence, lastEvaluatedAt := now } .updated now (tables.sequence + 1)]) :=
      hhistory.updated hactive hactive (by simpa using hreason)
    obtain ⟨hsound, hclock'⟩ := h.write hclock hwritten hids (Nat.le_refl _) hfresh .single hnew
    exact ⟨hsound, hclock', hwritten.mem, hsamekey⟩
  · next hreason =>
    cases hok
    have hsame : alert.evidence.reasonCategory = evidence.reasonCategory := by
      simpa using hreason
    have hkept : History { alert with evidence := evidence, lastEvaluatedAt := now }
        (logOf tables alert.id ++ []) := by
      rw [List.append_nil]
      exact hhistory.kept rfl hsame.symm
    obtain ⟨hsound, hclock'⟩ := h.write hclock hwritten hids (Nat.le_refl _) hfresh .nil hkept
    rw [List.append_nil] at hsound hclock'
    exact ⟨hsound, hclock', hwritten.mem, hsamekey⟩

/-- The alert that `clear` saves. -/
def resolve (now : Instant) (reason : ReasonCategory) (alert : RiskAlert) : RiskAlert :=
  { alert with
    status := .resolved
    resolvedAt := some now
    lastEvaluatedAt := now
    evidence := { alert.evidence with reasonCategory := reason } }

/-- An alert whose risk is over, with its last change. -/
theorem resolve_wrote {reason : ReasonCategory} (h : Sound tables)
    (hclock : Clock businessDate now tables) (hmem : alert ∈ tables.alerts)
    (hactive : alert.status = .active) (hdate : alert.businessDate = businessDate)
    (hok : append (saveAlert tables (resolve now reason alert)) (resolve now reason alert)
      .resolved now = .ok tables') :
    Wrote businessDate now (resolve now reason alert) tables tables' := by
  have hdetected := (timesHold_active (h.times alert hmem) hactive).1.trans
    (hclock alert hmem hdate)
  obtain ⟨hwritten, hids⟩ := @Written.save alert (resolve now reason alert) now tables businessDate
    h hmem hactive hdate rfl rfl rfl rfl (by simp [RiskAlert.timesHold, resolve, hdetected])
  rw [append_eq_ok] at hok
  obtain ⟨-, rfl⟩ := hok
  have hlog : History (resolve now reason alert) (logOf tables alert.id ++
      [changeRow (resolve now reason alert) .resolved now (tables.sequence + 1)]) :=
    (h.history alert hmem).resolved hactive rfl
  obtain ⟨hsound, hclock'⟩ := h.write hclock hwritten hids (Nat.le_refl _) (h.fresh alert hmem)
    .single hlog
  refine ⟨hsound, hclock', hwritten.mem, fun row hrow hid ↦ ?_⟩
  rw [eq_of_key_eq h.ids hrow hmem hid]
  rfl

end PenroseRoute.Operations.AlertService
