import PenroseRoute.Lib.Keyed
import PenroseRoute.Migrations.Runner

/-!
# The history replays

Whatever was run before, a run that succeeds leaves the database that the same directory gives on
a fresh database: each script is executed once, in the order of the versions.
-/

namespace PenroseRoute.Migrations

open PenroseRoute.Lib

variable {Script Schema Checksum : Type} {env : Environment Script Schema Checksum}

/-- The schema after scripts, one after the other. -/
def replay (env : Environment Script Schema Checksum)
    (scripts : List (MigrationScript Script Checksum)) (schema : Schema) : Except String Schema :=
  scripts.foldlM (fun schema script ↦ env.execute script.content schema) schema

/-- The scripts that an upgrade still has to apply. -/
def missing (applied : List (List Char × Checksum))
    (scripts : List (MigrationScript Script Checksum)) : List (MigrationScript Script Checksum) :=
  scripts.filter fun script ↦ (lastWrite applied script.version).isNone

/-- Scripts as `_scripts` gives them: in the order of their numbers, with their checksums, from
contents of some kind. -/
structure Sorted (env : Environment Script Schema Checksum) (known : Script → Prop)
    (scripts : List (MigrationScript Script Checksum)) : Prop where
  ascending : scripts.Pairwise fun a b ↦ a.number < b.number
  checksums : ∀ script ∈ scripts, script.checksum = env.sha256 script.content
  known : ∀ script ∈ scripts, known script.content

/-- A database that has applied exactly some scripts to a schema, in their order. -/
structure Recorded (env : Environment Script Schema Checksum) (known : Script → Prop)
    (initial : Schema) (scripts : List (MigrationScript Script Checksum))
    (db : Upgraded Schema Checksum) : Prop where
  sorted : Sorted env known scripts
  history : db.history = scripts.map (·.row)
  replays : replay env scripts initial = .ok db.schema
  short : ∀ script ∈ scripts, script.version.length ≤ versionLimit

namespace Sorted

variable {known : Script → Prop} {scripts : List (MigrationScript Script Checksum)}

/-- No two scripts have one version. -/
theorem versions (h : Sorted env known scripts) :
    ((scripts.map (·.row)).map (·.1)).Nodup := by
  rw [List.map_map]
  refine List.Pairwise.map _ (fun a b hab he ↦ ?_) h.ascending
  exact Nat.ne_of_lt hab (versionText_injective he)

/-- The checksum that a version was recorded with. -/
theorem lastWrite_iff [DecidableEq Checksum] (h : Sorted env known scripts) (number : Nat)
    (checksum : Checksum) :
    lastWrite (scripts.map (·.row)) (versionText number) = some checksum ↔
      ∃ script ∈ scripts, script.number = number ∧ script.checksum = checksum := by
  rw [lastWrite_eq_some_iff h.versions, List.mem_map]
  constructor
  · rintro ⟨script, hs, he⟩
    exact ⟨script, hs, versionText_injective (congrArg Prod.fst he), congrArg Prod.snd he⟩
  · rintro ⟨script, hs, rfl, rfl⟩
    exact ⟨script, hs, rfl⟩

end Sorted

/-! ### Reading the directory -/

/-- `_scripts` gives sorted scripts of its files. -/
theorem readScripts_sorted {directory : List (MigrationFile Script)}
    {scripts : List (MigrationScript Script Checksum)}
    (h : readScripts env directory = .ok scripts) :
    Sorted env (fun content ↦ ∃ file ∈ directory, file.content = content) scripts := by
  obtain ⟨found, hfound, h⟩ := bind_eq_ok.mp h
  cases h
  have hloop : (found.map (·.number)).Nodup ∧
      (∀ script ∈ found, script.checksum = env.sha256 script.content) ∧
      ∀ script ∈ found, ∃ file ∈ directory, file.content = script.content := by
    refine foldlM_invariant (I := fun found ↦ (found.map (·.number)).Nodup ∧
      (∀ script ∈ found, script.checksum = env.sha256 script.content) ∧
      ∀ script ∈ found, ∃ file ∈ directory, file.content = script.content) ?_
      ⟨List.nodup_nil, fun _ h ↦ (by cases h), fun _ h ↦ (by cases h)⟩ hfound
    rintro before file hfile after ⟨hnodup, hsum, hknown⟩ hadd
    rw [addScript] at hadd
    split at hadd
    · cases hadd
    · next number _ =>
      split at hadd
      · cases hadd
      · next hnew =>
        cases hadd
        rw [Bool.not_eq_true, List.any_eq_false] at hnew
        refine ⟨?_, ?_, ?_⟩
        · rw [List.map_append, List.nodup_append]
          refine ⟨hnodup, List.nodup_singleton _, ?_⟩
          intro a ha b hb he
          obtain ⟨script, hs, rfl⟩ := List.mem_map.mp ha
          rw [List.map_singleton, List.mem_singleton] at hb
          exact hnew script hs (beq_iff_eq.mpr (he.trans hb))
        · intro script hs
          rcases List.mem_append.mp hs with hs | hs
          · exact hsum script hs
          · rw [List.mem_singleton.mp hs]
        · intro script hs
          rcases List.mem_append.mp hs with hs | hs
          · exact hknown script hs
          · rw [List.mem_singleton.mp hs]
            exact ⟨file, (List.mem_filter.mp hfile).1, rfl⟩
  obtain ⟨hnodup, hsum, hknown⟩ := hloop
  refine ⟨?_, ?_, ?_⟩
  · have hle := List.pairwise_insertionSort (fun a b : MigrationScript Script Checksum ↦
      a.number ≤ b.number) found
    have hne : ((found.insertionSort fun a b ↦ a.number ≤ b.number).map (·.number)).Nodup :=
      ((List.perm_insertionSort _ found).map _).nodup_iff.mpr hnodup
    exact (hle.and (List.pairwise_map.mp hne)).imp fun hab ↦ Nat.lt_of_le_of_ne hab.1 hab.2
  · exact fun script hs ↦ hsum script ((List.mem_insertionSort _).mp hs)
  · exact fun script hs ↦ hknown script ((List.mem_insertionSort _).mp hs)

/-! ### The transaction -/

/-- The highest recorded version is above every recorded one. -/
theorem highestApplied_rows (scripts : List (MigrationScript Script Checksum)) :
    ∃ highest, highestApplied (scripts.map (·.row)) = .ok highest ∧
      (∀ script ∈ scripts, script.number ≤ highest) ∧
      ∀ number, (∀ script ∈ scripts, script.number ≤ number) → highest ≤ number := by
  have hfold : ∀ start, ∃ highest, (scripts.map (·.row)).foldlM maxVersion start = .ok highest ∧
      start ≤ highest ∧ (∀ script ∈ scripts, script.number ≤ highest) ∧
      ∀ number, start ≤ number → (∀ script ∈ scripts, script.number ≤ number) →
        highest ≤ number := by
    induction scripts with
    | nil =>
      exact fun start ↦ ⟨start, rfl, Nat.le_refl _, fun _ h ↦ (by cases h), fun _ h _ ↦ h⟩
    | cons script scripts ih =>
      intro start
      obtain ⟨highest, hh, hstart, hall, hleast⟩ := ih (max start script.number)
      refine ⟨highest, ?_, by omega, ?_, ?_⟩
      · have hread : int? script.row.1.tail = some script.number := int?_paddedDigits script.number
        rw [List.map_cons, List.foldlM_cons, maxVersion, hread]
        exact hh
      · intro other ho
        rcases List.mem_cons.mp ho with rfl | ho
        · omega
        · exact hall other ho
      · intro number hs hn
        refine hleast number ?_ fun other ho ↦ hn other (List.mem_cons_of_mem _ ho)
        exact Nat.max_le.mpr ⟨hs, hn script List.mem_cons_self⟩
  obtain ⟨highest, hh, -, hall, hleast⟩ := hfold 0
  exact ⟨highest, hh, hall, fun number hn ↦ hleast number (Nat.zero_le _) hn⟩

section
variable [DecidableEq Checksum]

/-- What the loop over the scripts checks and does. -/
structure Applies (env : Environment Script Schema Checksum)
    (applied : List (List Char × Checksum)) (highest : Nat)
    (scripts : List (MigrationScript Script Checksum))
    (state state' : List (List Char) × Upgraded Schema Checksum) : Prop where
  unchanged : ∀ script ∈ scripts, ∀ checksum,
    lastWrite applied script.version = some checksum → checksum = script.checksum
  inOrder : ∀ script ∈ missing applied scripts, highest ≤ script.number
  short : ∀ script ∈ missing applied scripts, script.version.length ≤ versionLimit
  replays : replay env (missing applied scripts) state.2.schema = .ok state'.2.schema
  names : state'.1 = state.1 ++ (missing applied scripts).map (·.version)
  history : state'.2.history = state.2.history ++ (missing applied scripts).map (·.row)

private theorem applyScript_recorded {applied : List (List Char × Checksum)} {highest : Nat}
    {state : List (List Char) × Upgraded Schema Checksum}
    {script : MigrationScript Script Checksum} {checksum : Checksum}
    (h : lastWrite applied script.version = some checksum) :
    applyScript env applied highest state script =
      if checksum ≠ script.checksum then .error (.checksumChanged script.version)
      else .ok state := by
  simp only [applyScript, h]

private theorem applyScript_missing {applied : List (List Char × Checksum)} {highest : Nat}
    {state : List (List Char) × Upgraded Schema Checksum}
    {script : MigrationScript Script Checksum} {schema : Schema}
    (h : lastWrite applied script.version = none) (horder : ¬ script.number < highest)
    (hrun : env.execute script.content state.2.schema = .ok schema)
    (hshort : ¬ versionLimit < script.version.length) :
    applyScript env applied highest state script =
      .ok (state.1 ++ [script.version], ⟨schema, state.2.history ++ [script.row]⟩) := by
  simp only [applyScript, h, if_neg horder, hrun, if_neg hshort]

private theorem applyScript_missing_ok {applied : List (List Char × Checksum)} {highest : Nat}
    {state state' : List (List Char) × Upgraded Schema Checksum}
    {script : MigrationScript Script Checksum}
    (h : lastWrite applied script.version = none)
    (hok : applyScript env applied highest state script = .ok state') :
    ¬ script.number < highest ∧ ¬ versionLimit < script.version.length ∧
      ∃ schema, env.execute script.content state.2.schema = .ok schema := by
  simp only [applyScript, h] at hok
  split at hok
  · cases hok
  · next horder =>
    split at hok
    · cases hok
    · next schema hrun =>
      split at hok
      · cases hok
      · next hshort => exact ⟨horder, hshort, schema, hrun⟩

/-- The loop succeeds exactly on such scripts. -/
theorem foldlM_applyScript_iff {applied : List (List Char × Checksum)} {highest : Nat}
    {scripts : List (MigrationScript Script Checksum)}
    {state state' : List (List Char) × Upgraded Schema Checksum} :
    scripts.foldlM (applyScript env applied highest) state = .ok state' ↔
      Applies env applied highest scripts state state' := by
  induction scripts generalizing state with
  | nil =>
    constructor
    · intro h
      cases h
      exact ⟨fun _ h ↦ (by cases h), fun _ h ↦ (by cases h), fun _ h ↦ (by cases h), rfl,
        (List.append_nil _).symm, (List.append_nil _).symm⟩
    · intro h
      have hschema : state.2.schema = state'.2.schema := Except.ok.inj h.replays
      have hnames : state'.1 = state.1 := h.names.trans (List.append_nil _)
      have hhistory : state'.2.history = state.2.history := h.history.trans (List.append_nil _)
      obtain ⟨names, schema, history⟩ := state
      obtain ⟨names', schema', history'⟩ := state'
      cases hschema
      cases hnames
      cases hhistory
      rfl
  | cons script scripts ih =>
    rw [List.foldlM_cons]
    cases hlast : lastWrite applied script.version with
    | some checksum =>
      have hmissing : missing applied (script :: scripts) = missing applied scripts := by
        refine List.filter_cons_of_neg ?_
        rw [hlast]
        exact Bool.false_ne_true
      rw [applyScript_recorded hlast]
      by_cases hsum : checksum = script.checksum
      · rw [if_neg (not_not.mpr hsum)]
        constructor
        · intro h
          have happlies := ih.mp h
          refine ⟨?_, hmissing ▸ happlies.inOrder, hmissing ▸ happlies.short,
            hmissing ▸ happlies.replays, hmissing ▸ happlies.names, hmissing ▸ happlies.history⟩
          intro other ho found hf
          rcases List.mem_cons.mp ho with rfl | ho
          · rw [hlast, Option.some.injEq] at hf
            rw [← hf, hsum]
          · exact happlies.unchanged other ho found hf
        · intro h
          exact ih.mpr ⟨fun other ho ↦ h.unchanged other (List.mem_cons_of_mem _ ho),
            hmissing ▸ h.inOrder, hmissing ▸ h.short, hmissing ▸ h.replays, hmissing ▸ h.names,
            hmissing ▸ h.history⟩
      · rw [if_pos hsum]
        refine ⟨fun h ↦ (by cases h), fun h ↦ ?_⟩
        exact absurd (h.unchanged script List.mem_cons_self checksum hlast) hsum
    | none =>
      have hmissing : missing applied (script :: scripts) = script :: missing applied scripts := by
        refine List.filter_cons_of_pos ?_
        rw [hlast]
        rfl
      have hmem : script ∈ missing applied (script :: scripts) := by
        rw [hmissing]
        exact List.mem_cons_self
      constructor
      · intro h
        obtain ⟨next, hnext, hrest⟩ := bind_eq_ok.mp h
        obtain ⟨horder, hshort, schema, hrun⟩ := applyScript_missing_ok hlast hnext
        rw [applyScript_missing hlast horder hrun hshort] at hnext
        cases hnext
        have happlies := ih.mp hrest
        refine ⟨?_, ?_, ?_, ?_, ?_, ?_⟩
        · intro other ho found hf
          rcases List.mem_cons.mp ho with rfl | ho
          · rw [hlast] at hf
            cases hf
          · exact happlies.unchanged other ho found hf
        · rw [hmissing]
          exact List.forall_mem_cons.mpr ⟨Nat.not_lt.mp horder, happlies.inOrder⟩
        · rw [hmissing]
          exact List.forall_mem_cons.mpr ⟨Nat.not_lt.mp hshort, happlies.short⟩
        · rw [hmissing, replay, List.foldlM_cons, hrun]
          exact happlies.replays
        · rw [hmissing, happlies.names, List.map_cons, List.append_assoc]
          rfl
        · rw [hmissing, happlies.history, List.map_cons, List.append_assoc]
          rfl
      · intro h
        have hreplay := h.replays
        rw [hmissing, replay, List.foldlM_cons] at hreplay
        obtain ⟨schema, hrun, hreplay⟩ := bind_eq_ok.mp hreplay
        rw [applyScript_missing hlast (Nat.not_lt.mpr (h.inOrder script hmem)) hrun
          (Nat.not_lt.mpr (h.short script hmem))]
        refine ih.mpr ⟨fun other ho ↦ h.unchanged other (List.mem_cons_of_mem _ ho), ?_, ?_,
          hreplay, ?_, ?_⟩
        · exact fun other ho ↦ h.inOrder other (hmissing ▸ List.mem_cons_of_mem _ ho)
        · exact fun other ho ↦ h.short other (hmissing ▸ List.mem_cons_of_mem _ ho)
        · rw [h.names, hmissing, List.map_cons, List.append_assoc]
          rfl
        · rw [h.history, hmissing, List.map_cons, List.append_assoc]
          rfl

end

/-! ### Recorded scripts -/

variable {known : Script → Prop} {initial : Schema}
  {done scripts : List (MigrationScript Script Checksum)} {db db' : Upgraded Schema Checksum}

/-- A fresh database. -/
def fresh (initial : Schema) : Upgraded Schema Checksum := ⟨initial, []⟩

/-- A fresh database has recorded nothing. -/
theorem recorded_fresh (env : Environment Script Schema Checksum) (known : Script → Prop)
    (initial : Schema) : Recorded env known initial [] (fresh initial) :=
  ⟨⟨.nil, fun _ h ↦ (by cases h), fun _ h ↦ (by cases h)⟩, rfl, rfl, fun _ h ↦ (by cases h)⟩

private theorem Sorted.script_eq {a b : MigrationScript Script Checksum}
    (hd : Sorted env known done) (hs : Sorted env known scripts) (ha : a ∈ done) (hb : b ∈ scripts)
    (hno : ∀ x y, known x → known y → env.sha256 x = env.sha256 y → x = y)
    (hnumber : a.number = b.number) (hsum : a.checksum = b.checksum) : a = b := by
  have hcontent : a.content = b.content := by
    refine hno _ _ (hd.known a ha) (hs.known b hb) ?_
    rw [← hd.checksums a ha, ← hs.checksums b hb, hsum]
  obtain ⟨number, content, checksum⟩ := a
  cases hnumber
  cases hcontent
  cases hsum
  rfl

/-- No two scripts that were ever in the directory have one checksum. -/
def NoCollision (env : Environment Script Schema Checksum)
    (directories : List (List (MigrationFile Script))) : Prop :=
  ∀ directory ∈ directories, ∀ file ∈ directory, ∀ directory' ∈ directories,
    ∀ file' ∈ directory', env.sha256 file.content = env.sha256 file'.content →
      file.content = file'.content

/-- The contents of directories. -/
def Known (directories : List (List (MigrationFile Script))) (content : Script) : Prop :=
  ∃ directory ∈ directories, ∃ file ∈ directory, file.content = content

/-- Known scripts with one hash are the same. -/
theorem NoCollision.injective {directories : List (List (MigrationFile Script))}
    (h : NoCollision env directories) (x y : Script) (hx : Known directories x)
    (hy : Known directories y) (he : env.sha256 x = env.sha256 y) : x = y := by
  obtain ⟨directory, hd, file, hf, rfl⟩ := hx
  obtain ⟨directory', hd', file', hf', rfl⟩ := hy
  exact h directory hd file hf directory' hd' file' hf' he

/-- The scripts of one of the directories. -/
theorem readScripts_known {directories : List (List (MigrationFile Script))}
    {directory : List (MigrationFile Script)} (hd : directory ∈ directories)
    (h : readScripts env directory = .ok scripts) : Sorted env (Known directories) scripts := by
  have hs := readScripts_sorted h
  refine ⟨hs.ascending, hs.checksums, fun script hscript ↦ ?_⟩
  obtain ⟨file, hf, he⟩ := hs.known script hscript
  exact ⟨directory, hd, file, hf, he⟩

section
variable [DecidableEq Checksum]

private theorem missing_append {new : List (MigrationScript Script Checksum)}
    (h : Sorted env known (done ++ new)) (hd : Sorted env known done) :
    missing (done.map (·.row)) (done ++ new) = new := by
  rw [missing, List.filter_append, List.filter_eq_nil_iff.mpr, List.nil_append,
    List.filter_eq_self.mpr]
  · intro script hs
    rw [Option.isNone_iff_eq_none, lastWrite_eq_none_iff]
    intro entry he hv
    obtain ⟨other, ho, rfl⟩ := List.mem_map.mp he
    have hlt := (List.pairwise_append.mp h.ascending).2.2 other ho script hs
    exact Nat.ne_of_lt hlt (versionText_injective hv)
  · intro script hs
    have hlast := (hd.lastWrite_iff script.number script.checksum).mpr ⟨script, hs, rfl, rfl⟩
    rw [MigrationScript.version, hlast]
    exact Bool.false_ne_true

/-- The run succeeds exactly when the directory continues what is recorded with further versions
whose scripts the database accepts, and then it applies these. -/
theorem Recorded.applyScripts_iff (h : Recorded env known initial done db)
    (hs : Sorted env known scripts)
    (hno : ∀ x y, known x → known y → env.sha256 x = env.sha256 y → x = y)
    {names : List (List Char)} :
    applyScripts env scripts db = .ok (names, db') ↔ ∃ new, scripts = done ++ new ∧
      names = new.map (·.version) ∧ db'.history = scripts.map (·.row) ∧
      replay env new db.schema = .ok db'.schema ∧
      ∀ script ∈ new, script.version.length ≤ versionLimit := by
  obtain ⟨highest, hhighest, hbound, hleast⟩ := highestApplied_rows done
  have hunfold : applyScripts env scripts db = .ok (names, db') ↔
      (∀ script ∈ done, ∃ other ∈ scripts, other.version = script.version) ∧
        Applies env (done.map (·.row)) highest scripts ([], db) (names, db') := by
    rw [applyScripts, h.history, hhighest]
    by_cases hmiss : (done.map (·.row)).any fun entry ↦ !scripts.any (·.version == entry.1)
    · rw [if_pos hmiss]
      refine ⟨fun hok ↦ (by cases hok), fun hok ↦ ?_⟩
      obtain ⟨entry, he, hn⟩ := List.any_eq_true.mp hmiss
      obtain ⟨script, hscript, rfl⟩ := List.mem_map.mp he
      obtain ⟨other, ho, hv⟩ := hok.1 script hscript
      rw [Bool.not_eq_true', List.any_eq_false] at hn
      exact absurd (beq_iff_eq.mpr hv) (hn other ho)
    · rw [if_neg hmiss, ← foldlM_applyScript_iff]
      refine ⟨fun hok ↦ ⟨fun script hscript ↦ ?_, hok⟩, fun hok ↦ hok.2⟩
      rw [Bool.not_eq_true, List.any_eq_false] at hmiss
      have hany := hmiss script.row (List.mem_map_of_mem hscript)
      rw [Bool.not_eq_true', Bool.not_eq_false, List.any_eq_true] at hany
      obtain ⟨other, ho, hv⟩ := hany
      exact ⟨other, ho, beq_iff_eq.mp hv⟩
  rw [hunfold]
  constructor
  · rintro ⟨hcover, happlies⟩
    have hsub : ∀ script ∈ done, script ∈ scripts := by
      intro script hscript
      obtain ⟨other, ho, hv⟩ := hcover script hscript
      have hnumber := versionText_injective hv
      have hlast := (h.sorted.lastWrite_iff other.number script.checksum).mpr
        ⟨script, hscript, hnumber.symm, rfl⟩
      have hsum := happlies.unchanged other ho _ hlast
      rw [h.sorted.script_eq hs hscript ho hno hnumber.symm hsum]
      exact ho
    have hafter : ∀ script ∈ done, ∀ other ∈ missing (done.map (·.row)) scripts,
        script.number < other.number := by
      intro script hscript other hother
      have hle : script.number ≤ other.number :=
        Nat.le_trans (hbound script hscript) (happlies.inOrder other hother)
      refine Nat.lt_of_le_of_ne hle fun he ↦ ?_
      have hlast := (h.sorted.lastWrite_iff other.number script.checksum).mpr
        ⟨script, hscript, he, rfl⟩
      have hnone := (List.mem_filter.mp hother).2
      rw [MigrationScript.version, hlast] at hnone
      cases hnone
    have happend : (done ++ missing (done.map (·.row)) scripts).Pairwise
        fun a b ↦ a.number < b.number :=
      List.pairwise_append.mpr ⟨h.sorted.ascending,
        hs.ascending.sublist List.filter_sublist, hafter⟩
    have hperm : scripts.Perm (done ++ missing (done.map (·.row)) scripts) := by
      refine (List.perm_ext_iff_of_nodup ?_ ?_).mpr fun script ↦ ?_
      · exact hs.ascending.imp fun hab ↦ ne_of_apply_ne (·.number) (Nat.ne_of_lt hab)
      · exact happend.imp fun hab ↦ ne_of_apply_ne (·.number) (Nat.ne_of_lt hab)
      · rw [List.mem_append]
        constructor
        · intro hscript
          cases hlast : lastWrite (done.map (·.row)) script.version with
          | none =>
            refine .inr (List.mem_filter.mpr ⟨hscript, ?_⟩)
            rw [hlast]
            rfl
          | some checksum =>
            obtain ⟨other, ho, hnumber, hsum⟩ :=
              (h.sorted.lastWrite_iff script.number checksum).mp hlast
            have hsame := happlies.unchanged script hscript checksum hlast
            rw [h.sorted.script_eq hs ho hscript hno hnumber (hsum.trans hsame)] at ho
            exact .inl ho
        · rintro (hscript | hscript)
          · exact hsub script hscript
          · exact (List.mem_filter.mp hscript).1
    have heq : scripts = done ++ missing (done.map (·.row)) scripts :=
      hperm.eq_of_pairwise (fun a b _ _ hab hba ↦ absurd hab (Nat.lt_asymm hba)) hs.ascending
        happend
    have hnames : names = [] ++ (missing (done.map (·.row)) scripts).map (·.version) :=
      happlies.names
    rw [List.nil_append] at hnames
    refine ⟨missing (done.map (·.row)) scripts, heq, hnames, ?_, happlies.replays,
      happlies.short⟩
    rw [happlies.history, h.history, ← List.map_append, ← heq]
  · rintro ⟨new, rfl, rfl, hhistory, hreplay, hshort⟩
    have hmissing := missing_append hs h.sorted
    refine ⟨fun script hscript ↦ ⟨script, List.mem_append_left _ hscript, rfl⟩, ?_⟩
    refine ⟨?_, ?_, by rwa [hmissing], by rwa [hmissing], by rw [hmissing]; rfl, ?_⟩
    · intro script hscript checksum hlast
      obtain ⟨other, ho, hnumber, rfl⟩ :=
        (h.sorted.lastWrite_iff script.number checksum).mp hlast
      have hsame : other = script := by
        refine eq_of_key_eq ?_ (List.mem_append_left _ ho) hscript hnumber
        exact List.pairwise_map.mpr (hs.ascending.imp fun hab ↦ Nat.ne_of_lt hab)
      rw [hsame]
    · rw [hmissing]
      intro script hscript
      refine hleast script.number fun other ho ↦ ?_
      exact Nat.le_of_lt ((List.pairwise_append.mp hs.ascending).2.2 other ho script hscript)
    · rw [hmissing, hhistory, List.map_append, h.history]

/-- After a run the scripts of its directory are recorded. -/
theorem Recorded.after (h : Recorded env known initial done db)
    (hs : Sorted env known scripts)
    (hno : ∀ x y, known x → known y → env.sha256 x = env.sha256 y → x = y)
    {names : List (List Char)} (hok : applyScripts env scripts db = .ok (names, db')) :
    Recorded env known initial scripts db' := by
  obtain ⟨new, rfl, -, hhistory, hreplay, hshort⟩ := (h.applyScripts_iff hs hno).mp hok
  refine ⟨hs, hhistory, ?_, fun script hscript ↦ ?_⟩
  · rw [replay, List.foldlM_append, bind_eq_ok]
    exact ⟨db.schema, h.replays, hreplay⟩
  · rcases List.mem_append.mp hscript with hscript | hscript
    · exact h.short script hscript
    · exact hshort script hscript

/-- What a run of the runner reads and applies. -/
theorem applyMigrations_ok {directory : List (MigrationFile Script)} {names : List (List Char)}
    (h : applyMigrations env directory db = .ok (names, db')) :
    ∃ scripts, readScripts env directory = .ok scripts ∧ scripts ≠ [] ∧
      applyScripts env scripts db = .ok (names, db') := by
  obtain ⟨scripts, hread, h⟩ := bind_eq_ok.mp h
  refine ⟨scripts, hread, ?_⟩
  cases scripts with
  | nil => cases h
  | cons script scripts => exact ⟨List.cons_ne_nil _ _, h⟩

/-- The same run from another database. -/
theorem applyMigrations_of_scripts {directory : List (MigrationFile Script)}
    (hread : readScripts env directory = .ok scripts) (hne : scripts ≠ []) :
    applyMigrations env directory db = applyScripts env scripts db := by
  rw [applyMigrations, hread]
  cases scripts with
  | nil => exact absurd rfl hne
  | cons script scripts => rfl

/-- Runs, failed or not, leave a database that records scripts. -/
theorem Recorded.runs {directories : List (List (MigrationFile Script))}
    (hno : NoCollision env directories) {runs : List (List (MigrationFile Script))}
    (hruns : ∀ directory ∈ runs, directory ∈ directories)
    (h : Recorded env (Known directories) initial done db) :
    ∃ done', Recorded env (Known directories) initial done' (runs.foldl (upgrade env) db) := by
  induction runs generalizing db done with
  | nil => exact ⟨done, h⟩
  | cons directory runs ih =>
    have hrest := fun other ho ↦ hruns other (List.mem_cons_of_mem _ ho)
    rw [List.foldl_cons, upgrade]
    split
    · next names after hok =>
      obtain ⟨scripts, hread, -, happly⟩ := applyMigrations_ok hok
      have hs := readScripts_known (hruns directory List.mem_cons_self) hread
      exact ih hrest (h.after hs hno.injective happly)
    · exact ih hrest h

/-- Whatever was run before, failed or not and with whatever directories, a run that succeeds
leaves the database that its directory alone gives on a fresh database; it applies the versions
that were not recorded yet, and a second run applies none. -/
theorem applyMigrations_as_fresh (initial : Schema)
    (earlier : List (List (MigrationFile Script))) (directory : List (MigrationFile Script))
    (hno : NoCollision env (directory :: earlier)) {names : List (List Char)}
    (h : applyMigrations env directory (earlier.foldl (upgrade env) (fresh initial)) =
      .ok (names, db')) :
    applyMigrations env directory (fresh initial) =
        .ok ((earlier.foldl (upgrade env) (fresh initial)).history.map (·.1) ++ names, db') ∧
      applyMigrations env directory db' = .ok ([], db') := by
  obtain ⟨done, hdone⟩ := (recorded_fresh env (Known (directory :: earlier)) initial).runs hno
    fun other ho ↦ List.mem_cons_of_mem _ ho
  generalize earlier.foldl (upgrade env) (fresh initial) = db at hdone h
  obtain ⟨scripts, hread, hne, happly⟩ := applyMigrations_ok h
  have hs : Sorted env (Known (directory :: earlier)) scripts :=
    readScripts_known List.mem_cons_self hread
  have hafter := hdone.after hs hno.injective happly
  rw [applyMigrations_of_scripts hread hne, applyMigrations_of_scripts hread hne]
  constructor
  · obtain ⟨new, hnew, hnames, -⟩ := (hdone.applyScripts_iff hs hno.injective).mp happly
    refine ((recorded_fresh env _ initial).applyScripts_iff hs hno.injective).mpr
      ⟨scripts, rfl, ?_, hafter.history, hafter.replays, hafter.short⟩
    rw [hdone.history, hnames, hnew, List.map_append, List.map_map]
    rfl
  · exact (hafter.applyScripts_iff hs hno.injective).mpr
      ⟨[], (List.append_nil _).symm, rfl, hafter.history, rfl, fun _ h ↦ (by cases h)⟩

end

/-! ### A directory that grows -/

/-- Two scripts of a directory; the second one needs the first. -/
def alertScripts : List (MigrationFile Nat) :=
  [⟨"V002__alert_notes.sql", 2⟩, ⟨"V001__p1_risk_alerts.sql", 1⟩]

-- The state before the second script was written, and an edited copy of it.
private def earlierScripts : List (List (MigrationFile Nat)) :=
  [[⟨"V001__p1_risk_alerts.sql", 1⟩], [⟨"V001__p1_risk_alerts.sql", 3⟩], [⟨"V2_notes.sql", 2⟩]]

/-- Scripts that stand for themselves and that run once. -/
def sampleEnvironment : Environment Nat (List Nat) Nat where
  sha256 script := script
  execute script schema :=
    if script ∈ schema then .error "already exists"
    else if script = 2 ∧ 1 ∉ schema then .error "does not exist"
    else .ok (schema ++ [script])

/-- The second script is applied, the edited copy and the wrong name changed nothing. -/
theorem applyMigrations_as_fresh_grown :
    applyMigrations sampleEnvironment alertScripts
        (earlierScripts.foldl (upgrade sampleEnvironment) (fresh [])) =
      .ok ([versionText 2], ⟨[1, 2], [(versionText 1, 1), (versionText 2, 2)]⟩) ∧
    applyMigrations sampleEnvironment alertScripts (fresh []) =
      .ok ((earlierScripts.foldl (upgrade sampleEnvironment) (fresh [])).history.map (·.1) ++
        [versionText 2], ⟨[1, 2], [(versionText 1, 1), (versionText 2, 2)]⟩) ∧
    applyMigrations sampleEnvironment alertScripts
        ⟨[1, 2], [(versionText 1, 1), (versionText 2, 2)]⟩ =
      .ok ([], ⟨[1, 2], [(versionText 1, 1), (versionText 2, 2)]⟩) := by
  have hrun : applyMigrations sampleEnvironment alertScripts
      (earlierScripts.foldl (upgrade sampleEnvironment) (fresh [])) =
      .ok ([versionText 2], ⟨[1, 2], [(versionText 1, 1), (versionText 2, 2)]⟩) := by
    decide +kernel
  exact ⟨hrun, applyMigrations_as_fresh [] earlierScripts alertScripts
    (fun _ _ _ _ _ _ _ _ h ↦ h) hrun⟩

end PenroseRoute.Migrations
