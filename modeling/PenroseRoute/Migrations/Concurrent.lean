import PenroseRoute.Lib.Locking
import PenroseRoute.Migrations.Replay

/-!
# Concurrent runners

Runners statement by statement: each waits for the advisory lock `(55120, 3)` of its transaction,
reads the history and executes one script after the other on what it sees of the database.
-/

namespace PenroseRoute.Migrations

open PenroseRoute.Lib

variable {Script Schema Checksum : Type} [DecidableEq Checksum]
  (env : Environment Script Schema Checksum)

/-- What a runner has read under its lock, and its own writes. -/
structure Executing (Script Schema Checksum : Type) where
  applied : List (List Char × Checksum)
  highest : Nat
  rest : List (MigrationScript Script Checksum)
  state : List (List Char) × Upgraded Schema Checksum

/-- A runner after `_scripts`: before the advisory lock, with it, or among its scripts. -/
inductive Session (Script Schema Checksum : Type) where
  | waiting (directory : List (MigrationFile Script))
  | locked (directory : List (MigrationFile Script))
  | executing (directory : List (MigrationFile Script))
      (progress : Executing Script Schema Checksum)

namespace Session

/-- The directory of a runner. -/
def directory : Session Script Schema Checksum → List (MigrationFile Script)
  | .waiting directory => directory
  | .locked directory => directory
  | .executing directory _ => directory

/-- The runner has the advisory lock. -/
def HoldsLock : Session Script Schema Checksum → Prop
  | .waiting _ => False
  | _ => True

/-- The scripts of a directory are read and there are some. -/
def Begins (session : Session Script Schema Checksum) : Prop :=
  ∃ directory scripts, readScripts env directory = .ok scripts ∧ scripts ≠ [] ∧
    session = .waiting directory

/-- The statements of a runner, `apply_migrations.py:50`. -/
inductive Statement (db : Upgraded Schema Checksum) :
    Session Script Schema Checksum → Session Script Schema Checksum → Prop where
  | lock (directory : List (MigrationFile Script)) :
      Statement db (.waiting directory) (.locked directory)
  | select (directory : List (MigrationFile Script))
      (scripts : List (MigrationScript Script Checksum)) (highest : Nat)
      (hread : readScripts env directory = .ok scripts)
      (hknown : (db.history.any fun entry ↦ !scripts.any (·.version == entry.1)) = false)
      (hhighest : highestApplied db.history = .ok highest) :
      Statement db (.locked directory)
        (.executing directory ⟨db.history, highest, scripts, ([], db)⟩)
  | execute (directory : List (MigrationFile Script)) (applied : List (List Char × Checksum))
      (highest : Nat) (script : MigrationScript Script Checksum)
      (rest : List (MigrationScript Script Checksum))
      (state next : List (List Char) × Upgraded Schema Checksum)
      (h : applyScript env applied highest state script = .ok next) :
      Statement db (.executing directory ⟨applied, highest, script :: rest, state⟩)
        (.executing directory ⟨applied, highest, rest, next⟩)

end Session

/-- A runner whose scripts are all executed commits what it sees. -/
inductive Commits : Session Script Schema Checksum → Upgraded Schema Checksum → Prop where
  | commit (directory : List (MigrationFile Script)) (applied : List (List Char × Checksum))
      (highest : Nat) (state : List (List Char) × Upgraded Schema Checksum) :
      Commits (.executing directory ⟨applied, highest, [], state⟩) state.2

/-- The runners of one database. -/
def runners : Protocol (Upgraded Schema Checksum) (Session Script Schema Checksum) where
  begins := Session.Begins env
  statement := Session.Statement env
  conflict a b := a.HoldsLock ∧ b.HoldsLock
  commits _ session db' := Commits session db'

/-- What a runner knows: its directory has scripts, and what it has executed so far began with the
committed database. -/
def Session.Fact (db : Upgraded Schema Checksum) : Session Script Schema Checksum → Prop
  | .waiting directory => ∃ scripts, readScripts env directory = .ok scripts ∧ scripts ≠ []
  | .locked directory => ∃ scripts, readScripts env directory = .ok scripts ∧ scripts ≠ []
  | .executing directory progress => ∃ scripts executed,
      readScripts env directory = .ok scripts ∧ scripts ≠ [] ∧
      scripts = executed ++ progress.rest ∧ progress.applied = db.history ∧
      (db.history.any fun entry ↦ !scripts.any (·.version == entry.1)) = false ∧
      highestApplied db.history = .ok progress.highest ∧
      executed.foldlM (applyScript env db.history progress.highest) ([], db) = .ok progress.state

/-- The committed database after whole runs, one after the other. -/
def Serial (initial db : Upgraded Schema Checksum) : Prop :=
  ∃ runs : List (List (MigrationFile Script)), db = runs.foldl (upgrade env) initial

variable {env} {db : Upgraded Schema Checksum}

private theorem fact_statement {session next : Session Script Schema Checksum}
    (hfact : session.Fact env db) (h : Session.Statement env db session next) :
    next.Fact env db := by
  cases h with
  | lock directory => exact hfact
  | select directory scripts highest hread hknown hhighest =>
    obtain ⟨found, hfound, hne⟩ := hfact
    rw [hread, Except.ok.injEq] at hfound
    exact ⟨scripts, [], hread, hfound ▸ hne, rfl, rfl, hknown, hhighest, rfl⟩
  | execute directory applied highest script rest state next h =>
    obtain ⟨scripts, executed, hread, hne, hsplit, happlied, hknown, hhighest, hrun⟩ := hfact
    dsimp only at hsplit happlied hhighest hrun
    refine ⟨scripts, executed ++ [script], hread, hne, ?_, happlied, hknown, hhighest, ?_⟩
    · rw [hsplit, List.append_assoc]
      rfl
    · rw [List.foldlM_append, hrun, ← happlied]
      change List.foldlM (applyScript env applied highest) state [script] = .ok next
      rw [List.foldlM_cons, h]
      rfl

/-- A commit is one whole run of `apply_migrations`, with the runner's own directory, on the
committed database. -/
theorem commits_upgrade {session : Session Script Schema Checksum}
    {db' : Upgraded Schema Checksum} (hfact : session.Fact env db) (h : Commits session db') :
    ∃ names, applyMigrations env session.directory db = .ok (names, db') := by
  obtain ⟨directory, applied, highest, state⟩ := h
  obtain ⟨scripts, executed, hread, hne, hsplit, happlied, hknown, hhighest, hrun⟩ := hfact
  dsimp only at hsplit happlied hhighest hrun
  rw [List.append_nil] at hsplit
  refine ⟨state.1, ?_⟩
  rw [Session.directory, applyMigrations_of_scripts hread hne, applyScripts, hknown, hhighest,
    hsplit]
  exact hrun

private theorem runners_keeps (initial : Upgraded Schema Checksum) :
    (runners env).Keeps (Serial env initial) (fun db session ↦ session.Fact env db) where
  symm _ _ h := ⟨h.2, h.1⟩
  begins := by
    rintro db session ⟨directory, scripts, hread, hne, rfl⟩
    exact ⟨scripts, hread, hne⟩
  statement _ _ _ _ hfact h := fact_statement hfact h
  commits := by
    rintro db session db' ⟨runs, rfl⟩ hfact h
    obtain ⟨names, hok⟩ := commits_upgrade hfact h
    refine ⟨runs ++ [session.directory], ?_⟩
    rw [List.foldl_append, List.foldl_cons, List.foldl_nil, upgrade, hok]
  stable := by
    -- A runner that commits has the lock, so the others only wait for it.
    rintro db session db' other - - ⟨⟩ hfree hfact
    cases other with
    | waiting directory => exact hfact
    | locked directory => exact absurd ⟨trivial, trivial⟩ hfree
    | executing directory progress => exact absurd ⟨trivial, trivial⟩ hfree

/-- However runners of any directories interleave, fail or are rolled back, the committed database
is the one after some whole runs in a row, and each commit is a whole run of its own directory on
the database before it. -/
theorem runners_serial (initial : Upgraded Schema Checksum)
    {s : Protocol.State (Upgraded Schema Checksum) (Session Script Schema Checksum)}
    (hrun : (runners env).Run ⟨initial, []⟩ s) :
    Serial env initial s.table ∧ ∀ session ∈ s.opened, ∀ db', Commits session db' →
      ∃ names, applyMigrations env session.directory s.table = .ok (names, db') := by
  have hkeeps : (runners env).Keeps (Serial env initial) _ := runners_keeps initial
  have hholds := (Protocol.Holds.of_idle ⟨[], rfl⟩).run hkeeps hrun
  exact ⟨hholds.table, fun session hs db' hc ↦ commits_upgrade (hholds.facts session hs) hc⟩

-- The directory of the first of two runners.
private def firstScripts : List (MigrationFile Nat) := [⟨"V001__p1_risk_alerts.sql", 1⟩]

-- The database that the first runner commits.
private def firstMigrated : Upgraded (List Nat) Nat := ⟨[1], [(versionText 1, 1)]⟩

-- The database that the second runner commits.
private def bothMigrated : Upgraded (List Nat) Nat :=
  ⟨[1, 2], [(versionText 1, 1), (versionText 2, 2)]⟩

-- The second runner with its scripts executed: the first one is in the history.
private def secondExecuted : Session Nat (List Nat) Nat :=
  .executing alertScripts ⟨firstMigrated.history, 1, [], ([versionText 2], bothMigrated)⟩

-- The first runner commits while the second one waits for the lock, and then the second one
-- executes its scripts.
private theorem twoRunners_run :
    (runners sampleEnvironment).Run ⟨fresh [], []⟩ ⟨firstMigrated, [secondExecuted]⟩ := by
  have hfirst : readScripts sampleEnvironment firstScripts = .ok [⟨1, 1, 1⟩] := rfl
  have hsecond : readScripts sampleEnvironment alertScripts = .ok [⟨1, 1, 1⟩, ⟨2, 2, 2⟩] := rfl
  let waiting : Session Nat (List Nat) Nat := .waiting alertScripts
  have hfree : ∀ session : Session Nat (List Nat) Nat, ∀ other ∈ [waiting] ++ [],
      ¬ (runners sampleEnvironment).conflict session other := by
    rintro session other ho ⟨-, hlock⟩
    rw [List.append_nil, List.mem_singleton] at ho
    rw [ho] at hlock
    exact hlock
  have hstep : ∀ session next, Session.Statement sampleEnvironment (fresh []) session next →
      (runners sampleEnvironment).Step ⟨fresh [], [waiting] ++ session :: []⟩
        ⟨fresh [], [waiting] ++ next :: []⟩ := fun _ next h ↦ .statement h (hfree next)
  have hbegins : (runners sampleEnvironment).Run ⟨fresh [], []⟩
      ⟨fresh [], [waiting, .waiting firstScripts]⟩ := by
    have hone : (runners sampleEnvironment).Step ⟨fresh [], []⟩
        ⟨fresh [], [.waiting firstScripts]⟩ :=
      .begin ⟨firstScripts, _, hfirst, List.cons_ne_nil _ _, rfl⟩ fun _ h ↦ (by cases h)
    have htwo : (runners sampleEnvironment).Step ⟨fresh [], [.waiting firstScripts]⟩
        ⟨fresh [], [waiting, .waiting firstScripts]⟩ :=
      .begin ⟨alertScripts, _, hsecond, List.cons_ne_nil _ _, rfl⟩ fun _ _ h ↦ h.1
    exact (Relation.ReflTransGen.single hone).tail htwo
  have hlock := hbegins.tail (hstep _ _ (.lock firstScripts))
  have hselect := hlock.tail
    (hstep _ _ (.select firstScripts [⟨1, 1, 1⟩] 0 hfirst rfl rfl))
  have hexecute := hselect.tail (hstep _ _ (.execute firstScripts [] 0 ⟨1, 1, 1⟩ [] _
    ([versionText 1], firstMigrated) rfl))
  have hcommit := hexecute.tail (@Protocol.Step.commit _ _ _ _ _ [waiting] [] _
    (.commit firstScripts [] 0 ([versionText 1], firstMigrated)))
  -- Now the second runner is alone.
  have halone : ∀ session next, Session.Statement sampleEnvironment firstMigrated session next →
      (runners sampleEnvironment).Step ⟨firstMigrated, [session]⟩ ⟨firstMigrated, [next]⟩ :=
    fun _ _ h ↦ Protocol.Step.statement_head h fun _ h ↦ (by cases h)
  have hlocked := hcommit.tail (halone _ _ (.lock alertScripts))
  have hselected := hlocked.tail
    (halone _ _ (.select alertScripts [⟨1, 1, 1⟩, ⟨2, 2, 2⟩] 1 hsecond rfl rfl))
  have hskipped := hselected.tail (halone _ _ (.execute alertScripts firstMigrated.history 1
    ⟨1, 1, 1⟩ [⟨2, 2, 2⟩] _ ([], firstMigrated) rfl))
  exact hskipped.tail (halone _ _ (.execute alertScripts firstMigrated.history 1 ⟨2, 2, 2⟩ [] _
    ([versionText 2], bothMigrated) rfl))

/-- The commit of the second runner is a whole run of its directory behind the first one's. -/
theorem runners_serial_two :
    Serial sampleEnvironment (fresh []) firstMigrated ∧
      ∃ names, applyMigrations sampleEnvironment alertScripts firstMigrated =
        .ok (names, bothMigrated) := by
  obtain ⟨hserial, hcommits⟩ := runners_serial (fresh []) twoRunners_run
  exact ⟨hserial, hcommits secondExecuted (List.mem_singleton_self _) bothMigrated
    (.commit alertScripts firstMigrated.history 1 ([versionText 2], bothMigrated))⟩

end PenroseRoute.Migrations
