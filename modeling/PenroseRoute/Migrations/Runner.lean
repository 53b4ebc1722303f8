import Mathlib.Data.List.Sort
import PenroseRoute.Lib.Checks
import PenroseRoute.Lib.Dict

/-!
# The migration runner

`apply_migrations.py`: the checks of the file names, of the recorded checksums and of the order,
and the one transaction that applies what is missing. What a script does to the schema and its
SHA-256 are parameters.
-/

namespace PenroseRoute.Migrations

open PenroseRoute.Lib

/-! ### File names -/

/-- The code points of the decimal zeros of Unicode; the nine digits of each follow it. -/
def decimalZeros : List Nat :=
  [0x30, 0x660, 0x6F0, 0x7C0, 0x966, 0x9E6, 0xA66, 0xAE6, 0xB66, 0xBE6, 0xC66, 0xCE6, 0xD66, 0xDE6,
    0xE50, 0xED0, 0xF20, 0x1040, 0x1090, 0x17E0, 0x1810, 0x1946, 0x19D0, 0x1A80, 0x1A90, 0x1B50,
    0x1BB0, 0x1C40, 0x1C50, 0xA620, 0xA8D0, 0xA900, 0xA9D0, 0xA9F0, 0xAA50, 0xABF0, 0xFF10,
    0x104A0, 0x10D30, 0x11066, 0x110F0, 0x11136, 0x111D0, 0x112F0, 0x11450, 0x114D0, 0x11650,
    0x116C0, 0x11730, 0x118E0, 0x11950, 0x11C50, 0x11D50, 0x11DA0, 0x16A60, 0x16AC0, 0x16B50,
    0x1D7CE, 0x1D7D8, 0x1D7E2, 0x1D7EC, 0x1D7F6, 0x1E140, 0x1E2F0, 0x1E950, 0x1FBF0]

/-- The value of a character that `\d` matches. -/
def decimal? (c : Char) : Option Nat :=
  (decimalZeros.find? fun first ↦ first ≤ c.toNat && c.toNat < first + 10).map (c.toNat - ·)

/-- `int(text)` of a text of decimal digits. -/
def int? (text : List Char) : Option Nat :=
  if text ≠ [] ∧ text.all fun c ↦ (decimal? c).isSome then
    some (text.foldl (fun n c ↦ 10 * n + (decimal? c).getD 0) 0)
  else none

/-- `[a-z0-9_]`. -/
def isNameChar (c : Char) : Bool :=
  ('a' ≤ c && c ≤ 'z') || ('0' ≤ c && c ≤ '9') || c == '_'

/-- The number in a name that matches `VERSION_PATTERN`, `apply_migrations.py:16`. -/
def versionNumber? (name : String) : Option Nat :=
  match name.toList with
  | 'V' :: rest =>
    match rest.dropWhile fun c ↦ (decimal? c).isSome with
    | '_' :: '_' :: stem =>
      if stem.takeWhile isNameChar ≠ [] ∧ stem.dropWhile isNameChar = ['.', 's', 'q', 'l'] then
        int? (rest.takeWhile fun c ↦ (decimal? c).isSome)
      else none
    | _ => none
  | _ => none

/-- `directory.glob("V*.sql")` finds the name. -/
def globbed (name : String) : Bool :=
  ['V'].isPrefixOf name.toList && ['.', 's', 'q', 'l'].isSuffixOf name.toList

/-- The digits of `f"{number:03d}"`. -/
def paddedDigits (number : Nat) : List Char :=
  List.replicate (3 - (Nat.toDigits 10 number).length) '0' ++ Nat.toDigits 10 number

/-- `f"V{number:03d}"`. -/
def versionText (number : Nat) : List Char := 'V' :: paddedDigits number

/-- `varchar(16)` of `schema_migrations.version`. -/
def versionLimit : Nat := 16

/-! ### The runner -/

section
variable {Script Schema Checksum : Type}

/-- A file of the migrations directory. -/
structure MigrationFile (Script : Type) where
  name : String
  content : Script
  deriving Repr

/-- What the runner gets from outside: `hashlib.sha256` and the effect of a script, which PostgreSQL
can refuse. -/
structure Environment (Script Schema Checksum : Type) where
  sha256 : Script → Checksum
  execute : Script → Schema → Except String Schema

/-- A database: its schema without `schema_migrations`, and the rows of that table. A missing
table has no rows. -/
structure Upgraded (Schema Checksum : Type) where
  schema : Schema
  history : List (List Char × Checksum)
  deriving DecidableEq, Repr

/-- One entry of `_scripts`. -/
structure MigrationScript (Script Checksum : Type) where
  number : Nat
  content : Script
  checksum : Checksum

/-- What the runner raises. -/
inductive Failure where
  | invalidName (name : String)
  | duplicateVersion (version : List Char)
  | noScripts
  | appliedMissing
  | unreadableVersion
  | checksumChanged (version : List Char)
  | outOfOrder (version : List Char)
  | database (message : String)
  deriving DecidableEq, Repr

namespace MigrationScript

/-- The version of a script. -/
def version (script : MigrationScript Script Checksum) : List Char := versionText script.number

/-- The row that records a script. -/
def row (script : MigrationScript Script Checksum) : List Char × Checksum :=
  (script.version, script.checksum)

end MigrationScript

variable (env : Environment Script Schema Checksum)

/-- One file in the loop of `_scripts`, `apply_migrations.py:26`. -/
def addScript (scripts : List (MigrationScript Script Checksum)) (file : MigrationFile Script) :
    Except Failure (List (MigrationScript Script Checksum)) :=
  match versionNumber? file.name with
  | none => .error (.invalidName file.name)
  | some number =>
    if scripts.any (·.number == number) then .error (.duplicateVersion (versionText number))
    else .ok (scripts ++ [⟨number, file.content, env.sha256 file.content⟩])

/-- `_scripts`, `apply_migrations.py:23`: no two scripts have one number, so that sorting the
tuples is sorting by the number. -/
def readScripts (directory : List (MigrationFile Script)) :
    Except Failure (List (MigrationScript Script Checksum)) := do
  let scripts ← (directory.filter (globbed ·.name)).foldlM (addScript env) []
  pure (scripts.insertionSort fun a b ↦ a.number ≤ b.number)

/-- The larger of a number and the one of a recorded version. -/
def maxVersion (highest : Nat) (entry : List Char × Checksum) : Except Failure Nat :=
  match int? entry.1.tail with
  | none => .error .unreadableVersion
  | some number => .ok (max highest number)

/-- `max((int(version[1:]) for version in applied), default=0)`. -/
def highestApplied (applied : List (List Char × Checksum)) : Except Failure Nat :=
  applied.foldlM maxVersion 0

variable [DecidableEq Checksum]

/-- The body of the loop over the scripts, `apply_migrations.py:67`. -/
def applyScript (applied : List (List Char × Checksum)) (highest : Nat)
    (state : List (List Char) × Upgraded Schema Checksum)
    (script : MigrationScript Script Checksum) :
    Except Failure (List (List Char) × Upgraded Schema Checksum) :=
  match lastWrite applied script.version with
  | some checksum =>
    if checksum ≠ script.checksum then .error (.checksumChanged script.version) else .ok state
  | none =>
    if script.number < highest then .error (.outOfOrder script.version)
    else
      match env.execute script.content state.2.schema with
      | .error message => .error (.database message)
      | .ok schema =>
        if versionLimit < script.version.length then
          .error (.database "value too long for type character varying(16)")
        else .ok (state.1 ++ [script.version], ⟨schema, state.2.history ++ [script.row]⟩)

/-- The transaction of `apply_migrations`, `apply_migrations.py:50`: the versions that it applies
and the database that it commits. -/
def applyScripts (scripts : List (MigrationScript Script Checksum))
    (db : Upgraded Schema Checksum) :
    Except Failure (List (List Char) × Upgraded Schema Checksum) := do
  if db.history.any fun entry ↦ !scripts.any (·.version == entry.1) then
    throw .appliedMissing
  let highest ← highestApplied db.history
  scripts.foldlM (applyScript env db.history highest) ([], db)

/-- `apply_migrations`, `apply_migrations.py:38`, for a PostgreSQL URL with a database. -/
def applyMigrations (directory : List (MigrationFile Script)) (db : Upgraded Schema Checksum) :
    Except Failure (List (List Char) × Upgraded Schema Checksum) := do
  let scripts ← readScripts env directory
  if scripts.isEmpty then throw .noScripts
  applyScripts env scripts db

/-- A database after a run; one that raises is rolled back. -/
def upgrade (db : Upgraded Schema Checksum) (directory : List (MigrationFile Script)) :
    Upgraded Schema Checksum :=
  match applyMigrations env directory db with
  | .ok (_, upgraded) => upgraded
  | .error _ => db

end

/-! ### Versions -/

private theorem decimal?_of_isDigit {c : Char} (h : c.isDigit = true) :
    decimal? c = some (c.toNat - '0'.toNat) := by
  have hlow : 48 ≤ c.toNat := (Char.isDigit_iff_toNat.mp h).1
  have hhigh : c.toNat ≤ 57 := (Char.isDigit_iff_toNat.mp h).2
  have hhit : (decide (48 ≤ c.toNat) && decide (c.toNat < 48 + 10)) = true := by
    rw [Bool.and_eq_true_iff, decide_eq_true_iff, decide_eq_true_iff]
    omega
  rw [decimal?, decimalZeros, List.find?_cons_of_pos (p := fun first ↦
    decide (first ≤ c.toNat) && decide (c.toNat < first + 10)) hhit]
  rfl

/-- `int` reads a padded number back. -/
theorem int?_paddedDigits (number : Nat) : int? (paddedDigits number) = some number := by
  have hdigits : ∀ c ∈ paddedDigits number, c.isDigit = true := by
    intro c hc
    rcases List.mem_append.mp hc with hc | hc
    · rw [(List.mem_replicate.mp hc).2]
      rfl
    · exact Nat.isDigit_of_mem_toDigits (by omega) (by omega) hc
  have hne : paddedDigits number ≠ [] := by
    rw [paddedDigits, ne_eq, List.append_eq_nil_iff]
    exact fun h ↦ Nat.toDigits_ne_nil h.2
  have hfold : ∀ (text : List Char) (n : Nat), (∀ c ∈ text, c.isDigit = true) →
      text.foldl (fun n c ↦ 10 * n + (decimal? c).getD 0) n = Nat.ofDigitChars 10 text n := by
    intro text
    induction text with
    | nil => intro n _; rw [List.foldl_nil, Nat.ofDigitChars_nil]
    | cons c text ih =>
      intro n h
      rw [List.foldl_cons, Nat.ofDigitChars_cons, decimal?_of_isDigit (h c List.mem_cons_self),
        ih _ fun d hd ↦ h d (List.mem_cons_of_mem _ hd)]
      rfl
  have hsome : ∀ c ∈ paddedDigits number, (decimal? c).isSome = true := by
    intro c hc
    rw [decimal?_of_isDigit (hdigits c hc)]
    rfl
  rw [int?, if_pos ⟨hne, List.all_eq_true.mpr hsome⟩, hfold _ 0 hdigits, paddedDigits,
    Nat.ofDigitChars_append, Nat.ofDigitChars_replicate_zero, Nat.mul_zero,
    Nat.ofDigitChars_ten_toDigits]

/-- Different numbers have different versions. -/
theorem versionText_injective : Function.Injective versionText := by
  intro a b h
  have hdigits : paddedDigits a = paddedDigits b := (List.cons.inj h).2
  have hread := int?_paddedDigits a
  rw [hdigits, int?_paddedDigits b, Option.some.injEq] at hread
  exact hread.symm

end PenroseRoute.Migrations
