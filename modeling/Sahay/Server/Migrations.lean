import Mathlib.Data.List.Lex
import Mathlib.Data.List.Sort
import Sahay.Lib.Program

/-!
# The migrator

`db/migrate.ts`: the files of `migrations` that a runner finds are applied in the order of their
names, each in a transaction that also records it in `_migrations`.
-/

namespace Sahay

/-- The database, of which the migrator itself knows `_migrations` only; its names are in the
order in which they have been inserted. -/
structure MigrationDb (δ : Type) where
  schema : δ
  migrations : Option (List String) := none

inductive MigrationError
  | unreadable (file : String)
  /-- `migration ${file} failed: ${message}` -/
  | failed (file message : String)

namespace MigrationDb

variable {δ : Type} (db : MigrationDb δ)

def recorded (file : String) : Bool := file ∈ db.migrations.getD []

/-- `CREATE TABLE IF NOT EXISTS _migrations`. -/
def create : MigrationDb δ := { db with migrations := some (db.migrations.getD []) }

end MigrationDb

/-- What the names of the files stand for. -/
structure MigrationFiles (δ : Type) where
  readFile : String → Option String
  /-- The statements of a file, with the message of the first that fails. -/
  query : String → δ → Except String δ

namespace Migrations

variable {δ : Type}

/-- The UTF-16 code units, by which `sort` compares. -/
def codeUnits (s : String) : List ℕ :=
  s.toList.flatMap fun c =>
    if c.toNat < 0x10000 then [c.toNat]
    else [0xD800 + (c.toNat - 0x10000) / 0x400, 0xDC00 + (c.toNat - 0x10000) % 0x400]

def sqlFiles (entries : List String) : List String :=
  (entries.filter fun f => f.endsWith ".sql").insertionSort fun a b =>
    codeUnits a ≤ codeUnits b

variable (files : MigrationFiles δ)

/-- From `BEGIN` to `COMMIT`; the name is the primary key. -/
def commit (file sql : String) (db : MigrationDb δ) :
    Except MigrationError (Unit × MigrationDb δ) :=
  match files.query sql db.schema with
  | .error message => .error (.failed file message)
  | .ok schema =>
      if db.recorded file then
        .error (.failed file
          "duplicate key value violates unique constraint \"_migrations_pkey\"")
      else .ok ((), { schema := schema, migrations := some (db.migrations.getD [] ++ [file]) })

/-- The body of the loop; it tells whether the file has been applied. -/
def applyFile (file : String) : Program (MigrationDb δ) MigrationError Bool := do
  if ← .read fun db => db.recorded file then return false
  match files.readFile file with
  | none => .throw (.unreadable file)
  | some sql =>
      .transaction (commit files file sql)
      return true

def applyFrom : List String → List String → Program (MigrationDb δ) MigrationError (List String)
  | [], applied => return applied
  | file :: rest, applied => do
      let did ← applyFile files file
      applyFrom rest (if did then applied ++ [file] else applied)

/-- With the entries of the directory; the names of the files that have been applied. -/
def runMigrations (entries : List String) :
    Program (MigrationDb δ) MigrationError (List String) := do
  .write MigrationDb.create
  applyFrom files (sqlFiles entries) []

end Migrations
end Sahay
