import Dockstack.Base.Decimal
import Dockstack.Base.Machine
import Mathlib.Data.List.Sort
import Mathlib.Data.String.Basic

/-!
# Migrations

`Migrate` of `internal/db/db.go:46–109` as a machine that takes one store call a step. Any call may
fail, and the process may be killed at any step; the next start-up embeds the same files or more.
A script and its row are in one transaction, which a failure or a kill before the commit rolls
back.
-/

namespace Dockstack.Db

open Dockstack.Base

/-- A file of `migrationsFS`. -/
structure MigrationFile where
  name : String
  content : String
  deriving DecidableEq

/-- `strings.TrimSuffix`. -/
def trimSuffix (s suffix : List Char) : List Char :=
  if suffix.isSuffixOf s then s.take (s.length - suffix.length) else s

/-- `parseMigrationVersion`; `db.go:111–118`. `none` is an error. -/
def parseMigrationVersion (name : String) : Option Int :=
  parseInt ((trimSuffix name.toList ".sql".toList).takeWhile (· != '_'))

/-- The embedded `migrations` directory: no two files have one name or one version. -/
structure MigrationsFS where
  files : List MigrationFile
  names_nodup : (files.map (·.name)).Nodup
  versions_nodup : (files.filterMap fun f ↦ parseMigrationVersion f.name).Nodup

/-- `fs.ReadFile`. -/
def MigrationsFS.readFile (fs : MigrationsFS) (name : String) : Option String :=
  (fs.files.find? (·.name == name)).map (·.content)

/-- `fs.ReadDir` and the sorted names; `db.go:71–79`. -/
def MigrationsFS.sortedNames (fs : MigrationsFS) : List String :=
  (fs.files.map (·.name)).insertionSort (· ≤ ·)

/-- A migration that a call is applying, and what its loop has left. -/
structure PendingMigration where
  applied : List Int
  names : List String
  name : String
  version : Int
  deriving DecidableEq

/-- The calls of a migration's transaction. -/
inductive MigrationStmt where
  | begin
  | exec
  | insert
  | commit
  deriving DecidableEq

/-- Where a call of `Migrate` is: its next call, with what it has so far. -/
inductive MigratePhase where
  | creating
  | querying
  | scanning (applied unread : List Int)
  | listing (applied : List Int)
  | looping (applied : List Int) (names : List String)
  | opening (m : PendingMigration)
  | applying (stmt : MigrationStmt) (m : PendingMigration) (content : String)
  | returned (ok : Bool)
  deriving DecidableEq

/-- How a call ends: well, with an error, or with an error after it has taken effect. -/
inductive CallOutcome where
  | ok
  | fails
  | lost
  deriving DecidableEq

/-- The files of the last start-up, `schema_migrations` once it is created, the scripts that have
been committed, and how many of them before the last start-up. -/
structure MigrateDB where
  fs : MigrationsFS
  versions : Option (List Int)
  committed : List MigrationFile
  runStart : Nat

/-- The database and the call in progress or last returned, `none` after a kill. -/
structure MigrateState where
  db : MigrateDB
  run : Option MigratePhase

/-- No start-up yet. -/
def MigrateState.init : MigrateState := ⟨⟨⟨[], List.nodup_nil, List.nodup_nil⟩, none, [], 0⟩, none⟩

/-- What happens: a start-up calls `Migrate`, the call goes on, or the process is killed. -/
inductive MigrateStep where
  | start (fs : MigrationsFS)
  | advance (outcome : CallOutcome)
  | kill

/-- The call goes on with `phase`, or returns the error of its store call. -/
def CallOutcome.next (outcome : CallOutcome) (phase : MigratePhase) : MigratePhase :=
  if outcome = .ok then phase else .returned false

namespace MigrateDB

/-- The transaction of a migration takes effect. -/
def commit (db : MigrateDB) (m : PendingMigration) (content : String) : MigrateDB :=
  { db with
    versions := some (db.versions.getD [] ++ [m.version])
    committed := db.committed ++ [⟨m.name, content⟩] }

/-- A call of a migration's transaction; `db.go:93–106`. -/
def apply (db : MigrateDB) (outcome : CallOutcome) (m : PendingMigration) (content : String) :
    MigrationStmt → MigrateDB × MigratePhase
  | .begin => (db, outcome.next (.applying .exec m content))
  | .exec => (db, outcome.next (.applying .insert m content))
  | .insert =>
    -- the version is the table's primary key
    if m.version ∈ db.versions.getD [] then (db, .returned false)
    else (db, outcome.next (.applying .commit m content))
  | .commit =>
    if outcome = .fails then (db, .returned false)
    else (db.commit m content, outcome.next (.looping m.applied m.names))

/-- The next call; `db.go:47–108`. -/
def advance (db : MigrateDB) (outcome : CallOutcome) : MigratePhase → MigrateDB × MigratePhase
  | .creating =>
    if outcome = .fails then (db, .returned false)
    else ({ db with versions := some (db.versions.getD []) }, outcome.next .querying)
  | .querying =>
    match db.versions with
    | none => (db, .returned false)
    | some versions => (db, outcome.next (.scanning [] versions))
  | .scanning applied [] => (db, outcome.next (.listing applied))
  | .scanning applied (v :: unread) => (db, outcome.next (.scanning (v :: applied) unread))
  | .listing applied => (db, outcome.next (.looping applied db.fs.sortedNames))
  | .looping _ [] => (db, .returned true)
  | .looping applied (name :: names) =>
    match parseMigrationVersion name with
    | none => (db, .returned false)
    | some version =>
      if version ∈ applied then (db, .looping applied names)
      else (db, .opening ⟨applied, names, name, version⟩)
  | .opening m =>
    match db.fs.readFile m.name with
    | none => (db, .returned false)
    | some content => (db, outcome.next (.applying .begin m content))
  | .applying stmt m content => db.apply outcome m content stmt
  | .returned ok => (db, .returned ok)

/-- The scripts that have been committed since the last start-up, in order. -/
def since (db : MigrateDB) : List MigrationFile := db.committed.drop db.runStart

end MigrateDB

/-- A call is in progress. -/
def MigrateState.running (s : MigrateState) : Bool :=
  match s.run with
  | none => false
  | some (.returned _) => false
  | some _ => true

/-- One step. The start-ups come one after the other, and none drops a file. -/
def migrateStep (s : MigrateState) : MigrateStep → Option MigrateState
  | .start fs =>
    if s.running = false ∧ ∀ f ∈ s.db.fs.files, f ∈ fs.files then
      some ⟨{ s.db with fs := fs, runStart := s.db.committed.length }, some .creating⟩
    else none
  | .advance outcome =>
    match s.run with
    | none => none
    | some phase =>
      let r := s.db.advance outcome phase
      some ⟨r.1, some r.2⟩
  | .kill => some ⟨s.db, none⟩

end Dockstack.Db
